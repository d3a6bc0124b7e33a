import Pmkit.Library.Ascii

/-!
# The bytes of a text

A byte below 128 stands for the character with its number, and for nothing
else.
-/

namespace Utf8

theorem bytes_ofList (letters : List Char) :
    Ascii.bytes (String.ofList letters) =
      letters.flatMap String.utf8EncodeChar := by
  have utf8 : (String.ofList letters).toUTF8 = letters.utf8Encode :=
    String.toByteArray_ofList
  rw [Ascii.bytes, utf8, List.utf8Encode]
  simp

/-- The bytes of a character above 127 are above 127. -/
theorem toNat_of_mem_utf8EncodeChar {letter : Char} {byte : UInt8}
    (mem : byte ∈ String.utf8EncodeChar letter) :
    byte.toNat = letter.toNat ∨ 128 ≤ byte.toNat := by
  have code : letter.val.toNat = letter.toNat := rfl
  unfold String.utf8EncodeChar at mem
  simp only [code] at mem
  split at mem
  · left
    rw [List.mem_singleton] at mem
    rw [mem, UInt8.toNat_ofNat']
    omega
  · right
    split at mem
    · simp only [List.mem_cons, List.not_mem_nil, or_false] at mem
      rcases mem with rfl | rfl
      all_goals
        rw [UInt8.toNat_ofNat']
        omega
    · split at mem
      · simp only [List.mem_cons, List.not_mem_nil, or_false] at mem
        rcases mem with rfl | rfl | rfl
        all_goals
          rw [UInt8.toNat_ofNat']
          omega
      · simp only [List.mem_cons, List.not_mem_nil, or_false] at mem
        rcases mem with rfl | rfl | rfl | rfl
        all_goals
          rw [UInt8.toNat_ofNat']
          omega

theorem notMem_bytes
    {letters : List Char} (printable : ∀ letter ∈ letters, 32 ≤ letter.toNat)
    {byte : UInt8} (control : byte.toNat < 32) :
    byte ∉ Ascii.bytes (String.ofList letters) := by
  rw [bytes_ofList]
  intro mem
  obtain ⟨letter, inside, encoded⟩ := List.mem_flatMap.mp mem
  have above := printable letter inside
  rcases toNat_of_mem_utf8EncodeChar encoded with same | high
  · omega
  · omega

def decode (bytes : List UInt8) : Option String :=
  String.fromUTF8? ⟨bytes.toArray⟩

theorem decode_bytes (text : String) :
    decode (Ascii.bytes text) = some text := by
  have same : (⟨(Ascii.bytes text).toArray⟩ : ByteArray) = text.toUTF8 := by
    rw [Ascii.bytes, Array.toArray_toList]
  rw [decode, same, String.fromUTF8?]
  exact dif_pos text.isValidUTF8

end Utf8

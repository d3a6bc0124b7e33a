import Mathlib.Data.List.Basic

/-!
# Texts of ASCII characters

The bytes of such a text are its characters, one byte each.
-/

namespace Ascii

def bytes (text : String) : List UInt8 :=
  text.toUTF8.data.toList

def byte (character : Char) : UInt8 :=
  character.val.toUInt8

def char (byte : UInt8) : Char :=
  Char.ofNat byte.toNat

variable {characters : List Char}

theorem bytes_ofList (ascii : ∀ character ∈ characters, character.toNat < 128) :
    bytes (String.ofList characters) = characters.map byte := by
  have encoded : characters.flatMap String.utf8EncodeChar =
      characters.map byte := by
    induction characters with
    | nil => rfl
    | cons character rest ih =>
        have below : character.val.toNat < 128 :=
          ascii character List.mem_cons_self
        have size : character.utf8Size = 1 := by
          unfold Char.utf8Size
          rw [if_pos]
          exact UInt32.le_iff_toNat_le.mpr
            (by simpa using Nat.le_of_lt_succ below)
        rw [List.flatMap_cons, String.utf8EncodeChar_eq_singleton size,
          ih fun other mem =>
            ascii other (List.mem_cons_of_mem character mem)]
        rfl
  have utf8 : (String.ofList characters).toUTF8 = characters.utf8Encode :=
    String.toByteArray_ofList
  rw [bytes, utf8, List.utf8Encode, encoded]
  simp

theorem byte_toNat {character : Char} (ascii : character.toNat < 128) :
    (byte character).toNat = character.toNat := by
  have below : character.val.toNat < 128 := ascii
  show character.val.toNat % 256 = character.val.toNat
  omega

theorem char_byte {character : Char} (ascii : character.toNat < 128) :
    char (byte character) = character := by
  rw [char, byte_toNat ascii, Char.ofNat_toNat]

theorem map_char_bytes
    (ascii : ∀ character ∈ characters, character.toNat < 128) :
    (bytes (String.ofList characters)).map char = characters := by
  rw [bytes_ofList ascii, List.map_map]
  conv_rhs => rw [← List.map_id characters]
  exact List.map_congr_left fun character mem =>
    char_byte (ascii character mem)

/-- Letters and digits lie between `0` and `z`. -/
theorem toNat_of_isAlphanum
    {letter : Char} (alphanumeric : letter.isAlphanum = true) :
    48 ≤ letter.toNat ∧ letter.toNat ≤ 122 := by
  have cases : ((decide (65 ≤ letter.val ∧ letter.val ≤ 90) ||
      (97 ≤ letter.val && letter.val ≤ 122)) ||
      (48 ≤ letter.val && letter.val ≤ 57)) = true :=
    alphanumeric
  simp only [Bool.or_eq_true, Bool.and_eq_true, decide_eq_true_eq,
    UInt32.le_iff_toNat_le] at cases
  show 48 ≤ letter.val.toNat ∧ letter.val.toNat ≤ 122
  rcases cases with (⟨above, below⟩ | ⟨above, below⟩) | ⟨above, below⟩
  · exact ⟨Nat.le_trans (by decide) above, Nat.le_trans below (by decide)⟩
  · exact ⟨Nat.le_trans (by decide) above, below⟩
  · exact ⟨above, Nat.le_trans below (by decide)⟩

end Ascii

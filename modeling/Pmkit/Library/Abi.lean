import Mathlib.Data.List.Induction
import Mathlib.Tactic.Linarith
import Mathlib.Tactic.Ring

/-!
# Contract ABI words

Numbers as words of a fixed count of hexadecimal digits, and the canonical
layout of arguments: a head of one word for each argument, and behind it the
arrays, each as its length and its items, at the offsets that the head says.
-/

universe u

/-! ## Digits of a fixed count -/

namespace FixedDigits

def write (base : Nat) : Nat → Nat → List Nat
  | 0, _ => []
  | width + 1, value => write base width (value / base) ++ [value % base]

def read (base : Nat) (digits : List Nat) : Nat :=
  digits.foldl (fun value digit => base * value + digit) 0

theorem read_append (base : Nat) (digits : List Nat) (digit : Nat) :
    read base (digits ++ [digit]) = base * read base digits + digit := by
  rw [read, List.foldl_append]
  rfl

@[simp]
theorem length_write (base width value : Nat) :
    (write base width value).length = width := by
  induction width generalizing value with
  | zero =>
      rfl
  | succ width ih =>
      rw [write, List.length_append, ih, List.length_singleton]

variable {base : Nat} {digits : List Nat}

theorem lt_of_mem_write {width value digit : Nat} (positive : 0 < base)
    (mem : digit ∈ write base width value) : digit < base := by
  induction width generalizing value with
  | zero =>
      cases mem
  | succ width ih =>
      rw [write, List.mem_append, List.mem_singleton] at mem
      rcases mem with before | rfl
      · exact ih before
      · exact Nat.mod_lt _ positive

/-- A number that fits is read back from its digits. -/
theorem read_write {width value : Nat} (fits : value < base ^ width) :
    read base (write base width value) = value := by
  induction width generalizing value with
  | zero =>
      have zero : value = 0 := by
        rw [pow_zero] at fits
        omega
      subst zero
      rfl
  | succ width ih =>
      have shorter : value / base < base ^ width := by
        apply Nat.div_lt_of_lt_mul
        rw [pow_succ, mul_comm] at fits
        exact fits
      rw [write, read_append, ih shorter]
      exact Nat.div_add_mod value base

theorem write_read (small : ∀ digit ∈ digits, digit < base) :
    write base digits.length (read base digits) = digits := by
  induction digits using List.reverseRecOn with
  | nil =>
      rfl
  | append_singleton digits digit ih =>
      have last : digit < base :=
        small digit (List.mem_append_right digits List.mem_cons_self)
      have positive : 0 < base := Nat.zero_lt_of_lt last
      have quotient : (base * read base digits + digit) / base =
          read base digits := by
        rw [Nat.mul_add_div positive, Nat.div_eq_of_lt last, Nat.add_zero]
      have remainder : (base * read base digits + digit) % base = digit := by
        rw [Nat.mul_add_mod, Nat.mod_eq_of_lt last]
      rw [List.length_append, List.length_singleton, write, read_append,
        quotient, remainder, ih fun other mem =>
          small other (List.mem_append_left _ mem)]

theorem read_lt (small : ∀ digit ∈ digits, digit < base) :
    read base digits < base ^ digits.length := by
  induction digits using List.reverseRecOn with
  | nil =>
      exact Nat.one_pos
  | append_singleton digits digit ih =>
      have last : digit < base :=
        small digit (List.mem_append_right digits List.mem_cons_self)
      have before := ih fun other mem =>
        small other (List.mem_append_left _ mem)
      rw [read_append, List.length_append, List.length_singleton, pow_succ]
      have grown : base * (read base digits + 1) ≤
          base * base ^ digits.length := Nat.mul_le_mul_left base before
      rw [mul_comm (base ^ digits.length) base]
      rw [Nat.mul_add, Nat.mul_one] at grown
      omega

/-- The first of some digits count for the powers of the others. -/
theorem read_append_list (base : Nat) (first later : List Nat) :
    read base (first ++ later) =
      read base first * base ^ later.length + read base later := by
  induction later using List.reverseRecOn with
  | nil =>
      rw [List.append_nil, List.length_nil, pow_zero, Nat.mul_one]
      rfl
  | append_singleton later digit ih =>
      rw [← List.append_assoc, read_append, read_append, ih,
        List.length_append, List.length_singleton, pow_succ]
      ring

theorem read_eq_zero_iff (positive : 0 < base) :
    read base digits = 0 ↔ ∀ digit ∈ digits, digit = 0 := by
  induction digits using List.reverseRecOn with
  | nil =>
      simp [read]
  | append_singleton digits digit ih =>
      rw [read_append, Nat.add_eq_zero_iff, Nat.mul_eq_zero,
        or_iff_right positive.ne', ih]
      simp only [List.mem_append, List.mem_singleton, or_imp, forall_and,
        forall_eq]

end FixedDigits

/-- An argument of a call or an event: one word, or an array of words. -/
inductive AbiArgument where
  | word (value : Nat)
  | array (items : List Nat)

namespace AbiArgument

def tail : AbiArgument → List Nat
  | word _ => []
  | array items => items.length :: items

def heads : Nat → List AbiArgument → List Nat
  | _, [] => []
  | offset, word value :: rest => value :: heads offset rest
  | offset, array items :: rest =>
      offset :: heads (offset + 32 * (items.length + 1)) rest

def encode (arguments : List AbiArgument) : List Nat :=
  heads (32 * arguments.length) arguments ++ arguments.flatMap tail

end AbiArgument

section Pieces

variable {A : Type u} {size : Nat} {pieces : List (List A)}

theorem length_flatten_of_forall
    (uniform : ∀ piece ∈ pieces, piece.length = size) :
    pieces.flatten.length = pieces.length * size := by
  induction pieces with
  | nil =>
      simp
  | cons piece rest ih =>
      rw [List.flatten_cons, List.length_append, List.length_cons,
        uniform piece List.mem_cons_self, ih fun other mem =>
          uniform other (List.mem_cons_of_mem piece mem)]
      ring

theorem take_flatten_of_forall
    (uniform : ∀ piece ∈ pieces, piece.length = size) (count : Nat) :
    pieces.flatten.take (count * size) = (pieces.take count).flatten := by
  induction pieces generalizing count with
  | nil =>
      simp
  | cons piece rest ih =>
      cases count with
      | zero => simp
      | succ count =>
          have own := uniform piece List.mem_cons_self
          rw [List.flatten_cons, List.take_succ_cons, List.flatten_cons,
            Nat.add_mul, Nat.one_mul, Nat.add_comm, ← own,
            List.take_length_add_append, own, ih fun other mem =>
              uniform other (List.mem_cons_of_mem piece mem)]

theorem drop_flatten_of_forall
    (uniform : ∀ piece ∈ pieces, piece.length = size) (count : Nat) :
    pieces.flatten.drop (count * size) = (pieces.drop count).flatten := by
  induction pieces generalizing count with
  | nil =>
      simp
  | cons piece rest ih =>
      cases count with
      | zero => simp
      | succ count =>
          have own := uniform piece List.mem_cons_self
          rw [List.flatten_cons, List.drop_succ_cons, Nat.add_mul, Nat.one_mul,
            Nat.add_comm, ← own, List.drop_length_add_append, own,
            ih fun other mem =>
              uniform other (List.mem_cons_of_mem piece mem)]

end Pieces

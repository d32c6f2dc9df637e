import Mathlib
import SqlMemo.Bytes

/-!
# Bytes in place

A number can be read back from bytes that have room for it, and what a byte sequence holds at a
position can be read back from its windows there.
-/

set_option autoImplicit false

namespace SqlMemo.Bytes

theorem toNat_ofNat {width value : Nat} (room : value < 256 ^ width) :
    (ofNat width value).toNat = value := by
  induction width generalizing value with
  | zero =>
      obtain rfl : value = 0 := by simpa using room
      rfl
  | succ width ih =>
      have rest : value / 256 < 256 ^ width := by
        rw [Nat.pow_succ] at room
        omega
      rw [ofNat, toNat, ih rest, UInt8.toNat_ofNat']
      omega

theorem toNat_lt (bytes : Bytes) : bytes.toNat < 256 ^ bytes.length := by
  induction bytes with
  | nil => exact Nat.one_pos
  | cons byte bytes ih =>
      have small := byte.toNat_lt
      rw [toNat, List.length_cons, Nat.pow_succ]
      omega

/-- Every byte sequence is a number with room for it. -/
theorem exists_ofNat {bytes : Bytes} {width : Nat} (length_eq : bytes.length = width) :
    ∃ value, value < 256 ^ width ∧ ofNat width value = bytes := by
  subst length_eq
  exact ⟨bytes.toNat, toNat_lt bytes, ofNat_toNat bytes⟩

/-- The content stands in a byte sequence from a position on. -/
def HoldsAt (bytes : Bytes) (position : Nat) (content : Bytes) : Prop :=
  content <+: bytes.drop position

instance (bytes : Bytes) (position : Nat) (content : Bytes) :
    Decidable (bytes.HoldsAt position content) :=
  inferInstanceAs (Decidable (content <+: bytes.drop position))

namespace HoldsAt

variable {bytes first second content : Bytes} {position : Nat}

theorem append_self (before content : Bytes) :
    (before ++ content).HoldsAt before.length content := by
  rw [HoldsAt, List.drop_left]

theorem left (holds : bytes.HoldsAt position (first ++ second)) : bytes.HoldsAt position first :=
  (List.prefix_append first second).trans holds

theorem right (holds : bytes.HoldsAt position (first ++ second)) :
    bytes.HoldsAt (position + first.length) second := by
  obtain ⟨behind, split⟩ := holds
  refine ⟨behind, ?_⟩
  rw [← List.drop_drop, ← split, List.append_assoc, List.drop_left]

theorem length_le (holds : bytes.HoldsAt position content) (nonempty : content ≠ []) :
    position + content.length ≤ bytes.length := by
  have positive := List.length_pos_iff.mpr nonempty
  have short := List.IsPrefix.length_le holds
  rw [List.length_drop] at short
  omega

theorem window_eq (holds : bytes.HoldsAt position content) {width : Nat}
    (short : width ≤ content.length) : bytes.window position width = content.take width := by
  obtain ⟨behind, split⟩ := holds
  rw [window, ← split, List.take_append_of_le_length short]

theorem toNat_window_eq {width value : Nat} (holds : bytes.HoldsAt position (ofNat width value))
    (room : value < 256 ^ width) : (bytes.window position width).toNat = value := by
  have whole := Nat.le_of_eq (length_ofNat width value)
  rw [holds.window_eq (Nat.le_of_eq (length_ofNat width value).symm), List.take_of_length_le whole,
    toNat_ofNat room]

theorem getElem?_eq {byte : UInt8} (holds : bytes.HoldsAt position (byte :: content)) :
    bytes[position]? = some byte := by
  obtain ⟨behind, split⟩ := holds
  rw [← List.head?_drop, ← split, List.cons_append, List.head?_cons]

end HoldsAt

end SqlMemo.Bytes

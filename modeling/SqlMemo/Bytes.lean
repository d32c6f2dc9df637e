/-!
# Bytes

Byte sequences and the little-endian numbers in them.
-/

set_option autoImplicit false

namespace SqlMemo

abbrev Bytes := List UInt8

namespace Bytes

/-- The bytes from `start` on, `width` of them or as many as there are. -/
def window (bytes : Bytes) (start width : Nat) : Bytes :=
  (bytes.drop start).take width

@[simp] theorem length_window (bytes : Bytes) (start width : Nat) :
    (bytes.window start width).length = min width (bytes.length - start) := by
  simp [window]

/-- The `width` bytes from `start` on, if all of them are there. -/
def window? (bytes : Bytes) (start width : Nat) : Option Bytes :=
  if start + width ≤ bytes.length then some (bytes.window start width) else none

/-- The number that a byte sequence denotes, least significant byte first. -/
def toNat : Bytes → Nat
  | [] => 0
  | byte :: bytes => byte.toNat + 256 * toNat bytes

/-- The `width` least significant bytes of a number, least significant byte first. -/
def ofNat : (width : Nat) → (value : Nat) → Bytes
  | 0, _ => []
  | width + 1, value => UInt8.ofNat value :: ofNat width (value / 256)

@[simp] theorem length_ofNat (width value : Nat) : (ofNat width value).length = width := by
  induction width generalizing value with
  | zero => rfl
  | succ width ih => simp [ofNat, ih]

theorem ofNat_toNat (bytes : Bytes) : ofNat bytes.length bytes.toNat = bytes := by
  induction bytes with
  | nil => rfl
  | cons byte bytes ih =>
    have quotient : (byte.toNat + 256 * toNat bytes) / 256 = toNat bytes := by
      have small := byte.toNat_lt
      omega
    have low : UInt8.ofNat (byte.toNat + 256 * toNat bytes) = byte := by
      rw [← UInt8.toNat_inj]
      simp only [UInt8.toNat_ofNat']
      have small := byte.toNat_lt
      omega
    simp only [List.length_cons, ofNat, toNat, quotient, low, ih]

/-- The number in the `width` bytes at `start`, if all of them are there. -/
def littleEndian? (bytes : Bytes) (start width : Nat) : Option Nat :=
  (bytes.window? start width).map toNat

end Bytes

end SqlMemo

/-!
# Hexadecimal numbers

Numbers written to base sixteen with lower-case digits behind `0x`.
-/

set_option autoImplicit false

namespace SqlMemo.Text

/-- A number in hexadecimal with at least `width` digits. -/
def hexadecimalPadded (width value : Nat) : String :=
  let digits := Nat.toDigits 16 value
  String.ofList ('0' :: 'x' :: List.replicate (width - digits.length) '0' ++ digits)

/-- A number in hexadecimal with no more digits than it needs. -/
def hexadecimal (value : Nat) : String :=
  hexadecimalPadded 0 value

end SqlMemo.Text

import SqlMemo.Text.CaseTable

/-!
# Upper case

Full, context-free upper-casing: every character is replaced by its capital form, which may be
several characters long. Two texts are the same name when their upper case is the same.
-/

set_option autoImplicit false

namespace SqlMemo.Text

/-- The capital form of a character outside ASCII. A character without one stands for itself. -/
def wideCapital (char : Char) : List Char :=
  match caseExpansions.lookup char.toNat with
  | some codes => codes.map Char.ofNat
  | none =>
    match caseRuns.find? (·.contains char.toNat) with
    | some run => [Char.ofNat (run.capitalOf char.toNat)]
    | none => [char]

def capital (char : Char) : List Char :=
  if char.toNat < 0x80 then [char.toUpper] else wideCapital char

/-- The upper case of a sequence of characters. -/
def upperChars (chars : List Char) : List Char :=
  chars.flatMap capital

def upper (text : String) : String :=
  String.ofList (upperChars text.toList)

@[simp] theorem upperChars_nil : upperChars [] = [] := rfl

@[simp] theorem upperChars_cons (char : Char) (chars : List Char) :
    upperChars (char :: chars) = capital char ++ upperChars chars := rfl

@[simp] theorem upperChars_append (left right : List Char) :
    upperChars (left ++ right) = upperChars left ++ upperChars right := by
  simp [upperChars]

@[simp] theorem toList_upper (text : String) : (upper text).toList = upperChars text.toList := by
  simp [upper]

theorem capital_of_ascii {char : Char} (ascii : char.toNat < 0x80) :
    capital char = [char.toUpper] := by
  simp [capital, ascii]

end SqlMemo.Text

import SqlMemo.Bytes

/-!
# UTF-8

Text as bytes and back. Decoding splits the bytes into units. A unit is either one well-formed
character or a longest prefix of one that the bytes behind it do not continue. Strict decoding
refuses such a fragment, lenient decoding puts one replacement character in its place.
-/

set_option autoImplicit false

namespace SqlMemo.Text.Utf8

/-! ## Encoding -/

def encodeChar (char : Char) : Bytes :=
  let code := char.toNat
  if code < 0x80 then
    [UInt8.ofNat code]
  else if code < 0x800 then
    [UInt8.ofNat (0xC0 + code / 64), UInt8.ofNat (0x80 + code % 64)]
  else if code < 0x10000 then
    [UInt8.ofNat (0xE0 + code / 4096), UInt8.ofNat (0x80 + code / 64 % 64),
      UInt8.ofNat (0x80 + code % 64)]
  else
    [UInt8.ofNat (0xF0 + code / 262144), UInt8.ofNat (0x80 + code / 4096 % 64),
      UInt8.ofNat (0x80 + code / 64 % 64), UInt8.ofNat (0x80 + code % 64)]

def encodeChars (chars : List Char) : Bytes :=
  chars.flatMap encodeChar

def encode (text : String) : Bytes :=
  encodeChars text.toList

/-! ## Decoding -/

/-- What the first byte of a character announces: its share of the code point, the number of
continuation bytes, and the range of the first of them. The narrow ranges leave out code points
that a shorter form can hold, surrogates, and numbers behind the last code point. -/
structure Lead where
  share : Nat
  continuations : Nat
  least : Nat
  greatest : Nat
  deriving DecidableEq, Repr

/-- The announcement of a first byte, if it can be one. -/
def lead? (byte : UInt8) : Option Lead :=
  let value := byte.toNat
  if value < 0x80 then some ⟨value, 0, 0x80, 0xBF⟩
  else if value < 0xC2 then none
  else if value < 0xE0 then some ⟨value - 0xC0, 1, 0x80, 0xBF⟩
  else if value = 0xE0 then some ⟨0x0, 2, 0xA0, 0xBF⟩
  else if value = 0xED then some ⟨0xD, 2, 0x80, 0x9F⟩
  else if value < 0xF0 then some ⟨value - 0xE0, 2, 0x80, 0xBF⟩
  else if value = 0xF0 then some ⟨0, 3, 0x90, 0xBF⟩
  else if value < 0xF4 then some ⟨value - 0xF0, 3, 0x80, 0xBF⟩
  else if value = 0xF4 then some ⟨4, 3, 0x80, 0x8F⟩
  else none

/-- Reads `count` continuation bytes, the first of them between `least` and `greatest`, behind the
part `share` of a code point. Without a code point, the bytes that fit are left out all the same. -/
def readContinuations (share : Nat) : (count least greatest : Nat) → Bytes → Option Nat × Bytes
  | 0, _, _, bytes => (some share, bytes)
  | _ + 1, _, _, [] => (none, [])
  | count + 1, least, greatest, byte :: bytes =>
    if least ≤ byte.toNat ∧ byte.toNat ≤ greatest then
      readContinuations (share * 64 + (byte.toNat - 0x80)) count 0x80 0xBF bytes
    else
      (none, byte :: bytes)

/-- Reads the unit that begins with `byte`. It is a character, or nothing for a fragment. -/
def readUnit (byte : UInt8) (bytes : Bytes) : Option Char × Bytes :=
  match lead? byte with
  | none => (none, bytes)
  | some lead =>
    let (code, rest) :=
      readContinuations lead.share lead.continuations lead.least lead.greatest bytes
    (code.map Char.ofNat, rest)

theorem length_readContinuations_le (share count least greatest : Nat) (bytes : Bytes) :
    (readContinuations share count least greatest bytes).2.length ≤ bytes.length := by
  induction count generalizing share least greatest bytes with
  | zero => simp [readContinuations]
  | succ count ih =>
    cases bytes with
    | nil => simp [readContinuations]
    | cons byte bytes =>
      rw [readContinuations]
      split
      · exact Nat.le_succ_of_le (ih ..)
      · exact Nat.le_refl _

theorem length_readUnit_le (byte : UInt8) (bytes : Bytes) :
    (readUnit byte bytes).2.length ≤ bytes.length := by
  unfold readUnit
  split
  · exact Nat.le_refl _
  · exact length_readContinuations_le ..

/-- Puts the units of `bytes` in front of `read`, the last one first. -/
def unitsOnto (read : List (Option Char)) : Bytes → List (Option Char)
  | [] => read
  | byte :: bytes =>
    let step := readUnit byte bytes
    unitsOnto (step.1 :: read) step.2
termination_by bytes => bytes.length
decreasing_by exact Nat.lt_succ_of_le (length_readUnit_le ..)

/-- The units of `bytes`, in order. -/
def units (bytes : Bytes) : List (Option Char) :=
  (unitsOnto [] bytes).reverse

theorem unitsOnto_eq (read : List (Option Char)) (bytes : Bytes) :
    unitsOnto read bytes = (units bytes).reverse ++ read := by
  suffices general : ∀ (first second : List (Option Char)),
      unitsOnto (first ++ second) bytes = unitsOnto first bytes ++ second by
    simpa [units] using general [] read
  intro first
  fun_induction unitsOnto first bytes with
  | case1 read => intro second; simp [unitsOnto]
  | case2 read byte bytes step ih =>
    intro second
    rw [unitsOnto]
    exact ih second

@[simp] theorem units_nil : units [] = [] := by
  simp [units, unitsOnto]

theorem units_cons (byte : UInt8) (bytes : Bytes) :
    units (byte :: bytes) = (readUnit byte bytes).1 :: units (readUnit byte bytes).2 := by
  rw [units, unitsOnto, unitsOnto_eq]
  simp

/-- The text of well-formed bytes. -/
def decode? (bytes : Bytes) : Option String :=
  let read := units bytes
  if read.all Option.isSome then some (String.ofList (read.filterMap id)) else none

/-- The text of any bytes, with U+FFFD for every fragment. -/
def decodeLenient (bytes : Bytes) : String :=
  String.ofList ((units bytes).map fun unit => unit.getD '\uFFFD')

end SqlMemo.Text.Utf8

import SqlMemo.Bytes
import SqlMemo.Error

/-!
# Storage media

The content of a file together with what can go wrong on the way to it. A medium may refuse every
seek, and it may have a bad area: reading goes well up to the first bad byte and fails there. It
remembers which positions were sought.
-/

set_option autoImplicit false

namespace SqlMemo

/-- A file on a storage device.

* `seekFault`: what every seek ends in, if seeking is broken.
* `badArea`: the first position that cannot be read and what reading there ends in.
* `seeks`: the positions that were sought, the last one first. -/
structure Medium where
  bytes : Bytes
  seekFault : Option IoError
  badArea : Option (Nat × IoError)
  seeks : List Nat
  deriving DecidableEq, Repr

namespace Medium

def ofBytes (bytes : Bytes) : Medium :=
  ⟨bytes, none, none, []⟩

def seek (position : Nat) (medium : Medium) : Except IoError Unit × Medium :=
  let result := match medium.seekFault with
    | some failure => .error failure
    | none => .ok ()
  (result, { medium with seeks := position :: medium.seeks })

/-- The failure that reading `width` bytes from `start` on ends in, if it meets the bad area. The
end of the content may come first, unless reading starts in the bad area. -/
def readFault? (start width : Nat) (medium : Medium) : Option IoError :=
  match medium.badArea with
  | some (bad, failure) =>
    if 0 < width ∧ bad < start + width ∧ (bad ≤ medium.bytes.length ∨ bad ≤ start) then
      some failure
    else none
  | none => none

/-- Reads `width` bytes from `start` on, or as many as there are. -/
def read (start width : Nat) (medium : Medium) : Except IoError Bytes :=
  match medium.readFault? start width with
  | some failure => .error failure
  | none => .ok (medium.bytes.window start width)

end Medium

end SqlMemo

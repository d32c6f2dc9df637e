import SqlMemo.Catalog
import SqlMemo.Sql.TokenStream

/-!
# Procedure calls in statements

A name calls a procedure when an opening parenthesis follows it. The tokens of a statement are read
with one token of lookahead, which is put back before it is read for good.
-/

set_option autoImplicit false

namespace SqlMemo.Sql

/-- A token and the procedure that it calls, if it calls one. -/
structure ResolvedToken where
  token : Token
  procedure : Option Procedure
  deriving DecidableEq, Repr

namespace TokenStream

/-- The procedure that a token calls, given the stream behind it, and that stream. A fault behind
the token is a fault of this reading. -/
def callee (catalog : Catalog) (token : Token) (stream : TokenStream) :
    Except ScanError (Option Procedure) × TokenStream :=
  if token.kind = .identifier ∧ stream.hasNext then
    let step := stream.next
    match step.1 with
    | .error fault => (.error fault, step.2)
    | .ok follower =>
      let procedure :=
        if follower.kind = .symbol .openParenthesis then catalog.find? token.text else none
      (.ok procedure, step.2.putBack follower)
  else (.ok none, stream)

theorem size_callee_le (catalog : Catalog) (token : Token) (stream : TokenStream) :
    (stream.callee catalog token).2.size ≤ stream.size := by
  unfold callee
  split
  · rename_i looks
    have shorter := size_next_lt looks.2
    cases item : stream.next.1 with
    | error fault =>
      simp only [item]
      exact Nat.le_of_lt shorter
    | ok follower =>
      simp only [item, size_putBack]
      exact shorter
  · exact Nat.le_refl _

/-- Reads on up to the end or the first fault and resolves every token, with those in `read` behind
it, the last one first. -/
def resolveOnto (catalog : Catalog) (read : List ResolvedToken) (stream : TokenStream) :
    Except ScanError (List ResolvedToken) :=
  if _ : stream.hasNext then
    let step := stream.next
    match step.1 with
    | .error fault => .error fault
    | .ok token =>
      let look := step.2.callee catalog token
      match look.1 with
      | .error fault => .error fault
      | .ok procedure => resolveOnto catalog (⟨token, procedure⟩ :: read) look.2
  else .ok read.reverse
termination_by stream.size
decreasing_by exact Nat.lt_of_le_of_lt (size_callee_le ..) (size_next_lt ‹_›)

end TokenStream

/-- The tokens of a statement with the procedures that they call, or the statement's first
fault. -/
def resolve (catalog : Catalog) (statement : String) : Except ScanError (List ResolvedToken) :=
  (TokenStream.ofStatement statement).resolveOnto catalog []

end SqlMemo.Sql

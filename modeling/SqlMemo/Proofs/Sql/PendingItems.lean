import SqlMemo.Sql.Call
import SqlMemo.Proofs.Sql.StatementGrammar

/-!
# The pending items of a token stream

A token stream is a stack of the items still to come: the tokens put back, the last one first, then
what the rest of the statement holds, faults included. Every operation on a stream is the one on
that stack, however operations are mixed.
-/

set_option autoImplicit false

namespace SqlMemo.Sql

/-- A token, or the fault in its place. -/
abbrev Item := Except ScanError Token

/-- The tokens of a list of items, or the first fault in it. -/
def tokensOf : List Item → Except ScanError (List Token)
  | [] => .ok []
  | .error fault :: _ => .error fault
  | .ok token :: items => (tokensOf items).map (token :: ·)

theorem mem_of_tokensOf_error {items : List Item} {fault : ScanError}
    (fails : tokensOf items = .error fault) : .error fault ∈ items := by
  induction items with
  | nil => cases fails
  | cons item items ih =>
      cases item with
      | error found =>
          obtain rfl := Except.error.inj fails
          exact List.mem_cons_self
      | ok token =>
          apply List.mem_cons_of_mem
          apply ih
          rw [tokensOf] at fails
          cases later : tokensOf items with
          | error found => simpa [later, Except.map] using fails
          | ok tokens => simp [later, Except.map] at fails

namespace TokenStream

/-- The items that the statement itself still holds: those of reading on past all faults, if
nothing had been put back. -/
def sourceItems (stream : TokenStream) : List Item :=
  (TokenStream.mk [] stream.cursor).drain.1

/-- All items to come. -/
def pending (stream : TokenStream) : List Item :=
  stream.pushed.map .ok ++ stream.sourceItems

/-- What can be done with a stream. -/
inductive Operation where
  | next
  | next?
  | putBack (token : Token)
  | hasNext

/-- What an operation answers. -/
inductive Answer where
  | item (item : Item)
  | item? (item : Option Item)
  | done
  | more (more : Bool)

/-- The answer of an operation and the stream behind it. -/
def perform (stream : TokenStream) : Operation → Answer × TokenStream
  | .next => (.item stream.next.1, stream.next.2)
  | .next? => (.item? stream.next?.1, stream.next?.2)
  | .putBack token => (.done, stream.putBack token)
  | .hasNext => (.more stream.hasNext, stream)

/-- The answers of a sequence of operations and the stream behind it. -/
def run (stream : TokenStream) : List Operation → List Answer × TokenStream
  | [] => ([], stream)
  | operation :: operations =>
    let step := stream.perform operation
    let rest := step.2.run operations
    (step.1 :: rest.1, rest.2)

/-! ## A stack of items -/

/-- The answer of an operation on a stack of items and the stack behind it. -/
def performOn (items : List Item) : Operation → Answer × List Item
  | .next => (.item (items.headD (.error .endOfStatement)), items.tail)
  | .next? => (.item? items.head?, items.tail)
  | .putBack token => (.done, .ok token :: items)
  | .hasNext => (.more !items.isEmpty, items)

/-- The answers of a sequence of operations on a stack of items and the stack behind it. -/
def runOn (items : List Item) : List Operation → List Answer × List Item
  | [] => ([], items)
  | operation :: operations =>
    let step := performOn items operation
    let rest := runOn step.2 operations
    (step.1 :: rest.1, rest.2)

/-! ## What is pending -/

theorem pending_of_end {stream : TokenStream} (ended : stream.hasNext = false) :
    stream.pending = [] := by
  obtain ⟨pushed_eq, rest_eq⟩ := hasNext_eq_false_iff.mp ended
  have source_end : (TokenStream.mk [] stream.cursor).hasNext = false := by
    simp [hasNext, rest_eq]
  simp [pending, sourceItems, pushed_eq, drain_of_end source_end]

theorem pending_of_hasNext {stream : TokenStream} (more : stream.hasNext = true) :
    stream.pending = stream.next.1 :: stream.next.2.pending := by
  obtain ⟨pushed, cursor⟩ := stream
  cases pushed with
  | nil =>
      simp only [pending, sourceItems, List.map_nil, List.nil_append]
      rw [drain_of_hasNext more]
      rfl
  | cons token pushed => rfl

theorem hasNext_iff_pending {stream : TokenStream} :
    stream.hasNext = true ↔ stream.pending ≠ [] := by
  cases more : stream.hasNext with
  | false => simp [pending_of_end more]
  | true => simp [pending_of_hasNext more]

theorem next_of_end {stream : TokenStream} (ended : stream.hasNext = false) :
    stream.next.1 = .error .endOfStatement ∧ stream.next.2.hasNext = false := by
  obtain ⟨pushed_eq, rest_eq⟩ := hasNext_eq_false_iff.mp ended
  obtain ⟨pushed, position, rest⟩ := stream
  obtain rfl : pushed = [] := pushed_eq
  obtain rfl : rest = [] := rest_eq
  exact ⟨rfl, rfl⟩

theorem next_tail_pending (stream : TokenStream) :
    stream.next.2.pending = stream.pending.tail := by
  cases more : stream.hasNext with
  | false => rw [pending_of_end more, pending_of_end (next_of_end more).2, List.tail_nil]
  | true => rw [pending_of_hasNext more, List.tail_cons]

theorem next_eq_headD (stream : TokenStream) :
    stream.next.1 = stream.pending.headD (.error .endOfStatement) := by
  cases more : stream.hasNext with
  | false => rw [pending_of_end more, (next_of_end more).1, List.headD_nil]
  | true => rw [pending_of_hasNext more, List.headD_cons]

theorem next?_eq_head? (stream : TokenStream) : stream.next?.1 = stream.pending.head? := by
  cases more : stream.hasNext with
  | false => simp [next?, more, pending_of_end more]
  | true => simp [next?, more, pending_of_hasNext more]

theorem next?_tail_pending (stream : TokenStream) :
    stream.next?.2.pending = stream.pending.tail := by
  cases more : stream.hasNext with
  | false => simp [next?, more, pending_of_end more]
  | true => simp [next?, more, pending_of_hasNext more]

theorem pending_putBack (token : Token) (stream : TokenStream) :
    (stream.putBack token).pending = .ok token :: stream.pending :=
  rfl

/-- One operation is that on the stack of pending items. -/
theorem perform_refines (stream : TokenStream) (operation : Operation) :
    (stream.perform operation).1 = (performOn stream.pending operation).1 ∧
      (stream.perform operation).2.pending = (performOn stream.pending operation).2 := by
  cases operation with
  | next => exact ⟨congrArg _ stream.next_eq_headD, stream.next_tail_pending⟩
  | next? => exact ⟨congrArg _ stream.next?_eq_head?, stream.next?_tail_pending⟩
  | putBack token => exact ⟨rfl, pending_putBack token stream⟩
  | hasNext =>
      refine ⟨congrArg Answer.more ?_, rfl⟩
      rw [Bool.eq_iff_iff, hasNext_iff_pending]
      simp

theorem run_refines (stream : TokenStream) (operations : List Operation) :
    (stream.run operations).1 = (runOn stream.pending operations).1 ∧
      (stream.run operations).2.pending = (runOn stream.pending operations).2 := by
  induction operations generalizing stream with
  | nil => exact ⟨rfl, rfl⟩
  | cons operation operations ih =>
      obtain ⟨answer, behind⟩ := stream.perform_refines operation
      obtain ⟨answers, last⟩ := ih (stream.perform operation).2
      rw [behind] at answers last
      exact ⟨by simp only [run, runOn, answer, answers], last⟩

/-! ## No false end

The rest of a trimmed statement never ends in a separator, so there is a lexeme wherever there is
anything left to read. -/

theorem endsVisible_next {stream : TokenStream} (visible : EndsVisible stream.cursor.rest) :
    EndsVisible stream.next.2.cursor.rest := by
  obtain ⟨pushed, position, rest⟩ := stream
  cases pushed with
  | cons token pushed => exact visible
  | nil =>
      by_cases ended : rest = []
      · subst rest
        exact visible
      · obtain ⟨gap, lexeme, behind, separators, fits, rfl⟩ := visible.exists_fits ended
        rw [next_of_fits separators fits]
        exact EndsVisible.of_append (EndsVisible.of_append visible)

theorem endsVisible_perform {stream : TokenStream} (visible : EndsVisible stream.cursor.rest)
    (operation : Operation) : EndsVisible (stream.perform operation).2.cursor.rest := by
  cases operation with
  | next => exact endsVisible_next visible
  | next? =>
      cases more : stream.hasNext with
      | false => simpa [perform, next?, more] using visible
      | true => simpa [perform, next?, more] using endsVisible_next visible
  | putBack token => exact visible
  | hasNext => exact visible

theorem endsVisible_run {stream : TokenStream} (visible : EndsVisible stream.cursor.rest)
    (operations : List Operation) : EndsVisible (stream.run operations).2.cursor.rest := by
  induction operations generalizing stream with
  | nil => exact visible
  | cons operation operations ih => exact ih (endsVisible_perform visible operation)

theorem endsVisible_ofStatement (statement : String) :
    EndsVisible (ofStatement statement).cursor.rest :=
  (trimmed_trimSeparators statement.toList).endsVisible

theorem next_ne_endOfStatement {stream : TokenStream} (visible : EndsVisible stream.cursor.rest)
    (more : stream.hasNext = true) : stream.next.1 ≠ .error .endOfStatement := by
  intro same
  obtain ⟨pushed, position, rest⟩ := stream
  cases pushed with
  | cons token pushed => cases same
  | nil =>
      have unread : rest ≠ [] := by simpa [hasNext] using more
      obtain ⟨gap, lexeme, behind, separators, fits, rfl⟩ := visible.exists_fits unread
      rw [next_of_fits separators fits] at same
      cases meaning : lexeme.toToken with
      | ok token =>
          rw [meaning] at same
          cases same
      | error fragment =>
          rw [meaning] at same
          cases same

theorem endOfStatement_not_mem_pending {stream : TokenStream}
    (visible : EndsVisible stream.cursor.rest) : .error .endOfStatement ∉ stream.pending := by
  -- By recursion on the number of readings left; the rest of the statement stays trimmed.
  cases more : stream.hasNext with
  | false => simp [pending_of_end more]
  | true =>
      have shorter := size_next_lt more
      rw [pending_of_hasNext more, List.mem_cons, not_or]
      exact ⟨(next_ne_endOfStatement visible more).symm,
        endOfStatement_not_mem_pending (endsVisible_next visible)⟩
termination_by stream.size

/-! ## Reading everything

Reading to the end, with or without resolving calls, takes the pending items one after the other. -/

theorem collect_eq_tokensOf (stream : TokenStream) :
    stream.collect.1 = tokensOf stream.pending := by
  cases more : stream.hasNext with
  | false => rw [collect_of_end more, pending_of_end more, tokensOf]
  | true =>
      have shorter := size_next_lt more
      rw [pending_of_hasNext more]
      cases item : stream.next.1 with
      | error fault => rw [collect_of_error more item, tokensOf]
      | ok token =>
          rw [collect_of_ok more item, tokensOf, ← collect_eq_tokensOf stream.next.2]
termination_by stream.size

/-- A fault of collecting tokens is one of the pending items. -/
theorem mem_pending_of_collect {stream : TokenStream} {fault : ScanError}
    (fails : stream.collect.1 = .error fault) : .error fault ∈ stream.pending := by
  rw [collect_eq_tokensOf] at fails
  exact mem_of_tokensOf_error fails

/-- Looking ahead takes nothing from the pending items. -/
theorem pending_callee {catalog : Catalog} {token : Token} {stream : TokenStream}
    {procedure : Option Procedure} (looked : (stream.callee catalog token).1 = .ok procedure) :
    (stream.callee catalog token).2.pending = stream.pending := by
  unfold callee at looked ⊢
  split
  · rename_i looks
    rw [if_pos looks] at looked
    cases item : stream.next.1 with
    | error fault => simp [item] at looked
    | ok follower => simp only [item, pending_putBack, pending_of_hasNext looks.2]
  · rfl

theorem tokensOf_of_callee_error {catalog : Catalog} {token : Token} {stream : TokenStream}
    {fault : ScanError} (fails : (stream.callee catalog token).1 = .error fault) :
    tokensOf stream.pending = .error fault := by
  unfold callee at fails
  split at fails
  · rename_i looks
    rw [pending_of_hasNext looks.2]
    cases item : stream.next.1 with
    | error found =>
        obtain rfl : found = fault := by simpa [item] using fails
        rw [tokensOf]
    | ok follower => simp [item] at fails
  · cases fails

/-- A fault of resolving calls is one of the pending items. -/
theorem mem_pending_of_resolveOnto {catalog : Catalog} {read : List ResolvedToken}
    {stream : TokenStream} {fault : ScanError}
    (fails : stream.resolveOnto catalog read = .error fault) :
    .error fault ∈ stream.pending := by
  fun_induction resolveOnto catalog read stream with
  | case1 read stream more step found item =>
      rw [pending_of_hasNext more, ← Except.error.inj fails, ← item]
      exact List.mem_cons_self
  | case2 read stream more step token item look found callee =>
      rw [pending_of_hasNext more, ← Except.error.inj fails]
      exact List.mem_cons_of_mem _ (mem_of_tokensOf_error (tokensOf_of_callee_error callee))
  | case3 read stream more step token item look procedure callee ih =>
      -- The token that was looked at is pending again, so no item gets lost in between.
      rw [pending_of_hasNext more]
      apply List.mem_cons_of_mem
      rw [← pending_callee callee]
      exact ih fails
  | case4 read stream ended => cases fails

/-- A stream serves the stack of its pending items, in every state that any operations lead to. In
particular the end of the statement is reported when nothing is pending and at no other time, and
a token that is put back leaves what the statement still holds as it is. -/
theorem run_serves_pending (statement : String) (operations : List Operation) :
    let stream := ((ofStatement statement).run operations).2
    (stream.hasNext = true ↔ stream.pending ≠ []) ∧
    (∀ item items, stream.pending = item :: items →
      stream.next.1 = item ∧ stream.next.2.pending = items ∧
      stream.next? = (some item, stream.next.2)) ∧
    (stream.pending = [] →
      stream.next.1 = .error .endOfStatement ∧ stream.next.2.pending = [] ∧
      stream.next? = (none, stream)) ∧
    (stream.next.1 = .error .endOfStatement ↔ stream.pending = []) ∧
    (∀ token, (stream.putBack token).pending = .ok token :: stream.pending ∧
      (stream.putBack token).sourceItems = stream.sourceItems ∧
      (stream.putBack token).cursor = stream.cursor) ∧
    stream.next?.1 ≠ some (.error .endOfStatement) ∧
    tokens statement ≠ .error .endOfStatement ∧
    (∀ catalog, resolve catalog statement ≠ .error .endOfStatement) ∧
    (∀ further, (stream.run further).1 = (runOn stream.pending further).1 ∧
      (stream.run further).2.pending = (runOn stream.pending further).2) := by
  intro stream
  have start := endsVisible_ofStatement statement
  have noEnd := endOfStatement_not_mem_pending (endsVisible_run start operations)
  have startNoEnd := endOfStatement_not_mem_pending start
  refine ⟨hasNext_iff_pending, ?_, ?_, ?_, ?_, ?_, ?_, ?_, stream.run_refines⟩
  · intro item items pending_eq
    have more : stream.hasNext = true := hasNext_iff_pending.mpr (by simp [pending_eq])
    rw [pending_of_hasNext more, List.cons.injEq] at pending_eq
    obtain ⟨rfl, rfl⟩ := pending_eq
    exact ⟨rfl, rfl, by simp [next?, more]⟩
  · intro empty
    have ended : stream.hasNext = false := by
      rw [← Bool.not_eq_true, hasNext_iff_pending, empty]
      exact fun unequal => unequal rfl
    obtain ⟨fault, still⟩ := next_of_end ended
    exact ⟨fault, pending_of_end still, by simp [next?, ended]⟩
  · rw [next_eq_headD]
    cases pending_eq : stream.pending with
    | nil => simp
    | cons item items =>
        simp only [List.headD_cons, reduceCtorEq, iff_false]
        rintro rfl
        exact noEnd (pending_eq ▸ List.mem_cons_self)
  · exact fun token => ⟨rfl, rfl, rfl⟩
  · rw [next?_eq_head?]
    exact fun head => noEnd (List.mem_of_head? head)
  · exact fun fails => startNoEnd (mem_pending_of_collect fails)
  · exact fun catalog fails => startNoEnd (mem_pending_of_resolveOnto fails)

end TokenStream

end SqlMemo.Sql

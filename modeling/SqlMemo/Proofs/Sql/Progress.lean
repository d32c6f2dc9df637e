import SqlMemo.Proofs.Sql.Recovery
import SqlMemo.Proofs.Sql.Stepping

/-!
# Progress

No loop over a statement goes on for more rounds than there are tokens put back and characters
unread, and one more to see that nothing is left.
-/

set_option autoImplicit false

namespace SqlMemo.Sql

/-! ## Loops -/

section

variable {State Result : Type}

/-- Goes from state to state up to a result, if that takes no more than a number of rounds. -/
def within? (round : State → State ⊕ Result) : (rounds : Nat) → State → Option Result
  | 0, _ => none
  | rounds + 1, state =>
    match round state with
    | .inl next => within? round rounds next
    | .inr result => some result

/-- Every round makes the state smaller and keeps the result to come, or comes to that result. -/
def Decreases (round : State → State ⊕ Result) (size : State → Nat)
    (result : State → Result) : Prop :=
  ∀ state, match round state with
    | .inl next => size next < size state ∧ result next = result state
    | .inr found => found = result state

theorem Decreases.within?_eq_some {round : State → State ⊕ Result} {size : State → Nat}
    {result : State → Result} (decreases : Decreases round size result) {rounds : Nat}
    {state : State} (enough : size state < rounds) :
    within? round rounds state = some (result state) := by
  induction rounds generalizing state with
  | zero => exact absurd enough (Nat.not_lt_zero _)
  | succ rounds ih =>
      have one := decreases state
      rw [within?]
      cases step : round state with
      | inl next =>
          rw [step] at one
          exact (ih (Nat.lt_of_lt_of_le one.1 (Nat.le_of_lt_succ enough))).trans
            (congrArg some one.2)
      | inr found =>
          rw [step] at one
          exact congrArg some one

end

namespace TokenStream

def collectRound (state : List Token × TokenStream) :
    (List Token × TokenStream) ⊕ Except ScanError (List Token) :=
  if state.2.hasNext then
    match state.2.next.1 with
    | .ok token => .inl (token :: state.1, state.2.next.2)
    | .error fault => .inr (.error fault)
  else .inr (.ok state.1.reverse)

def drainRound (state : List Item × TokenStream) :
    (List Item × TokenStream) ⊕ (List Item × TokenStream) :=
  if state.2.hasNext then .inl (state.2.next.1 :: state.1, state.2.next.2)
  else .inr (state.1.reverse, state.2)

def resolveRound (catalog : Catalog) (state : List ResolvedToken × TokenStream) :
    (List ResolvedToken × TokenStream) ⊕ Except ScanError (List ResolvedToken) :=
  if state.2.hasNext then
    match state.2.next.1 with
    | .error fault => .inr (.error fault)
    | .ok token =>
      match (state.2.next.2.callee catalog token).1 with
      | .error fault => .inr (.error fault)
      | .ok procedure =>
        .inl (⟨token, procedure⟩ :: state.1, (state.2.next.2.callee catalog token).2)
  else .inr (.ok state.1.reverse)

theorem decreases_collectRound :
    Decreases collectRound (·.2.size) fun state => (state.2.collectOnto state.1).1 := by
  rintro ⟨read, stream⟩
  dsimp only
  rw [collectOnto.eq_def read stream]
  cases more : stream.hasNext with
  | false => simp [collectRound, more]
  | true =>
      cases item : stream.next.1 with
      | ok token => simpa [collectRound, more, item] using size_next_lt more
      | error fault => simp [collectRound, more, item]

theorem decreases_drainRound :
    Decreases drainRound (·.2.size) fun state => state.2.drainOnto state.1 := by
  rintro ⟨read, stream⟩
  dsimp only
  rw [drainOnto.eq_def read stream]
  cases more : stream.hasNext with
  | false => simp [drainRound, more]
  | true => simpa [drainRound, more] using size_next_lt more

theorem decreases_resolveRound (catalog : Catalog) :
    Decreases (resolveRound catalog) (·.2.size) fun state =>
      state.2.resolveOnto catalog state.1 := by
  rintro ⟨read, stream⟩
  dsimp only
  rw [resolveOnto.eq_def catalog read stream]
  cases more : stream.hasNext with
  | false => simp [resolveRound, more]
  | true =>
      cases item : stream.next.1 with
      | error fault => simp [resolveRound, more, item]
      | ok token =>
          cases called : (stream.next.2.callee catalog token).1 with
          | error fault => simp [resolveRound, more, item, called]
          | ok procedure =>
              have shorter := Nat.lt_of_le_of_lt (size_callee_le catalog token stream.next.2)
                (size_next_lt more)
              simpa [resolveRound, more, item, called] using shorter

/-! ## Bounds -/

theorem length_drain_le (stream : TokenStream) : stream.drain.1.length ≤ stream.size := by
  cases more : stream.hasNext with
  | false => simp [drain_of_end more]
  | true =>
      have shorter := size_next_lt more
      have rest := length_drain_le stream.next.2
      rw [drain_of_hasNext more, List.length_cons]
      omega
termination_by stream.size

/-- In every state that any operations lead to, a reader that goes step by step is where the stream
is, with none of its steps back refused and its places in order. The next reading of the text takes
it further on. So every loop over the rest of the stream, or over a statement from its beginning,
is over after as many rounds as tokens were put back and characters are unread, and one more. -/
theorem run_makes_progress (statement : String) (operations : List Operation) :
    let text := trimSeparators statement.toList
    let stream := ((ofStatement statement).run operations).2
    let left := stream.pushed.length + (text.length - stream.cursor.position)
    (∃ reader, (Reader.ofStatement statement).run? operations =
        some (((ofStatement statement).run operations).1, reader) ∧
      reader.text = text ∧ reader.pushed = stream.pushed ∧
      reader.current = stream.cursor.position ∧ text.drop reader.current = stream.cursor.rest ∧
      reader.start ≤ reader.current ∧ reader.current ≤ text.length ∧
      ∃ behind, reader.next? = some (stream.next.1, behind) ∧
        behind.current = stream.next.2.cursor.position ∧ behind.current ≤ text.length ∧
        (stream.pushed = [] → stream.hasNext = true →
          reader.current ≤ behind.start ∧ behind.start < behind.current)) ∧
    stream.drain.1.length ≤ left ∧ stream.drain.2.hasNext = false ∧
    within? drainRound (left + 1) ([], stream) = some stream.drain ∧
    within? collectRound (text.length + 1) ([], ofStatement statement) =
      some (tokens statement) ∧
    ∀ catalog, within? (resolveRound catalog) (text.length + 1) ([], ofStatement statement) =
      some (resolve catalog statement) := by
  intro text stream left
  obtain ⟨reader, run, text_eq, stands⟩ :=
    (Reader.StandsAt.ofStatement statement).run? operations
  obtain ⟨behind, next, text_eq', stands', further⟩ := stands.next?
  have unread : stream.cursor.rest.length = text.length - stream.cursor.position := by
    rw [← stands.rest, List.length_drop, stands.position, text_eq]
    rfl
  have size : stream.size = left := by rw [TokenStream.size, unread]
  have start : (ofStatement statement).size < text.length + 1 := by
    rw [TokenStream.size, ofStatement, List.length_nil, Nat.zero_add]
    exact Nat.lt_succ_self _
  have current_le := stands.current_le
  have current_le' := stands'.current_le
  have rest := stands.rest
  rw [text_eq] at current_le rest
  rw [text_eq', text_eq] at current_le'
  refine ⟨⟨reader, run, text_eq, stands.pushed, stands.position, rest, stands.start_le, current_le,
    behind, next, stands'.position, current_le', further⟩, ?_, hasNext_drain stream, ?_, ?_, ?_⟩
  · rw [← size]
    exact length_drain_le stream
  · rw [← size]
    exact decreases_drainRound.within?_eq_some (Nat.lt_succ_self _)
  · exact decreases_collectRound.within?_eq_some start
  · exact fun catalog => (decreases_resolveRound catalog).within?_eq_some start

end TokenStream

end SqlMemo.Sql

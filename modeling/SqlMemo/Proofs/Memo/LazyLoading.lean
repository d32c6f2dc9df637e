import SqlMemo.Proofs.Memo.Replies

/-!
# Memos as lazily loaded values

What a memo does at a request follows from what happened before: whether its value was obtained,
to which length it was cut, and whether the memo was released. The calls of its source are part of
what happens, and a memo calls its source only as long as it has no value and needs one.
-/

set_option autoImplicit false

namespace SqlMemo

structure SourceCall where
  address : UInt32
  length : UInt32
  answer : Except Error Bytes

def SourceCall.value? (call : SourceCall) : Option Bytes :=
  call.answer.toOption

theorem SourceCall.fails_of_value?_eq_none {call : SourceCall} (missing : call.value? = none) :
    ∃ cause, call.answer = .error cause := by
  obtain ⟨address, length, answer⟩ := call
  cases answer with
  | ok value => cases missing
  | error cause => exact ⟨cause, rfl⟩

/-- A source that writes its calls down. -/
structure RecordedSource (σ : Type) where
  source : σ
  calls : List SourceCall

namespace RecordedSource

variable {σ : Type} [ByteSource σ]

def ofSource (source : σ) : RecordedSource σ :=
  ⟨source, []⟩

instance : ByteSource (RecordedSource σ) where
  read recorded address length :=
    let step := ByteSource.read recorded.source address length
    (step.1, ⟨step.2, recorded.calls ++ [⟨address, length, step.1⟩]⟩)

theorem read_ofSource {source source' : σ} {address length : UInt32} {answer : Except Error Bytes}
    (reads : ByteSource.read source address length = (answer, source')) :
    ByteSource.read (ofSource source) address length =
      (answer, ⟨source', [⟨address, length, answer⟩]⟩) := by
  have opened : ByteSource.read (ofSource source) address length =
      ((ByteSource.read source address length).1, ⟨(ByteSource.read source address length).2,
        [] ++ [⟨address, length, (ByteSource.read source address length).1⟩]⟩) := rfl
  rw [opened, reads]
  rfl

end RecordedSource

namespace Memo

/-- A request with the calls of the source that it led to and its reply. -/
structure Exchange where
  request : Request
  calls : List SourceCall
  reply : Except Error Reply

/-- The length to which an exchange cut the value. -/
def Exchange.cut? (exchange : Exchange) : Option Nat :=
  match exchange.request, exchange.reply with
  | .truncate count, .ok _ => some count.toNat
  | _, _ => none

/-! ## What the past tells -/

/-- The value that was obtained: that of the field itself, or the first one that the source gave. -/
def obtained (pointer : MemoPointer) (past : List Exchange) : Option Bytes :=
  if pointer.address = 0 then some ((pointer.leader.getD []).take pointer.length.toNat)
  else (past.flatMap Exchange.calls).findSome? SourceCall.value?

def lastCut (past : List Exchange) : Option Nat :=
  past.reverse.findSome? Exchange.cut?

def cutTo (value : Bytes) : Option Nat → Bytes
  | some length => value.take length
  | none => value

def current (pointer : MemoPointer) (past : List Exchange) : Option Bytes :=
  (obtained pointer past).map fun value => cutTo value (lastCut past)

def Released (past : List Exchange) : Prop :=
  ∃ exchange ∈ past, exchange.request = .release

section

variable {σ : Type} [ByteSource σ]

/-- The exchange that follows from the past, between two states of the source. -/
inductive Follows (pointer : MemoPointer) (past : List Exchange) :
    Option σ → Exchange → Option σ → Prop where
  | release {source : Option σ} :
      Follows pointer past source ⟨.release, [], .ok .done⟩ source
  | nothing {source : Option σ} (position : UInt64) :
      Follows pointer past source ⟨.range position 0, [], .error (.invalidLength 0)⟩ source
  | released {source : Option σ} {request : Request} :
      request.NeedsValue → Released past →
      Follows pointer past source ⟨request, [], .error .invalidPointer⟩ source
  | known {source : Option σ} {request : Request} {value : Bytes} :
      request.NeedsValue → ¬ Released past → current pointer past = some value →
      Follows pointer past source ⟨request, [], request.replyOn value⟩ source
  | sourceless {request : Request} :
      request.NeedsValue → ¬ Released past → current pointer past = none →
      Follows pointer past none ⟨request, [], .error .invalidPointer⟩ none
  | failed {source source' : σ} {request : Request} {cause : Error} :
      request.NeedsValue → ¬ Released past → current pointer past = none →
      ByteSource.read source pointer.address pointer.length = (.error cause, source') →
      Follows pointer past (some source) ⟨request,
        [⟨pointer.address, pointer.length, .error cause⟩], .error (.unreadable cause)⟩
        (some source')
  | loaded {source source' : σ} {request : Request} {value : Bytes} :
      request.NeedsValue → ¬ Released past → current pointer past = none →
      ByteSource.read source pointer.address pointer.length = (.ok value, source') →
      Follows pointer past (some source) ⟨request,
        [⟨pointer.address, pointer.length, .ok value⟩], request.replyOn value⟩ (some source')

/-! ## Conversations -/

/-- The exchange at a request, whose record of calls is empty before, the memo and the source. -/
def exchange (memo : Memo) (source : Option σ) (request : Request) :
    Exchange × Memo × Option σ :=
  let (reply, memo, source) := memo.perform (source.map .ofSource) request
  (⟨request, (source.map RecordedSource.calls).getD [], reply⟩, memo,
    source.map RecordedSource.source)

def converse (memo : Memo) (source : Option σ) : List Request → List Exchange × Memo × Option σ
  | [] => ([], memo, source)
  | request :: requests =>
    let first := memo.exchange source request
    let rest := first.2.1.converse first.2.2 requests
    (first.1 :: rest.1, rest.2)

def run (memo : Memo) (source : Option σ) :
    List Request → List (Except Error Reply) × Memo × Option σ
  | [] => ([], memo, source)
  | request :: requests =>
    let first := memo.perform source request
    let rest := first.2.1.run first.2.2 requests
    (first.1 :: rest.1, rest.2)

end

/-! ## The past one exchange later -/

section

variable (pointer : MemoPointer) (past : List Exchange) (next : Exchange)

theorem obtained_concat : obtained pointer (past ++ [next]) =
    (obtained pointer past).or (next.calls.findSome? SourceCall.value?) := by
  unfold obtained
  split
  · rfl
  · rw [List.flatMap_append, List.findSome?_append, List.flatMap_singleton]

theorem lastCut_concat : lastCut (past ++ [next]) = next.cut?.or (lastCut past) := by
  rw [lastCut, List.reverse_append, List.reverse_singleton, List.singleton_append,
    List.findSome?_cons]
  cases next.cut? <;> rfl

theorem released_concat :
    Released (past ++ [next]) ↔ Released past ∨ next.request = .release := by
  constructor
  · rintro ⟨exchange, member, release⟩
    rcases List.mem_append.mp member with earlier | last
    · exact .inl ⟨exchange, earlier, release⟩
    · obtain rfl := List.mem_singleton.mp last
      exact .inr release
  · rintro (⟨exchange, earlier, release⟩ | release)
    · exact ⟨exchange, List.mem_append_left _ earlier, release⟩
    · exact ⟨next, List.mem_append_right _ (List.mem_singleton.mpr rfl), release⟩

end

theorem cut?_of_error {next : Exchange} {error : Error} (fails : next.reply = .error error) :
    next.cut? = none := by
  unfold Exchange.cut?
  rw [fails]
  cases next.request <;> rfl

theorem cut?_cases {next : Exchange} {value : Bytes}
    (reply : next.reply = next.request.replyOn value) :
    (∃ length, next.cut? = some length ∧ length ≤ value.length ∧
      next.request.leaves value = value.take length) ∨
    (next.cut? = none ∧ next.request.leaves value = value) := by
  obtain ⟨request, calls, reply'⟩ := next
  obtain rfl : reply' = request.replyOn value := reply
  cases request with
  | truncate count =>
      by_cases short : count.toNat ≤ value.length
      · refine .inl ⟨count.toNat, ?_, short, ?_⟩
        · simp only [Exchange.cut?, Request.replyOn, if_pos short]
        · simp only [Request.leaves, if_pos short]
      · refine .inr ⟨?_, ?_⟩
        · simp only [Exchange.cut?, Request.replyOn, if_neg short]
        · simp only [Request.leaves, if_neg short]
  | _ => exact .inr ⟨rfl, rfl⟩

theorem length_cutTo_le (value : Bytes) (cut : Option Nat) :
    (cutTo value cut).length ≤ value.length := by
  cases cut with
  | none => exact Nat.le_refl _
  | some length => exact List.length_take_le' length value

/-- A further cut is no longer than the value that is left, so it is one of the whole value. -/
theorem cutTo_or {whole value : Bytes} {cut : Option Nat} {next : Exchange}
    (left : cutTo whole cut = value) (reply : next.reply = next.request.replyOn value) :
    cutTo whole (next.cut?.or cut) = next.request.leaves value := by
  rcases cut?_cases reply with ⟨length, further, short, leaves⟩ | ⟨uncut, leaves⟩
  · rw [further, leaves, Option.some_or, ← left]
    rw [← left] at short
    cases cut with
    | none => rfl
    | some earlier =>
        have shorter : length ≤ earlier :=
          Nat.le_trans short (List.length_take_le earlier whole)
        simp only [cutTo, List.take_take, Nat.min_eq_left shorter]
  · rw [uncut, leaves, Option.none_or, left]

/-- The memo that a past leads to. -/
structure Tells (pointer : MemoPointer) (past : List Exchange) (memo : Memo) : Prop where
  released : Released past → memo = .released
  known : ∀ value, ¬ Released past → current pointer past = some value → memo = .loaded value
  unknown : ¬ Released past → current pointer past = none →
    memo = .stored pointer.address pointer.length
  cut : ∀ length, lastCut past = some length →
    ∃ value, obtained pointer past = some value ∧ length ≤ value.length

namespace Tells

variable {pointer : MemoPointer} {past : List Exchange} {memo : Memo}

theorem ofPointer (pointer : MemoPointer) : Tells pointer [] (ofPointer pointer) where
  released := by
    rintro ⟨exchange, member, -⟩
    cases member
  known := by
    intro value _ known
    unfold current obtained at known
    unfold Memo.ofPointer
    split at known
    · obtain rfl := Option.some.inj known
      rename_i inField
      rw [if_pos inField]
      rfl
    · cases known
  unknown := by
    intro _ unknown
    unfold current obtained at unknown
    unfold Memo.ofPointer
    split at unknown
    · cases unknown
    · rename_i inFile
      rw [if_neg inFile]
  cut := by
    intro length cut
    cases cut

theorem uncut (tells : Tells pointer past memo) (unknown : current pointer past = none) :
    obtained pointer past = none ∧ lastCut past = none := by
  have missing : obtained pointer past = none := by simpa [current] using unknown
  refine ⟨missing, ?_⟩
  cases last : lastCut past with
  | none => rfl
  | some length =>
      obtain ⟨value, found, -⟩ := tells.cut length last
      rw [missing] at found
      cases found

theorem cut_concat (tells : Tells pointer past memo) (next : Exchange) {length : Nat}
    (cut : lastCut past = some length) :
    ∃ value, obtained pointer (past ++ [next]) = some value ∧ length ≤ value.length := by
  obtain ⟨value, found, short⟩ := tells.cut length cut
  refine ⟨value, ?_, short⟩
  rw [obtained_concat, found, Option.some_or]

theorem unchanged (tells : Tells pointer past memo) {next : Exchange}
    (kept : next.request ≠ .release) (unread : next.calls.findSome? SourceCall.value? = none)
    (uncut : next.cut? = none) : Tells pointer (past ++ [next]) memo := by
  have sameValue : obtained pointer (past ++ [next]) = obtained pointer past := by
    rw [obtained_concat, unread, Option.or_none]
  have sameCut : lastCut (past ++ [next]) = lastCut past := by
    rw [lastCut_concat, uncut, Option.none_or]
  have sameRelease : Released (past ++ [next]) ↔ Released past := by
    rw [released_concat]
    exact or_iff_left kept
  refine ⟨?_, ?_, ?_, ?_⟩
  · rw [sameRelease]
    exact tells.released
  · rw [sameRelease, current, sameValue, sameCut]
    exact tells.known
  · rw [sameRelease, current, sameValue, sameCut]
    exact tells.unknown
  · rw [sameValue, sameCut]
    exact tells.cut

theorem answered (tells : Tells pointer past memo) (inUse : ¬ Released past) {next : Exchange}
    {whole value : Bytes} (kept : next.request ≠ .release)
    (found : obtained pointer (past ++ [next]) = some whole)
    (left : cutTo whole (lastCut past) = value)
    (reply : next.reply = next.request.replyOn value) :
    Tells pointer (past ++ [next]) (.loaded (next.request.leaves value)) := by
  have stillInUse : ¬ Released (past ++ [next]) := by
    rw [released_concat]
    exact not_or.mpr ⟨inUse, kept⟩
  have now : current pointer (past ++ [next]) = some (next.request.leaves value) := by
    rw [current, found, lastCut_concat, Option.map_some, cutTo_or left reply]
  refine ⟨fun released => absurd released stillInUse, ?_, ?_, ?_⟩
  · intro value' _ known
    rw [now] at known
    rw [Option.some.inj known]
  · intro _ unknown
    rw [now] at unknown
    cases unknown
  · intro length cut
    rw [lastCut_concat] at cut
    rcases cut?_cases reply with ⟨further, cutNow, short, -⟩ | ⟨uncut, -⟩
    · rw [cutNow, Option.some_or] at cut
      obtain rfl := Option.some.inj cut
      refine ⟨whole, found, Nat.le_trans short ?_⟩
      rw [← left]
      exact length_cutTo_le whole _
    · rw [uncut, Option.none_or] at cut
      exact tells.cut_concat next cut

theorem release (tells : Tells pointer past memo) {next : Exchange}
    (release : next.request = .release) : Tells pointer (past ++ [next]) .released := by
  have released : Released (past ++ [next]) := (released_concat past next).mpr (.inr release)
  refine ⟨fun _ => rfl, ?_, ?_, ?_⟩
  · intro value inUse
    exact absurd released inUse
  · intro inUse
    exact absurd released inUse
  · intro length cut
    have uncut : next.cut? = none := by simp only [Exchange.cut?, release]
    rw [lastCut_concat, uncut, Option.none_or] at cut
    exact tells.cut_concat next cut

end Tells

/-! ## One exchange -/

section

variable {σ : Type} [ByteSource σ] {pointer : MemoPointer} {past : List Exchange} {memo : Memo}

private theorem load_recorded (memo : Memo) (source : Option σ) :
    memo.load source =
      ((memo.load (source.map RecordedSource.ofSource)).1,
        (memo.load (source.map RecordedSource.ofSource)).2.1,
        (memo.load (source.map RecordedSource.ofSource)).2.2.map RecordedSource.source) := by
  cases source with
  | none => cases memo <;> rfl
  | some source =>
      cases memo with
      | loaded value => rfl
      | released => rfl
      | stored address length =>
          cases reads : ByteSource.read source address length with
          | mk answer source' =>
              have recorded := RecordedSource.read_ofSource reads
              cases answer with
              | error cause =>
                  rw [load_stored_of_error reads, Option.map_some, load_stored_of_error recorded]
                  rfl
              | ok value =>
                  rw [load_stored_of_ok reads, Option.map_some, load_stored_of_ok recorded]
                  rfl

/-- Recording the calls of a source changes nothing else. -/
theorem perform_eq_exchange (memo : Memo) (source : Option σ) (request : Request) :
    memo.perform source request =
      ((memo.exchange source request).1.reply, (memo.exchange source request).2) := by
  unfold exchange
  by_cases needs : request.NeedsValue
  · rw [perform_of_needsValue needs, perform_of_needsValue needs, load_recorded]
    generalize memo.load (source.map RecordedSource.ofSource) = recorded
    obtain ⟨result, state⟩ := recorded
    cases result with
    | error error => rfl
    | ok value =>
        cases answered : answer value request with
        | error error => simp only [answered]
        | ok reply => simp only [answered]
  · by_cases release : request = .release
    · subst request
      cases source <;> rfl
    · rw [perform_of_not_needsValue needs release, perform_of_not_needsValue needs release]
      cases source <;> rfl

private theorem exchange_of_perform {memo memo' : Memo} {source : Option σ} {request : Request}
    {reply : Except Error Reply} {recorded : Option (RecordedSource σ)}
    (performed : memo.perform (source.map RecordedSource.ofSource) request =
      (reply, memo', recorded)) :
    memo.exchange source request = (⟨request, (recorded.map RecordedSource.calls).getD [], reply⟩,
      memo', recorded.map RecordedSource.source) := by
  simp only [exchange, performed]

private theorem exchange_unread {memo memo' : Memo} {source : Option σ} {request : Request}
    {reply : Except Error Reply}
    (performed : memo.perform (source.map RecordedSource.ofSource) request =
      (reply, memo', source.map RecordedSource.ofSource)) :
    memo.exchange source request = (⟨request, [], reply⟩, memo', source) := by
  rw [exchange_of_perform performed]
  cases source <;> rfl

private theorem follows_unneeded (tells : Tells pointer past memo) (source : Option σ)
    {request : Request} (unneeded : ¬ request.NeedsValue) :
    Follows pointer past source (memo.exchange source request).1
        (memo.exchange source request).2.2 ∧
      Tells pointer (past ++ [(memo.exchange source request).1])
        (memo.exchange source request).2.1 := by
  cases request with
  | release =>
      rw [exchange_unread (perform_release memo _)]
      exact ⟨.release, tells.release rfl⟩
  | range position count =>
      obtain rfl : count = 0 := by simpa [Request.NeedsValue] using unneeded
      have kept : Request.range position 0 ≠ .release := by simp
      rw [exchange_unread (perform_of_not_needsValue unneeded kept memo _)]
      exact ⟨.nothing position, tells.unchanged kept rfl (cut?_of_error rfl)⟩
  | length | bytes | text | contents | truncate => exact absurd trivial unneeded

private theorem follows_unknown (tells : Tells pointer past memo) (source : Option σ)
    {request : Request} (needs : request.NeedsValue) (inUse : ¬ Released past)
    (unknown : current pointer past = none) :
    Follows pointer past source (memo.exchange source request).1
        (memo.exchange source request).2.2 ∧
      Tells pointer (past ++ [(memo.exchange source request).1])
        (memo.exchange source request).2.1 := by
  have kept : request ≠ .release := by
    rintro rfl
    exact needs
  obtain rfl := tells.unknown inUse unknown
  obtain ⟨missing, uncut⟩ := tells.uncut unknown
  cases source with
  | none =>
      rw [exchange_unread (perform_of_load_error needs (load_stored_of_none _ _))]
      exact ⟨.sourceless needs inUse unknown, tells.unchanged kept rfl (cut?_of_error rfl)⟩
  | some source =>
      cases reads : ByteSource.read source pointer.address pointer.length with
      | mk answer source' =>
          have recorded := RecordedSource.read_ofSource reads
          cases answer with
          | error cause =>
              rw [exchange_of_perform (perform_of_load_error needs (load_stored_of_error recorded))]
              exact ⟨.failed needs inUse unknown reads, tells.unchanged kept rfl (cut?_of_error rfl)⟩
          | ok value =>
              rw [exchange_of_perform (perform_of_load_ok needs (load_stored_of_ok recorded))]
              refine ⟨.loaded needs inUse unknown reads, ?_⟩
              have left : cutTo value (lastCut past) = value := by rw [uncut, cutTo]
              refine tells.answered inUse kept ?_ left rfl
              rw [obtained_concat, missing]
              rfl

/-- Every exchange follows from the past, and leads to the memo that the longer past tells of. -/
theorem follows_exchange (tells : Tells pointer past memo) (source : Option σ)
    (request : Request) :
    Follows pointer past source (memo.exchange source request).1
        (memo.exchange source request).2.2 ∧
      Tells pointer (past ++ [(memo.exchange source request).1])
        (memo.exchange source request).2.1 := by
  by_cases needs : request.NeedsValue
  · have kept : request ≠ .release := by
      rintro rfl
      exact needs
    by_cases released : Released past
    · obtain rfl := tells.released released
      rw [exchange_unread (perform_of_load_error needs (load_released _))]
      exact ⟨.released needs released, tells.unchanged kept rfl (cut?_of_error rfl)⟩
    cases known : current pointer past with
    | some value =>
        obtain rfl := tells.known value released known
        obtain ⟨whole, found, left⟩ := Option.map_eq_some_iff.mp known
        rw [exchange_unread (perform_of_load_ok needs (load_loaded value _))]
        refine ⟨.known needs released known, tells.answered released kept ?_ left rfl⟩
        rw [obtained_concat, found, Option.some_or]
    | none => exact follows_unknown tells source needs released known
  · exact follows_unneeded tells source needs

/-! ## Sequences of requests -/

theorem tells_converse (tells : Tells pointer past memo) (source : Option σ)
    (requests : List Request) :
    Tells pointer (past ++ (memo.converse source requests).1)
      (memo.converse source requests).2.1 := by
  induction requests generalizing past memo source with
  | nil =>
      rw [converse, List.append_nil]
      exact tells
  | cons request requests ih =>
      have step := (follows_exchange tells source request).2
      have rest := ih step (memo.exchange source request).2.2
      rw [List.append_assoc, List.singleton_append] at rest
      exact rest

theorem run_eq_converse (memo : Memo) (source : Option σ) (requests : List Request) :
    memo.run source requests =
      ((memo.converse source requests).1.map Exchange.reply, (memo.converse source requests).2) := by
  induction requests generalizing memo source with
  | nil => rfl
  | cons request requests ih =>
      simp only [run, converse, perform_eq_exchange, ih, List.map_cons]

theorem converse_concat (memo : Memo) (source : Option σ) (requests : List Request)
    (request : Request) :
    memo.converse source (requests ++ [request]) =
      let before := memo.converse source requests
      let last := before.2.1.exchange before.2.2 request
      (before.1 ++ [last.1], last.2) := by
  induction requests generalizing memo source with
  | nil => rfl
  | cons first requests ih =>
      rw [List.cons_append, converse, ih]
      rfl

end

/-! ## What follows -/

section

variable {σ : Type} [ByteSource σ] {pointer : MemoPointer} {past : List Exchange}

theorem current_eq_none_iff : current pointer past = none ↔ obtained pointer past = none :=
  Option.map_eq_none_iff

theorem obtained_of_inField (inField : pointer.address = 0) (past : List Exchange) :
    obtained pointer past = some ((pointer.leader.getD []).take pointer.length.toNat) :=
  if_pos inField

/-- As long as there is no value, the memo is one of a blob file, and all calls have failed. -/
theorem calls_fail_of_unknown (unknown : current pointer past = none) :
    pointer.address ≠ 0 ∧
      ∀ call ∈ past.flatMap Exchange.calls, ∃ cause, call.answer = .error cause := by
  rw [current_eq_none_iff] at unknown
  by_cases inField : pointer.address = 0
  · rw [obtained_of_inField inField] at unknown
    cases unknown
  · rw [obtained, if_neg inField, List.findSome?_eq_none_iff] at unknown
    exact ⟨inField, fun call member => SourceCall.fails_of_value?_eq_none (unknown call member)⟩

namespace Follows

variable {source source' : Option σ} {next : Exchange}

/-- The only call there can be is one for the whole value, by a memo that needs it and has none. -/
theorem of_call (follows : Follows pointer past source next source') (called : next.calls ≠ []) :
    next.request.NeedsValue ∧ ¬ Released past ∧ current pointer past = none ∧
      ∃ answer, next.calls = [⟨pointer.address, pointer.length, answer⟩] := by
  cases follows with
  | failed needs inUse unknown _ => exact ⟨needs, inUse, unknown, _, rfl⟩
  | loaded needs inUse unknown _ => exact ⟨needs, inUse, unknown, _, rfl⟩
  | release | nothing | released | known | sourceless => exact absurd rfl called

theorem of_failed_call (follows : Follows pointer past source next source') {call : SourceCall}
    (member : call ∈ next.calls) {cause : Error} (fails : call.answer = .error cause) :
    next.reply = .error (.unreadable cause) ∧ current pointer (past ++ [next]) = none := by
  cases follows with
  | failed needs inUse unknown reads =>
      obtain rfl := List.mem_singleton.mp member
      obtain rfl := Except.error.inj fails
      refine ⟨rfl, ?_⟩
      rw [current_eq_none_iff] at unknown ⊢
      rw [obtained_concat, unknown]
      rfl
  | loaded needs inUse unknown reads =>
      obtain rfl := List.mem_singleton.mp member
      cases fails
  | release | nothing | released | known | sourceless => cases member

/-- The past, the source and the request leave no choice. -/
theorem unique {other : Exchange} {source₁ source₂ : Option σ}
    (follows : Follows pointer past source next source₁)
    (follows' : Follows pointer past source other source₂) (same : other.request = next.request) :
    other = next ∧ source₂ = source₁ := by
  cases follows <;> cases follows' <;> cases same <;> simp_all [Request.NeedsValue]

end Follows

/-- The value is at all times a beginning of the one that was obtained. -/
theorem current_of_obtained {memo : Memo} (tells : Tells pointer past memo) {value : Bytes}
    (found : obtained pointer past = some value) :
    ∃ left, current pointer past = some left ∧ left <+: value ∧
      (lastCut past = none ∧ left = value ∨
        ∃ length, lastCut past = some length ∧ left.length = length) := by
  cases cut : lastCut past with
  | none =>
      refine ⟨value, ?_, List.prefix_refl value, .inl ⟨rfl, rfl⟩⟩
      rw [current, found, cut]
      rfl
  | some length =>
      obtain ⟨whole, found', short⟩ := tells.cut length cut
      obtain rfl := Option.some.inj (found.symm.trans found')
      refine ⟨value.take length, ?_, List.take_prefix length value, .inr ⟨length, rfl, ?_⟩⟩
      · rw [current, found, cut]
        rfl
      · exact List.length_take_of_le short

/-- What the next request to a memo leads to follows from the exchanges so far, and so do the calls
of the source: a memo of the field makes none, and one of a blob file calls only for its own value,
only when it needs it, and not again once it has it or is released. A failed call is what the reply
reports, and the value is at all times a beginning of the one that was obtained. -/
theorem exchange_after_requests (pointer : MemoPointer) (source : Option σ)
    (requests : List Request) (request : Request) :
    let history := (ofPointer pointer).converse source requests
    let past := history.1
    let last := history.2.1.exchange history.2.2 request
    let next := last.1
    (ofPointer pointer).converse source (requests ++ [request]) = (past ++ [next], last.2) ∧
    (ofPointer pointer).run source (requests ++ [request]) =
      ((past ++ [next]).map Exchange.reply, last.2) ∧
    (next.request = request ∧ ∀ other source', other.request = request →
      (Follows pointer past history.2.2 other source' ↔ other = next ∧ source' = last.2.2)) ∧
    (pointer.address = 0 → next.calls = [] ∧
      obtained pointer past = some ((pointer.leader.getD []).take pointer.length.toNat)) ∧
    (next.calls ≠ [] → pointer.address ≠ 0 ∧ request.NeedsValue ∧ ¬ Released past ∧
      (∀ call ∈ past.flatMap Exchange.calls, ∃ cause, call.answer = .error cause) ∧
      ∃ answer, next.calls = [⟨pointer.address, pointer.length, answer⟩]) ∧
    (∀ call ∈ next.calls, ∀ cause, call.answer = .error cause →
      next.reply = .error (.unreadable cause) ∧ current pointer (past ++ [next]) = none) ∧
    (∀ value, obtained pointer past = some value →
      ∃ left, current pointer past = some left ∧ left <+: value ∧
        (lastCut past = none ∧ left = value ∨
          ∃ length, lastCut past = some length ∧ left.length = length)) := by
  intro history past last next
  have tells : Tells pointer past history.2.1 := tells_converse (.ofPointer pointer) source requests
  have follows : Follows pointer past history.2.2 next last.2.2 :=
    (follows_exchange tells history.2.2 request).1
  have longer : (ofPointer pointer).converse source (requests ++ [request]) =
      (past ++ [next], last.2) := converse_concat _ _ _ _
  refine ⟨longer, ?_, ⟨rfl, ?_⟩, ?_, ?_, ?_, ?_⟩
  · rw [run_eq_converse, longer]
  · intro other source' same
    constructor
    · intro follows'
      exact follows.unique follows' same
    · rintro ⟨rfl, rfl⟩
      exact follows
  · intro inField
    refine ⟨Classical.byContradiction fun called => ?_, obtained_of_inField inField past⟩
    obtain ⟨-, -, unknown, -⟩ := follows.of_call called
    exact (calls_fail_of_unknown unknown).1 inField
  · intro called
    obtain ⟨needs, inUse, unknown, call⟩ := follows.of_call called
    obtain ⟨inFile, failed⟩ := calls_fail_of_unknown unknown
    exact ⟨inFile, needs, inUse, failed, call⟩
  · intro call member cause fails
    exact follows.of_failed_call member fails
  · intro value found
    exact current_of_obtained tells found

end

end Memo

end SqlMemo

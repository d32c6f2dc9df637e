import SqlMemo.Memo

/-!
# Replies of memos

What a memo replies to a request when its value is at hand, and what it does otherwise: it loads the
value, unless the request does not need it, and replies as if the value had been at hand.
-/

set_option autoImplicit false

namespace SqlMemo.Memo

/-- The bytes of a value from a position on, if the position and the bytes are in the value. -/
def part (value : Bytes) (position length : UInt64) : Except Error Bytes :=
  if 1 ≤ position.toNat ∧ position.toNat ≤ value.length then
    if position.toNat + length.toNat ≤ value.length + 1 then
      .ok ((value.drop (position.toNat - 1)).take length.toNat)
    else .error .invalidSubstring
  else .error (.invalidPosition position)

namespace Request

def replyOn (value : Bytes) : Request → Except Error Reply
  | .length => .ok (.length value.length)
  | .bytes position count => (part value position count).map .bytes
  | .text position count =>
    (part value position count).map fun content => .text (Text.Utf8.decodeLenient content)
  | .contents => .ok (.bytes value)
  | .range position count =>
    if count = 0 then .error (.invalidLength 0) else (part value position count).map .bytes
  | .truncate count =>
    if count.toNat ≤ value.length then .ok .done else .error (.invalidLength count)
  | .release => .ok .done

/-- What a request makes of a value. Only a truncation to no more than its length changes it. -/
def leaves (value : Bytes) : Request → Bytes
  | .truncate count => if count.toNat ≤ value.length then value.take count.toNat else value
  | _ => value

/-- A request that cannot be replied to without the value. -/
def NeedsValue : Request → Prop
  | .release => False
  | .range _ count => count ≠ 0
  | _ => True

end Request

theorem slice_eq_part (value : Bytes) (position length : UInt64) :
    slice value position length = part value position length := by
  have zero : position = 0 ↔ position.toNat = 0 := by
    rw [← UInt64.toNat_inj]
    rfl
  unfold slice part
  by_cases inside : 1 ≤ position.toNat ∧ position.toNat ≤ value.length
  · have valid : ¬ (position = 0 ∨ value.length < position.toNat) := by
      rw [zero]
      omega
    rw [if_neg valid, if_pos inside]
    by_cases short : position.toNat + length.toNat ≤ value.length + 1
    · rw [if_pos short, if_neg (by omega)]
      rfl
    · rw [if_neg short, if_pos (by omega)]
  · have invalid : position = 0 ∨ value.length < position.toNat := by
      rw [zero]
      omega
    rw [if_pos invalid, if_neg inside]

theorem answer_eq_replyOn {request : Request} (needs : request.NeedsValue) (value : Bytes) :
    answer value request = (request.replyOn value).map fun reply => (reply, request.leaves value) := by
  cases request with
  | length | contents => rfl
  | release => cases needs
  | bytes position length | text position length =>
      rw [answer, Request.replyOn, slice_eq_part]
      cases part value position length <;> rfl
  | range position length =>
      rw [answer, Request.replyOn, slice_eq_part, if_neg needs]
      cases part value position length <;> rfl
  | truncate length =>
      rw [answer, Request.replyOn, Request.leaves]
      by_cases short : length.toNat ≤ value.length
      · rw [if_pos short, if_pos short, if_neg (by omega)]
        rfl
      · rw [if_neg short, if_neg short, if_pos (by omega)]
        rfl

theorem leaves_of_error {request : Request} {value : Bytes} {error : Error}
    (fails : request.replyOn value = .error error) : request.leaves value = value := by
  cases request with
  | truncate length =>
      rw [Request.replyOn] at fails
      rw [Request.leaves]
      split at fails
      · cases fails
      · rename_i long
        rw [if_neg long]
  | _ => rfl

/-! ## One request -/

section

variable {σ : Type} [ByteSource σ]

theorem load_loaded (value : Bytes) (source : Option σ) :
    (loaded value).load source = (.ok value, .loaded value, source) := by
  cases source <;> rfl

theorem load_released (source : Option σ) :
    released.load source = (.error .invalidPointer, .released, source) := by
  cases source <;> rfl

theorem load_stored_of_none (address length : UInt32) :
    (stored address length).load (none : Option σ) =
      (.error .invalidPointer, .stored address length, none) := rfl

theorem load_stored_of_error {source source' : σ} {address length : UInt32} {cause : Error}
    (fails : ByteSource.read source address length = (.error cause, source')) :
    (stored address length).load (some source) =
      (.error (.unreadable cause), .stored address length, some source') := by
  simp only [load, fails]

theorem load_stored_of_ok {source source' : σ} {address length : UInt32} {value : Bytes}
    (reads : ByteSource.read source address length = (.ok value, source')) :
    (stored address length).load (some source) = (.ok value, .loaded value, some source') := by
  simp only [load, reads]

theorem perform_of_needsValue {request : Request} (needs : request.NeedsValue)
    (memo : Memo) (source : Option σ) :
    memo.perform source request =
      match (memo.load source).1 with
      | .error error => (.error error, (memo.load source).2)
      | .ok value =>
        match answer value request with
        | .error error => (.error error, (memo.load source).2)
        | .ok (reply, value) => (.ok reply, .loaded value, (memo.load source).2.2) := by
  unfold perform
  split
  · cases needs
  · exact absurd rfl needs
  · rfl

theorem perform_release (memo : Memo) (source : Option σ) :
    memo.perform source .release = (.ok .done, .released, source) := rfl

theorem perform_of_not_needsValue {request : Request} (unneeded : ¬ request.NeedsValue)
    (kept : request ≠ .release) (memo : Memo) (source : Option σ) :
    memo.perform source request = (.error (.invalidLength 0), memo, source) := by
  cases request with
  | range position length =>
      obtain rfl : length = 0 := by simpa [Request.NeedsValue] using unneeded
      rfl
  | release => exact absurd rfl kept
  | length | bytes | text | contents | truncate => exact absurd trivial unneeded

theorem perform_of_load_error {request : Request} (needs : request.NeedsValue) {memo : Memo}
    {source : Option σ} {error : Error} {state : Memo × Option σ}
    (fails : memo.load source = (.error error, state)) :
    memo.perform source request = (.error error, state) := by
  rw [perform_of_needsValue needs, fails]

theorem perform_of_load_ok {request : Request} (needs : request.NeedsValue) {memo : Memo}
    {source source' : Option σ} {value : Bytes}
    (loads : memo.load source = (.ok value, .loaded value, source')) :
    memo.perform source request =
      (request.replyOn value, .loaded (request.leaves value), source') := by
  rw [perform_of_needsValue needs, loads]
  simp only [answer_eq_replyOn needs]
  cases reply : request.replyOn value with
  | ok reply => rfl
  | error error => simp only [Except.map, leaves_of_error reply]

end

end SqlMemo.Memo

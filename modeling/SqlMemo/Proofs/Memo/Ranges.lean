import SqlMemo.Proofs.Bytes
import SqlMemo.Proofs.Memo.LazyLoading

/-!
# Ranges of memos

Which ranges of a value can be asked for, and what they hold: exactly the bytes from the position
on, counted from 1, for all positions and lengths of 64 bits. A value can be read range by range.
-/

set_option autoImplicit false

namespace SqlMemo.Memo

/-! ## One range -/

theorem part_cases (value : Bytes) (position length : UInt64) :
    ((position.toNat = 0 ∨ value.length < position.toNat) ∧
      part value position length = .error (.invalidPosition position)) ∨
    ((1 ≤ position.toNat ∧ position.toNat ≤ value.length) ∧
      value.length < position.toNat - 1 + length.toNat ∧
      part value position length = .error .invalidSubstring) ∨
    ((1 ≤ position.toNat ∧ position.toNat ≤ value.length) ∧
      position.toNat - 1 + length.toNat ≤ value.length ∧
      part value position length = .ok (value.window (position.toNat - 1) length.toNat)) := by
  unfold part
  by_cases inside : 1 ≤ position.toNat ∧ position.toNat ≤ value.length
  · rw [if_pos inside]
    by_cases short : position.toNat + length.toNat ≤ value.length + 1
    · exact .inr (.inr ⟨inside, by omega, if_pos short⟩)
    · exact .inr (.inl ⟨inside, by omega, if_neg short⟩)
  · exact .inl ⟨by omega, if_neg inside⟩

section

variable {value content : Bytes} {position length : UInt64}

theorem part_eq_invalidPosition_iff :
    part value position length = .error (.invalidPosition position) ↔
      position.toNat = 0 ∨ value.length < position.toNat := by
  rcases part_cases value position length with
    ⟨outside, result⟩ | ⟨inside, -, result⟩ | ⟨inside, -, result⟩
  · rw [result]
    exact iff_of_true rfl outside
  · rw [result]
    exact iff_of_false (by simp) (by omega)
  · rw [result]
    exact iff_of_false (by simp) (by omega)

theorem part_eq_invalidSubstring_iff : part value position length = .error .invalidSubstring ↔
    (1 ≤ position.toNat ∧ position.toNat ≤ value.length) ∧
      value.length < position.toNat - 1 + length.toNat := by
  rcases part_cases value position length with
    ⟨outside, result⟩ | ⟨inside, beyond, result⟩ | ⟨inside, short, result⟩
  · rw [result]
    exact iff_of_false (by simp) (by omega)
  · rw [result]
    exact iff_of_true rfl ⟨inside, beyond⟩
  · rw [result]
    exact iff_of_false (by simp) (by omega)

theorem part_eq_ok_iff : part value position length = .ok content ↔
    (1 ≤ position.toNat ∧ position.toNat ≤ value.length) ∧ content.length = length.toNat ∧
      value.HoldsAt (position.toNat - 1) content := by
  rcases part_cases value position length with
    ⟨outside, result⟩ | ⟨inside, beyond, result⟩ | ⟨inside, short, result⟩
  · rw [result]
    refine iff_of_false (by simp) ?_
    rintro ⟨inside, -⟩
    omega
  · rw [result]
    refine iff_of_false (by simp) ?_
    rintro ⟨-, length_eq, holds⟩
    have held := List.IsPrefix.length_le holds
    rw [List.length_drop] at held
    omega
  · rw [result]
    constructor
    · intro same
      obtain rfl := Except.ok.inj same
      refine ⟨inside, ?_, List.take_prefix _ _⟩
      rw [Bytes.length_window]
      omega
    · rintro ⟨-, length_eq, holds⟩
      rw [holds.window_eq (Nat.le_of_eq length_eq.symm),
        List.take_of_length_le (Nat.le_of_eq length_eq)]

end

/-! ## Bounds in words -/

/-- The places between which a range lies, computed in words of 64 bits. A sum that has wrapped
around is less than its summands. -/
def wordBounds (total position length : UInt64) : Except Error (UInt64 × UInt64) :=
  if position < 1 ∨ total < position then .error (.invalidPosition position)
  else
    let start := position - 1
    let stop := start + length
    if stop < start ∨ total < stop then .error .invalidSubstring
    else .ok (start, stop)

theorem wordBounds_cases (total position length : UInt64) :
    ((position.toNat = 0 ∨ total.toNat < position.toNat) ∧
      wordBounds total position length = .error (.invalidPosition position)) ∨
    ((1 ≤ position.toNat ∧ position.toNat ≤ total.toNat) ∧
      total.toNat < position.toNat - 1 + length.toNat ∧
      wordBounds total position length = .error .invalidSubstring) ∨
    ∃ start stop, wordBounds total position length = .ok (start, stop) ∧
      start.toNat + 1 = position.toNat ∧ start.toNat < total.toNat ∧
      stop.toNat = start.toNat + length.toNat ∧ stop.toNat ≤ total.toNat := by
  have refused : (position < 1 ∨ total < position) ↔
      position.toNat = 0 ∨ total.toNat < position.toNat := by
    rw [UInt64.lt_iff_toNat_lt, UInt64.lt_iff_toNat_lt, UInt64.toNat_one, Nat.lt_one_iff]
  unfold wordBounds
  by_cases outside : position < 1 ∨ total < position
  · exact .inl ⟨refused.mp outside, if_pos outside⟩
  have inside := mt refused.mpr outside
  have start_eq : (position - 1).toNat = position.toNat - 1 :=
    UInt64.toNat_sub_of_le _ _ (UInt64.not_lt.mp fun zero => outside (.inl zero))
  have stop_eq : (position - 1 + length).toNat = (position.toNat - 1 + length.toNat) % 2 ^ 64 := by
    rw [UInt64.toNat_add, start_eq]
  have total_lt := total.toNat_lt
  have length_lt := length.toNat_lt
  have long : (position - 1 + length < position - 1 ∨ total < position - 1 + length) ↔
      total.toNat < position.toNat - 1 + length.toNat := by
    rw [UInt64.lt_iff_toNat_lt, UInt64.lt_iff_toNat_lt, start_eq, stop_eq]
    omega
  rw [if_neg outside]
  by_cases beyond : total.toNat < position.toNat - 1 + length.toNat
  · exact .inr (.inl ⟨by omega, beyond, if_pos (long.mpr beyond)⟩)
  · exact .inr (.inr ⟨_, _, if_neg (mt long.mp beyond), by omega, by omega, by omega, by omega⟩)

theorem wordBounds_eq_ok {total position length start stop : UInt64}
    (bounds : wordBounds total position length = .ok (start, stop)) :
    start.toNat + 1 = position.toNat ∧ stop.toNat = start.toNat + length.toNat ∧
      stop.toNat ≤ total.toNat := by
  rcases wordBounds_cases total position length with
    ⟨-, refused⟩ | ⟨-, -, refused⟩ | ⟨start', stop', bounds', first, -, last, short⟩
  · cases refused.symm.trans bounds
  · cases refused.symm.trans bounds
  · obtain ⟨rfl, rfl⟩ := Prod.mk.inj (Except.ok.inj (bounds'.symm.trans bounds))
    exact ⟨first, last, short⟩

/-- As long as the length of a value fits into a word, words are as good as numbers. -/
theorem slice_eq_wordBounds {value : Bytes} (fits : value.length < UInt64.size)
    (position length : UInt64) :
    slice value position length =
      (wordBounds (UInt64.ofNat value.length) position length).map fun bounds =>
        (value.drop bounds.1.toNat).take (bounds.2.toNat - bounds.1.toNat) := by
  have total_eq : (UInt64.ofNat value.length).toNat = value.length :=
    UInt64.toNat_ofNat_of_lt' fits
  rw [slice_eq_part]
  rcases wordBounds_cases (UInt64.ofNat value.length) position length with
    ⟨outside, bounds⟩ | ⟨inside, beyond, bounds⟩ | ⟨start, stop, bounds, first, inside, last, short⟩
  · rw [total_eq] at outside
    rw [bounds, part_eq_invalidPosition_iff.mpr outside]
    rfl
  · rw [total_eq] at inside beyond
    rw [bounds, part_eq_invalidSubstring_iff.mpr ⟨inside, beyond⟩]
    rfl
  · rw [total_eq] at inside short
    have width : stop.toNat - start.toNat = length.toNat := by omega
    have place : start.toNat = position.toNat - 1 := by omega
    have room : length.toNat ≤ (value.drop start.toNat).length := by
      rw [List.length_drop]
      omega
    rw [bounds, Except.map, width]
    refine part_eq_ok_iff.mpr ⟨by omega, List.length_take_of_le room, ?_⟩
    rw [← place]
    exact List.take_prefix _ _

/-! ## Range by range -/

/-- Ranges that have some bytes and follow one another from one place of a value to another. -/
inductive Consecutive : Nat → List (UInt64 × UInt64) → Nat → Prop where
  | nil {place : Nat} : Consecutive place [] place
  | cons {place stop : Nat} {position length : UInt64} {ranges : List (UInt64 × UInt64)} :
      position.toNat = place + 1 → 0 < length.toNat →
      Consecutive (place + length.toNat) ranges stop →
      Consecutive place ((position, length) :: ranges) stop

namespace Consecutive

variable {start stop : Nat} {ranges : List (UInt64 × UInt64)}

theorem le (consecutive : Consecutive start ranges stop) : start ≤ stop := by
  induction consecutive with
  | nil => exact Nat.le_refl _
  | cons _ _ _ ih => omega

theorem length_ne_zero (consecutive : Consecutive start ranges stop) {range : UInt64 × UInt64}
    (isRange : range ∈ ranges) : range.2 ≠ 0 := by
  induction consecutive with
  | nil => cases isRange
  | @cons _ _ _ length _ _ positive _ ih =>
      rcases List.mem_cons.mp isRange with rfl | isRange
      · rintro (rfl : length = 0)
        cases positive
      · exact ih isRange

/-- The pieces of a value in consecutive ranges are what it holds between their ends. -/
theorem exists_pieces {value : Bytes} (consecutive : Consecutive start ranges stop)
    (inside : stop ≤ value.length) :
    ∃ pieces : List Bytes,
      ranges.map (fun range => part value range.1 range.2) = pieces.map .ok ∧
      pieces.flatten = value.window start (stop - start) := by
  induction consecutive with
  | nil => exact ⟨[], rfl, by rw [Nat.sub_self]; rfl⟩
  | @cons place stop position length ranges position_eq positive behind ih =>
      obtain ⟨pieces, parts, flatten_eq⟩ := ih inside
      have following := behind.le
      have first : part value position length = .ok (value.window place length.toNat) := by
        refine part_eq_ok_iff.mpr ⟨by omega, ?_, ?_⟩
        · rw [Bytes.length_window]
          omega
        · rw [position_eq, Nat.add_sub_cancel]
          exact List.take_prefix _ _
      refine ⟨value.window place length.toNat :: pieces, ?_, ?_⟩
      · rw [List.map_cons, List.map_cons, first, parts]
      · have width : stop - place = length.toNat + (stop - (place + length.toNat)) := by omega
        rw [List.flatten_cons, flatten_eq, width]
        simp only [Bytes.window, List.take_add, List.drop_drop]

end Consecutive

section

variable {σ : Type} [ByteSource σ] {memo : Memo} {source source' : Option σ} {value : Bytes}

theorem load_of_ok (loads : (memo.load source).1 = .ok value) :
    memo.load source = (.ok value, .loaded value, (memo.load source).2.2) := by
  cases memo with
  | loaded value' =>
      rw [load_loaded] at loads ⊢
      obtain rfl := Except.ok.inj loads
      rfl
  | released =>
      rw [load_released] at loads
      cases loads
  | stored address length =>
      cases source with
      | none => cases loads
      | some source =>
          cases reads : ByteSource.read source address length with
          | mk result source' =>
              cases result with
              | error cause =>
                  rw [load_stored_of_error reads] at loads
                  cases loads
              | ok value' =>
                  rw [load_stored_of_ok reads] at loads ⊢
                  obtain rfl := Except.ok.inj loads
                  rfl

/-- Requests that need the value and leave it as it is are replied to one like the other. -/
theorem run_of_load_ok {requests : List Request}
    (reading : ∀ request ∈ requests, request.NeedsValue ∧ request.leaves value = value)
    (loads : memo.load source = (.ok value, .loaded value, source')) :
    (memo.run source requests).1 = requests.map (Request.replyOn value) := by
  induction requests generalizing memo source with
  | nil => rfl
  | cons request requests ih =>
      obtain ⟨needs, leaves⟩ := reading request List.mem_cons_self
      have rest := ih (fun later isLater => reading later (List.mem_cons_of_mem _ isLater))
        (load_loaded value source')
      have performs := perform_of_load_ok needs loads
      rw [leaves] at performs
      rw [run, performs, List.map_cons, rest]

/-- Requests for the pieces of a value, in whatever form, are replied to with the pieces. -/
theorem run_of_pieces {ranges : List (UInt64 × UInt64)} {pieces : List Bytes}
    (parts : ranges.map (fun range => part value range.1 range.2) = pieces.map .ok)
    {request : UInt64 × UInt64 → Request} {form : Bytes → Reply}
    (reading : ∀ range ∈ ranges, (request range).NeedsValue ∧
      (request range).leaves value = value ∧
      (request range).replyOn value = (part value range.1 range.2).map form)
    (loads : memo.load source = (.ok value, .loaded value, source')) :
    (memo.run source (ranges.map request)).1 = pieces.map fun piece => .ok (form piece) := by
  have kept : ∀ later ∈ ranges.map request, later.NeedsValue ∧ later.leaves value = value := by
    intro later isLater
    obtain ⟨range, isRange, rfl⟩ := List.mem_map.mp isLater
    obtain ⟨needs, leaves, -⟩ := reading range isRange
    exact ⟨needs, leaves⟩
  have formed : ranges.map (fun range => (request range).replyOn value) =
      ranges.map fun range => (part value range.1 range.2).map form :=
    List.map_congr_left fun range isRange => (reading range isRange).2.2
  calc (memo.run source (ranges.map request)).1
      = ranges.map fun range => (request range).replyOn value := by
        rw [run_of_load_ok kept loads, List.map_map]
        rfl
    _ = (ranges.map fun range => part value range.1 range.2).map (Except.map form) := by
        rw [formed, List.map_map]
        rfl
    _ = pieces.map fun piece => .ok (form piece) := by
        rw [parts, List.map_map]
        rfl

/-- What a memo gives of its value in a range is decided by unbounded numbers, the position first:
the bytes in the range and no others, or that the position or else the length is invalid. Words of
64 bits are enough to compute it, and range by range they are the whole value. -/
theorem replies_of_ranges (loads : (memo.load source).1 = .ok value) :
    let reply request := (memo.perform source request).1
    (∀ position length : UInt64,
      let result := slice value position length
      let isInside := 1 ≤ position.toNat ∧ position.toNat ≤ value.length
      reply (.bytes position length) = result.map .bytes ∧
      reply (.text position length) =
        result.map (fun content => .text (Text.Utf8.decodeLenient content)) ∧
      (1 ≤ length.toNat → reply (.range position length) = result.map .bytes) ∧
      (result = .error (.invalidPosition position) ↔
        position.toNat = 0 ∨ value.length < position.toNat) ∧
      (result = .error .invalidSubstring ↔
        isInside ∧ value.length < position.toNat - 1 + length.toNat) ∧
      ∀ content, result = .ok content ↔
        isInside ∧ content.length = length.toNat ∧ value.HoldsAt (position.toNat - 1) content) ∧
    (value.length < UInt64.size → ∀ position length : UInt64,
      let bounds := wordBounds (UInt64.ofNat value.length) position length
      slice value position length = bounds.map (fun bounds =>
        (value.drop bounds.1.toNat).take (bounds.2.toNat - bounds.1.toNat)) ∧
      ∀ start stop, bounds = .ok (start, stop) → start.toNat + 1 = position.toNat ∧
        stop.toNat = start.toNat + length.toNat ∧ stop.toNat ≤ value.length) ∧
    ∀ ranges, Consecutive 0 ranges value.length → ∃ pieces : List Bytes,
      (memo.run source (ranges.map fun range => .bytes range.1 range.2)).1 =
        pieces.map (fun piece => .ok (.bytes piece)) ∧
      (memo.run source (ranges.map fun range => .range range.1 range.2)).1 =
        pieces.map (fun piece => .ok (.bytes piece)) ∧
      reply .contents = .ok (.bytes pieces.flatten) := by
  intro reply
  have loads := load_of_ok loads
  have replies : ∀ {request : Request}, request.NeedsValue →
      reply request = request.replyOn value := by
    intro request needs
    exact congrArg Prod.fst (perform_of_load_ok needs loads)
  refine ⟨?_, ?_, ?_⟩
  · intro position length result isInside
    have bytesNeeds : (Request.bytes position length).NeedsValue := trivial
    have textNeeds : (Request.text position length).NeedsValue := trivial
    have result_eq : result = part value position length := slice_eq_part value position length
    rw [result_eq]
    refine ⟨replies bytesNeeds, replies textNeeds, ?_, part_eq_invalidPosition_iff,
      part_eq_invalidSubstring_iff, fun _ => part_eq_ok_iff⟩
    intro positive
    have nonzero : length ≠ 0 := by
      rintro rfl
      cases positive
    have rangeNeeds : (Request.range position length).NeedsValue := nonzero
    rw [replies rangeNeeds, Request.replyOn, if_neg nonzero]
  · intro fits position length bounds
    have total_eq : (UInt64.ofNat value.length).toNat = value.length :=
      UInt64.toNat_ofNat_of_lt' fits
    refine ⟨slice_eq_wordBounds fits position length, ?_⟩
    intro start stop found
    have ends := wordBounds_eq_ok found
    rwa [total_eq] at ends
  · intro ranges consecutive
    obtain ⟨pieces, parts, flatten_eq⟩ := consecutive.exists_pieces (Nat.le_refl value.length)
    have contentsNeeds : Request.contents.NeedsValue := trivial
    have whole : value.window 0 (value.length - 0) = value := List.take_length
    refine ⟨pieces, run_of_pieces parts ?_ loads, run_of_pieces parts ?_ loads, ?_⟩
    · intro range _
      exact ⟨trivial, rfl, rfl⟩
    · intro range isRange
      have nonzero := consecutive.length_ne_zero isRange
      exact ⟨nonzero, rfl, if_neg nonzero⟩
    · rw [replies contentsNeeds, flatten_eq, whole, Request.replyOn]

/-- Six bytes in the field itself, read in two ranges. -/
theorem replies_of_ranges_two :
    let memo := ofPointer ⟨some [97, 98, 99, 100, 101, 102], 0, 6, 0⟩
    (memo.load (none : Option BlobFile)).1 = .ok [97, 98, 99, 100, 101, 102] ∧
    (memo.perform (none : Option BlobFile) (.bytes 7 0)).1 = .error (.invalidPosition 7) ∧
    (memo.perform (none : Option BlobFile) (.text 2 0xFFFFFFFFFFFFFFFF)).1 =
      .error .invalidSubstring ∧
    Consecutive 0 [(1, 2), (3, 4)] 6 ∧
    ∃ pieces : List Bytes,
      (memo.run (none : Option BlobFile) [.bytes 1 2, .bytes 3 4]).1 =
        pieces.map (fun piece => .ok (.bytes piece)) ∧
      (memo.perform (none : Option BlobFile) .contents).1 = .ok (.bytes pieces.flatten) := by
  intro memo
  have loads : (memo.load (none : Option BlobFile)).1 = .ok [97, 98, 99, 100, 101, 102] := rfl
  obtain ⟨ranges, -, paged⟩ := replies_of_ranges loads
  obtain ⟨bytes, -, -, outside, -⟩ := ranges 7 0
  obtain ⟨-, text, -, -, beyond, -⟩ := ranges 2 0xFFFFFFFFFFFFFFFF
  have consecutive : Consecutive 0 [(1, 2), (3, 4)] 6 :=
    .cons rfl (by decide) (.cons rfl (by decide) .nil)
  obtain ⟨pieces, run, -, contents⟩ := paged _ consecutive
  refine ⟨loads, bytes.trans ?_, text.trans ?_, consecutive, pieces, run, contents⟩
  · rw [outside.mpr (.inr (by decide))]
    rfl
  · rw [beyond.mpr ⟨by decide, by decide⟩]
    rfl

end

end SqlMemo.Memo

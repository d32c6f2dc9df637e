import SqlMemo.Proofs.Memo.Ranges
import SqlMemo.Proofs.Text.Boundaries

/-!
# Texts range by range

A memo that holds a text can be read as text, range by range. What comes out is the text again if
every range begins in front of a character, and something longer otherwise: a character that is cut
leaves a replacement character on either side of the cut.
-/

set_option autoImplicit false

namespace SqlMemo.Memo

open Text

/-! ## Ranges and pieces -/

section

variable {value : Bytes} {start stop index : Nat} {ranges : List (UInt64 × UInt64)}
  {pieces : List Bytes} {range : UInt64 × UInt64}

theorem length_of_parts
    (parts : ranges.map (fun range => part value range.1 range.2) = pieces.map .ok) :
    pieces.length = ranges.length := by
  have lengths := congrArg List.length parts
  rw [List.length_map, List.length_map] at lengths
  exact lengths.symm

/-- A range begins where the pieces of the ranges before it end, and has some bytes. -/
theorem Consecutive.piece_of_range (consecutive : Consecutive start ranges stop)
    (parts : ranges.map (fun range => part value range.1 range.2) = pieces.map .ok)
    (found : ranges[index]? = some range) :
    range.1.toNat - 1 = start + (pieces.take index).flatten.length ∧
      ∃ piece, pieces[index]? = some piece ∧ piece ≠ [] := by
  induction consecutive generalizing pieces index with
  | nil => cases found
  | @cons place stop position length ranges position_eq positive behind ih =>
      cases pieces with
      | nil => cases parts
      | cons piece pieces =>
          rw [List.map_cons, List.map_cons] at parts
          obtain ⟨first, parts⟩ := List.cons.inj parts
          obtain ⟨-, length_eq, -⟩ := part_eq_ok_iff.mp first
          dsimp only at length_eq
          cases index with
          | zero =>
              obtain rfl := Option.some.inj found
              refine ⟨by simp [position_eq], piece, rfl, ?_⟩
              rintro rfl
              rw [← length_eq] at positive
              cases positive
          | succ index =>
              obtain ⟨begins, piece', found', nonempty⟩ := ih parts found
              refine ⟨?_, piece', found', nonempty⟩
              rw [begins, List.take_succ_cons, List.flatten_cons, List.length_append, length_eq,
                Nat.add_assoc]

/-- The cuts between pieces are the beginnings of the ranges. -/
theorem Consecutive.forall_cuts_iff {chars : List Char}
    (consecutive : Consecutive 0 ranges stop)
    (parts : ranges.map (fun range => part value range.1 range.2) = pieces.map .ok)
    (whole : pieces.flatten = Utf8.encodeChars chars) :
    (∀ left right, pieces = left ++ right → Utf8.IsBoundary chars left.flatten.length) ↔
      ∀ range ∈ ranges, Utf8.IsBoundary chars (range.1.toNat - 1) := by
  constructor
  · intro boundaries range isRange
    obtain ⟨index, found⟩ := List.mem_iff_getElem?.mp isRange
    obtain ⟨begins, -⟩ := consecutive.piece_of_range parts found
    rw [begins, Nat.zero_add]
    exact boundaries _ _ (List.take_append_drop index pieces).symm
  · rintro boundaries left right rfl
    cases right with
    | nil =>
        rw [List.append_nil] at whole
        rw [whole]
        exact .length chars
    | cons piece right =>
        have inside : left.length < ranges.length := by
          rw [← length_of_parts parts, List.length_append, List.length_cons]
          omega
        have found := List.getElem?_eq_getElem inside
        obtain ⟨begins, -⟩ := consecutive.piece_of_range parts found
        have boundary := boundaries _ (List.getElem_mem inside)
        rwa [begins, Nat.zero_add, List.take_left] at boundary

/-- A range that begins inside a character begins with a fragment, behind a fragment. -/
theorem Consecutive.units_beside {chars : List Char} (consecutive : Consecutive 0 ranges stop)
    (parts : ranges.map (fun range => part value range.1 range.2) = pieces.map .ok)
    (whole : pieces.flatten = Utf8.encodeChars chars) (found : ranges[index + 1]? = some range)
    (inside : ¬ Utf8.IsBoundary chars (range.1.toNat - 1)) :
    ∃ left right, pieces[index]? = some left ∧ pieces[index + 1]? = some right ∧
      (Utf8.units left).getLast? = some none ∧ (Utf8.units right).head? = some none := by
  obtain ⟨begins, right, right_found, right_nonempty⟩ := consecutive.piece_of_range parts found
  have index_lt : index < ranges.length := by
    have := (List.getElem?_eq_some_iff.mp found).1
    omega
  obtain ⟨-, left, left_found, left_nonempty⟩ :=
    consecutive.piece_of_range parts (List.getElem?_eq_getElem index_lt)
  refine ⟨left, right, left_found, right_found, ?_⟩
  obtain ⟨left_lt, left_eq⟩ := List.getElem?_eq_some_iff.mp left_found
  obtain ⟨right_lt, right_eq⟩ := List.getElem?_eq_some_iff.mp right_found
  have front : pieces.take (index + 1) = pieces.take index ++ [left] := by
    rw [List.take_add_one, left_found]
    rfl
  have split : pieces = pieces.take index ++ left :: right :: pieces.drop (index + 2) := by
    rw [← left_eq, ← right_eq, List.getElem_cons_drop, List.getElem_cons_drop,
      List.take_append_drop]
  rw [split] at whole
  rw [begins, Nat.zero_add, front] at inside
  exact Utf8.units_beside_cut whole left_nonempty right_nonempty inside

end

/-! ## Texts -/

section

variable {σ : Type} [ByteSource σ] {memo : Memo} {source : Option σ}

/-- The texts in consecutive ranges of a memo are together the text that it holds if and only if
every range begins in front of a character. At any other beginning, both texts have a replacement
character. -/
theorem texts_of_ranges {text : String} (loads : (memo.load source).1 = .ok (Utf8.encode text))
    {ranges : List (UInt64 × UInt64)}
    (consecutive : Consecutive 0 ranges (Utf8.encode text).length) :
    ∃ texts : List String,
      (memo.run source (ranges.map fun range => .text range.1 range.2)).1 =
        texts.map (fun part => .ok (.text part)) ∧
      (String.join texts = text ↔
        ∀ range ∈ ranges, Utf8.IsBoundary text.toList (range.1.toNat - 1)) ∧
      ∀ index range, ranges[index + 1]? = some range →
        ¬ Utf8.IsBoundary text.toList (range.1.toNat - 1) →
        ∃ left right, texts[index]? = some left ∧ texts[index + 1]? = some right ∧
          left.toList.getLast? = some '\uFFFD' ∧ right.toList.head? = some '\uFFFD' := by
  have loads := load_of_ok loads
  obtain ⟨pieces, parts, flatten_eq⟩ := consecutive.exists_pieces (Nat.le_refl _)
  have whole : pieces.flatten = Utf8.encode text := by
    rw [flatten_eq, Nat.sub_zero]
    exact List.take_length
  have replies : (memo.run source (ranges.map fun range => .text range.1 range.2)).1 =
      pieces.map fun piece => .ok (.text (Utf8.decodeLenient piece)) :=
    run_of_pieces parts (fun range _ => ⟨trivial, rfl, rfl⟩) loads
  refine ⟨pieces.map Utf8.decodeLenient, ?_, ?_, ?_⟩
  · rw [replies, List.map_map]
    rfl
  · rw [Utf8.join_decodeLenient_eq_iff whole, consecutive.forall_cuts_iff parts whole]
  · intro index range found inside
    obtain ⟨left, right, left_found, right_found, last, first⟩ :=
      consecutive.units_beside parts whole found inside
    refine ⟨Utf8.decodeLenient left, Utf8.decodeLenient right, ?_, ?_, ?_, ?_⟩
    · rw [List.getElem?_map, left_found, Option.map_some]
    · rw [List.getElem?_map, right_found, Option.map_some]
    · rw [Utf8.toList_decodeLenient, List.getLast?_map, last]
      rfl
    · rw [Utf8.toList_decodeLenient, List.head?_map, first]
      rfl

/-- An `é` of two bytes behind an `a`, cut in front of the `é` and inside it. -/
theorem texts_of_ranges_accent :
    let memo := ofPointer ⟨some [0x61, 0xC3, 0xA9], 0, 3, 0⟩
    (memo.load (none : Option BlobFile)).1 = .ok (Utf8.encode "aé") ∧
    Consecutive 0 [(1, 1), (2, 2)] (Utf8.encode "aé").length ∧
    Consecutive 0 [(1, 2), (3, 1)] (Utf8.encode "aé").length ∧
    (∃ texts, (memo.run (none : Option BlobFile) [.text 1 1, .text 2 2]).1 =
        texts.map (fun part => .ok (.text part)) ∧ String.join texts = "aé") ∧
    ∃ texts, (memo.run (none : Option BlobFile) [.text 1 2, .text 3 1]).1 =
        texts.map (fun part => .ok (.text part)) ∧ String.join texts ≠ "aé" := by
  intro memo
  have loads : (memo.load (none : Option BlobFile)).1 = .ok (Utf8.encode "aé") := by
    decide +kernel
  have length_eq : (Utf8.encode "aé").length = 3 := by decide +kernel
  have onBoundary : Consecutive 0 [(1, 1), (2, 2)] (Utf8.encode "aé").length := by
    rw [length_eq]
    exact .cons rfl (by decide) (.cons rfl (by decide) .nil)
  have offBoundary : Consecutive 0 [(1, 2), (3, 1)] (Utf8.encode "aé").length := by
    rw [length_eq]
    exact .cons rfl (by decide) (.cons rfl (by decide) .nil)
  obtain ⟨texts, replies, joined, -⟩ := texts_of_ranges loads onBoundary
  obtain ⟨texts', replies', joined', -⟩ := texts_of_ranges loads offBoundary
  refine ⟨loads, onBoundary, offBoundary, ⟨texts, replies, joined.mpr ?_⟩,
    texts', replies', fun same => ?_⟩
  · intro range isRange
    rcases List.mem_pair.mp isRange with rfl | rfl
    · exact .zero _
    · exact ⟨['a'], ['é'], rfl, by decide +kernel⟩
  · have boundary : Utf8.IsBoundary "aé".toList 2 :=
      joined'.mp same (3, 1) (List.mem_cons_of_mem _ List.mem_cons_self)
    have inside : ¬ Utf8.IsBoundary "aé".toList 2 := by decide +kernel
    exact inside boundary

end

end SqlMemo.Memo

import SqlMemo.Proofs.Sql.Displacement
import SqlMemo.Proofs.Sql.Trimming

/-!
# Reading past faults

A fault is over with its fragment, and reading goes on right behind it. So the lexemes of the tokens
and the fragments of the faults make up the whole statement, and what is read behind a fault is what
the rest of the statement holds by itself.
-/

set_option autoImplicit false

namespace SqlMemo.Sql

/-! ## Fragments -/

/-- A digit with free characters and two points behind it, the second of them at the end. -/
structure IsFragment (fragment : List Char) : Prop where
  begins : ∃ first, fragment.head? = some first ∧ first.isDigit = true
  points : fragment.count '.' = 2
  ends : fragment.getLast? = some '.'
  others : ∀ char ∈ fragment,
    isSeparator char = false ∧ isOperator char = false ∧ (isSpecial char = true → char = '.')

private theorem numeral_char {char : Char} (fits : isFree char = true ∨ char = '.') :
    isSeparator char = false ∧ isOperator char = false ∧ (isSpecial char = true → char = '.') := by
  cases fits with
  | inl free =>
      obtain ⟨visible, noSpecial, noOperator⟩ := isFree_iff.mp free
      exact ⟨visible, noOperator, by simp [noSpecial]⟩
  | inr point =>
      subst char
      exact ⟨rfl, rfl, fun _ => rfl⟩

theorem Lexeme.Fits.isFragment {fragment behind : List Char}
    (fits : (Lexeme.malformed fragment).Fits behind) : IsFragment fragment := by
  cases fits with
  | malformed numeral points =>
      obtain ⟨first, run, rfl, digit, run_chars⟩ := numeral
      refine ⟨⟨first, rfl, digit⟩, ?_, List.getLast?_concat, ?_⟩
      · rw [List.count_append, points, List.count_singleton_self]
      · intro char member
        apply numeral_char
        simp only [List.cons_append, List.mem_cons, List.mem_append, List.not_mem_nil,
          or_false] at member
        rcases member with first_eq | member | point
        · subst char
          exact .inl (isDigit_disjoint digit).1
        · exact run_chars char member
        · exact .inr point

/-! ## Tilings -/

/-- A text, which begins at a position of its statement, consists of the lexemes of tokens and the
fragments of faults, each behind a gap, and of nothing else. -/
inductive Tiles : Nat → List Char → List Item → Prop where
  | nil {position : Nat} : Tiles position [] []
  | token {position : Nat} {gap behind : List Char} {lexeme : Lexeme} {token : Token}
      {items : List Item} :
      Gap gap → lexeme.Fits behind → lexeme.toToken = .ok token →
      Tiles (position + gap.length + lexeme.source.length) behind items →
      Tiles position (gap ++ (lexeme.source ++ behind)) (.ok token :: items)
  | fault {position : Nat} {gap fragment behind : List Char} {items : List Item} :
      Gap gap → (Lexeme.malformed fragment).Fits behind →
      Tiles (position + gap.length + fragment.length) behind items →
      Tiles position (gap ++ (fragment ++ behind))
        (.error (.malformedNumber (String.ofList fragment) (position + gap.length)) :: items)

namespace Tiles

variable {position : Nat} {text : List Char} {items : List Item}

/-- The items of a tiling are those that reading finds. -/
theorem pending_eq (tiles : Tiles position text items) :
    (TokenStream.mk [] ⟨position, text⟩).pending = items := by
  induction tiles with
  | nil => exact TokenStream.pending_of_end (by rfl)
  | token separators fits meaning _ ih =>
      rw [TokenStream.pending_of_hasNext (TokenStream.hasNext_of_fits _ fits _),
        TokenStream.next_of_fits separators fits, meaning, ih]
      rfl
  | @fault position gap fragment behind items separators fits _ ih =>
      have more := TokenStream.hasNext_of_fits gap fits position
      have step := TokenStream.next_of_fits separators fits position
      simp only [Lexeme.source] at more step
      rw [TokenStream.pending_of_hasNext more, step, ih]
      rfl

/-- Whatever is read of a text without separators at its end tiles it. -/
theorem of_pending {text : List Char} (visible : EndsVisible text) (position : Nat) :
    Tiles position text (TokenStream.mk [] ⟨position, text⟩).pending := by
  by_cases ended : text = []
  · subst text
    rw [TokenStream.pending_of_end (by rfl)]
    exact .nil
  obtain ⟨gap, lexeme, behind, separators, fits, rfl⟩ := visible.exists_fits ended
  obtain ⟨first, tail, source_eq, -, -⟩ := fits.read
  have shorter : behind.length < (gap ++ (lexeme.source ++ behind)).length := by
    simp only [source_eq, List.length_append, List.length_cons]
    omega
  have rest := of_pending visible.of_append.of_append
    (position + gap.length + lexeme.source.length)
  rw [TokenStream.pending_of_hasNext (TokenStream.hasNext_of_fits gap fits position),
    TokenStream.next_of_fits separators fits position]
  cases meaning : lexeme.toToken with
  | ok token => exact .token separators fits meaning rest
  | error fragment =>
      obtain ⟨text, rfl, rfl⟩ := Lexeme.toToken_eq_error_iff.mp meaning
      exact .fault separators fits rest
termination_by text.length

/-- A fault of a text that begins at a position of its statement, and the items behind it. -/
inductive Cut (position : Nat) : List Char → ScanError → List Item → Prop where
  | mk {front fragment rest : List Char} {behind : List Item} :
      IsFragment fragment → Tiles (position + front.length + fragment.length) rest behind →
      Cut position (front ++ (fragment ++ rest))
        (.malformedNumber (String.ofList fragment) (position + front.length)) behind

theorem Cut.append {fault : ScanError} {behind : List Item} (lead : List Char)
    (cut : Cut (position + lead.length) text fault behind) :
    Cut position (lead ++ text) fault behind := by
  cases cut with
  | @mk front fragment rest _ shape tiles =>
      have place : position + lead.length + front.length = position + (lead ++ front).length := by
        simp only [List.length_append, Nat.add_assoc]
      rw [place] at tiles ⊢
      rw [← List.append_assoc]
      exact .mk shape tiles

theorem cut {before behind : List Item} {fault : ScanError}
    (tiles : Tiles position text (before ++ .error fault :: behind)) :
    Cut position text fault behind := by
  generalize all : before ++ .error fault :: behind = items at tiles
  induction tiles generalizing before with
  | nil => simp at all
  | @token _ gap _ lexeme _ _ _ _ _ _ ih =>
      cases before with
      | nil => simp at all
      | cons item before =>
          simp only [List.cons_append, List.cons.injEq] at all
          exact ((ih all.2).append lexeme.source).append gap
  | @fault _ gap fragment _ _ _ fits tiles ih =>
      cases before with
      | nil =>
          simp only [List.nil_append, List.cons.injEq, Except.error.injEq] at all
          obtain ⟨rfl, rfl⟩ := all
          exact .mk fits.isFragment tiles
      | cons item before =>
          simp only [List.cons_append, List.cons.injEq] at all
          exact ((ih all.2).append fragment).append gap

end Tiles

/-! ## Places -/

/-- The place that a fault names. -/
def Item.place? : Item → Option Nat
  | .error (.malformedNumber _ position) => some position
  | _ => none

namespace Tiles

variable {position : Nat} {text : List Char} {items : List Item}

theorem position_le (tiles : Tiles position text items) :
    ∀ place ∈ items.filterMap Item.place?, position ≤ place := by
  induction tiles with
  | nil => simp
  | token _ _ _ _ ih =>
      intro place member
      have later := ih place (by simpa [Item.place?] using member)
      omega
  | fault _ _ _ ih =>
      intro place member
      simp only [List.filterMap_cons, Item.place?, List.mem_cons] at member
      rcases member with here | member
      · omega
      · have later := ih place member
        omega

theorem places_increase (tiles : Tiles position text items) :
    (items.filterMap Item.place?).Pairwise (· < ·) := by
  induction tiles with
  | nil => exact .nil
  | token _ _ _ _ ih =>
      rw [List.filterMap_cons_none (by rfl)]
      exact ih
  | @fault position gap fragment _ _ _ fits tiles ih =>
      simp only [List.filterMap_cons, Item.place?]
      refine .cons ?_ ih
      intro place member
      -- A fragment is not empty, so the text behind it begins further on.
      obtain ⟨first, head, -⟩ := fits.isFragment.begins
      have nonempty : 0 < fragment.length := by
        apply List.length_pos_iff.mpr
        intro empty
        simp [empty] at head
      have later := tiles.position_le place member
      omega

end Tiles

/-! ## Starting afresh -/

theorem EndsVisible.exists_gap {text : List Char} (visible : EndsVisible text) :
    ∃ gap, Gap gap ∧ text = gap ++ trimSeparators text := by
  obtain ⟨⟨leading, trailing, before, behind, text_eq⟩, -, -⟩ := trimmed_trimSeparators text
  rw [text_eq] at visible
  obtain rfl := visible.of_append.eq_nil_of_gap behind
  rw [List.append_nil] at text_eq
  exact ⟨leading, before, text_eq⟩

namespace TokenStream

theorem hasNext_drain (stream : TokenStream) : stream.drain.2.hasNext = false := by
  cases more : stream.hasNext with
  | false => rwa [drain_of_end more]
  | true =>
      have shorter := size_next_lt more
      rw [drain_of_hasNext more]
      exact hasNext_drain stream.next.2
termination_by stream.size

theorem drain_ofStatement (statement : String) : (ofStatement statement).drain.1 =
    (TokenStream.mk [] ⟨0, trimSeparators statement.toList⟩).pending :=
  rfl

/-- What is read of a rest of a statement is what is read of it as a statement of its own, only
that the faults are further on. -/
theorem pending_eq_drain {rest : List Char} (visible : EndsVisible rest) (position : Nat) :
    (TokenStream.mk [] ⟨position, rest⟩).pending =
      (ofStatement (String.ofList rest)).drain.1.map
        (Item.displace (position + rest.length - (trimSeparators rest).length)) := by
  rw [drain_ofStatement, String.toList_ofList, ← pending_displace]
  obtain ⟨gap, separators, rest_eq⟩ := visible.exists_gap
  by_cases ended : rest = []
  · subst rest
    rw [pending_of_end (by rfl), pending_of_end (by rfl)]
  · have unread : trimSeparators rest ≠ [] := by
      intro empty
      rw [empty, List.append_nil] at rest_eq
      subst rest
      exact ended (visible.eq_nil_of_gap separators)
    have distance : position + rest.length - (trimSeparators rest).length =
        position + gap.length := by
      have length := congrArg List.length rest_eq
      rw [List.length_append] at length
      omega
    have read := pending_of_gap separators unread position
    rw [← rest_eq] at read
    rw [read, distance, Cursor.displace, Nat.zero_add]

end TokenStream

/-- Reading a statement to its end takes it apart without a remainder: into gaps, the lexemes of the
tokens and the fragments of the faults. A fault names the place of its fragment, faults come in the
order of their places, and behind a fault the rest of the statement is read as if it were a
statement of its own. -/
theorem drain_tiles (statement : String) :
    (TokenStream.ofStatement statement).drain.2.hasNext = false ∧
    let text := trimSeparators statement.toList
    let items := (TokenStream.ofStatement statement).drain.1
    Tiles 0 text items ∧
    (∀ before fault behind, items = before ++ .error fault :: behind →
      ∃ fragment position, fault = .malformedNumber (String.ofList fragment) position ∧
        (text.drop position).take fragment.length = fragment ∧ IsFragment fragment ∧
        let rest := text.drop (position + fragment.length)
        behind = (TokenStream.ofStatement (String.ofList rest)).drain.1.map
          (Item.displace (text.length - (trimSeparators rest).length))) ∧
    (items.filterMap Item.place?).Pairwise (· < ·) := by
  refine ⟨TokenStream.hasNext_drain _, ?_⟩
  intro text items
  have visible : EndsVisible text := (trimmed_trimSeparators statement.toList).endsVisible
  have tiles : Tiles 0 text items := Tiles.of_pending visible 0
  refine ⟨tiles, ?_, tiles.places_increase⟩
  intro before fault behind items_eq
  rw [items_eq] at tiles
  have cut := tiles.cut
  generalize text = whole at cut visible
  cases cut with
  | @mk front fragment rest _ shape later =>
      refine ⟨fragment, 0 + front.length, rfl, ?_, shape, ?_⟩
      · simp
      · have dropped : (front ++ (fragment ++ rest)).drop (0 + front.length + fragment.length) =
            rest := by simp
        have distance : (front ++ (fragment ++ rest)).length =
            0 + front.length + fragment.length + rest.length := by
          simp only [List.length_append]
          omega
        simp only [dropped, distance]
        rw [← TokenStream.pending_eq_drain visible.of_append.of_append, later.pending_eq]

theorem drain_tiles_two_faults :
    let text := trimSeparators "1.2.'3' 4.5.6".toList
    (TokenStream.ofStatement "1.2.'3' 4.5.6").drain.1 =
      [.error (.malformedNumber "1.2." 0), .ok ⟨.character, "3"⟩] ++
        .error (.malformedNumber "4.5." 8) :: [.ok ⟨.numeric, "6"⟩] ∧
    ∃ fragment position,
      ScanError.malformedNumber "4.5." 8 = .malformedNumber (String.ofList fragment) position ∧
      (text.drop position).take fragment.length = fragment ∧ IsFragment fragment := by
  intro text
  have items : (TokenStream.ofStatement "1.2.'3' 4.5.6").drain.1 =
      [.error (.malformedNumber "1.2." 0), .ok ⟨.character, "3"⟩] ++
        .error (.malformedNumber "4.5." 8) :: [.ok ⟨.numeric, "6"⟩] := by decide +kernel
  obtain ⟨fragment, position, same, found, shape, -⟩ :=
    (drain_tiles "1.2.'3' 4.5.6").2.2.1 _ _ _ items
  exact ⟨items, fragment, position, same, found, shape⟩

end SqlMemo.Sql

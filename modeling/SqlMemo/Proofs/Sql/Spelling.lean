import SqlMemo.Sql.Token

/-!
# Spellings

A symbol is spelled exactly and a keyword in any case, and no text is a spelling of two kinds. The
kind of a bare text is therefore settled by what the text spells.
-/

set_option autoImplicit false

namespace SqlMemo.Sql

theorem Symbol.ofText?_eq_some_iff {text : String} {sign : Symbol} :
    Symbol.ofText? text = some sign ↔ sign.spelling = text := by
  constructor
  · intro found
    simpa using List.find?_some found
  · rintro rfl
    cases sign <;> rfl

theorem Keyword.ofText?_eq_some_iff {text : String} {word : Keyword} :
    Keyword.ofText? text = some word ↔ word.spelling = Text.upper text := by
  unfold Keyword.ofText?
  generalize Text.upper text = spelled
  constructor
  · intro found
    simpa using List.find?_some found
  · rintro rfl
    cases word <;> rfl

namespace Kind

theorem ofName?_name (kind : Kind) : ofName? kind.name = some kind := by
  have named : ∀ kind ∈ all, ofName? kind.name = some kind := by decide +kernel
  exact named kind kind.mem_all

/-- A text spells a kind of its own: a symbol exactly, or a keyword in any case. -/
inductive Spells : Kind → String → Prop where
  | symbol (sign : Symbol) : Spells (.symbol sign) sign.spelling
  | keyword {word : Keyword} {text : String} :
      word.spelling = Text.upper text → Spells (.keyword word) text

private theorem upper_spelling (sign : Symbol) : Text.upper sign.spelling = sign.spelling := by
  cases sign <;> rfl

private theorem spelling_ne_spelling (word : Keyword) (sign : Symbol) :
    word.spelling ≠ sign.spelling := by
  intro same
  have found := Symbol.ofText?_eq_some_iff.mpr same.symm
  cases word <;> cases found

theorem Spells.unique {first second : Kind} {text : String} (spelled : first.Spells text)
    (spelled' : second.Spells text) : first = second := by
  cases spelled with
  | symbol sign =>
      generalize spelling : sign.spelling = text at spelled'
      cases spelled' with
      | symbol other =>
          have found := Symbol.ofText?_eq_some_iff.mpr spelling
          rw [Symbol.ofText?_eq_some_iff.mpr rfl] at found
          exact congrArg Kind.symbol (Option.some.inj found).symm
      | keyword same =>
          rw [← spelling, upper_spelling] at same
          exact absurd same (spelling_ne_spelling _ _)
  | keyword same =>
      cases spelled' with
      | symbol sign =>
          rw [upper_spelling] at same
          exact absurd same (spelling_ne_spelling _ _)
      | keyword same' =>
          have found := Keyword.ofText?_eq_some_iff.mpr same
          rw [Keyword.ofText?_eq_some_iff.mpr same'] at found
          exact congrArg Kind.keyword (Option.some.inj found).symm

private theorem capital_of_digit {char : Char} (digit : char.isDigit = true) :
    Text.capital char = [char] := by
  have below : char.toNat ≤ 57 := by
    rw [Char.isDigit, Bool.and_eq_true, decide_eq_true_eq, decide_eq_true_eq] at digit
    exact UInt32.le_iff_toNat_le.mp digit.2
  have noLower : ¬ ('a'.val ≤ char.val ∧ char.val ≤ 'z'.val) := by
    rintro ⟨above, -⟩
    have above : 97 ≤ char.toNat := UInt32.le_iff_toNat_le.mp above
    omega
  have unchanged : char.toUpper = char := dif_neg noLower
  rw [Text.capital_of_ascii (by omega), unchanged]

private theorem startsWithDigit_upper {text : String} (digit : startsWithDigit text = true) :
    startsWithDigit (Text.upper text) = true := by
  unfold startsWithDigit at digit ⊢
  rw [Text.toList_upper]
  cases chars : text.toList with
  | nil => simp [chars] at digit
  | cons first rest =>
      have isDigit : first.isDigit = true := by simpa [chars] using digit
      simp [capital_of_digit isDigit, isDigit]

theorem Spells.startsWithDigit_eq_false {kind : Kind} {text : String}
    (spelled : kind.Spells text) : startsWithDigit text = false := by
  cases spelled with
  | symbol sign => cases sign <;> rfl
  | @keyword word _ same =>
      cases digit : startsWithDigit text with
      | false => rfl
      | true =>
          have digit' := startsWithDigit_upper digit
          rw [← same] at digit'
          cases word <;> cases digit'

private theorem spells_of_ofSpelling? {text : String} {kind : Kind}
    (found : ofSpelling? text = some kind) : kind.Spells text := by
  unfold ofSpelling? at found
  split at found
  · rename_i sign spelled
    obtain rfl := Symbol.ofText?_eq_some_iff.mp spelled
    obtain rfl := Option.some.inj found
    exact .symbol sign
  · obtain ⟨word, spelled, rfl⟩ := Option.map_eq_some_iff.mp found
    exact .keyword (Keyword.ofText?_eq_some_iff.mp spelled)

theorem ofSpelling?_eq_some_iff {text : String} {kind : Kind} :
    ofSpelling? text = some kind ↔ kind.Spells text := by
  refine ⟨spells_of_ofSpelling?, ?_⟩
  intro spelled
  cases found : ofSpelling? text with
  | some other => rw [(spells_of_ofSpelling? found).unique spelled]
  | none =>
      unfold ofSpelling? at found
      cases spelled with
      | symbol sign => simp [Symbol.ofText?_eq_some_iff.mpr rfl] at found
      | keyword same =>
          split at found
          · cases found
          · simp [Keyword.ofText?_eq_some_iff.mpr same] at found

/-- The spelling of a kind is read as that kind. -/
theorem ofSpelling?_of_spelling? {kind : Kind} {text : String}
    (spelling : kind.spelling? = some text) : ofSpelling? text = some kind := by
  rw [ofSpelling?_eq_some_iff]
  cases kind with
  | symbol sign =>
      obtain rfl := Option.some.inj spelling
      exact .symbol sign
  | keyword word =>
      obtain rfl := Option.some.inj spelling
      exact .keyword (by cases word <;> rfl)
  | character | numeric | identifier => cases spelling

/-! ## Bare texts -/

/-- The kind of a text that is no literal. A digit in front makes it a number, and it is a name if it
spells nothing. -/
inductive Suits : Kind → String → Prop where
  | number {text : String} : startsWithDigit text = true → Suits .numeric text
  | spelled {kind : Kind} {text : String} : kind.Spells text → Suits kind text
  | name {text : String} :
      startsWithDigit text = false → (∀ kind : Kind, ¬ kind.Spells text) → Suits .identifier text

theorem suits_ofText (text : String) : (ofText text).Suits text := by
  unfold ofText
  split
  · rename_i digit
    exact .number digit
  · rename_i noDigit
    cases found : ofSpelling? text with
    | some kind => exact .spelled (ofSpelling?_eq_some_iff.mp found)
    | none =>
        refine .name (Bool.eq_false_iff.mpr noDigit) fun kind spelled => ?_
        rw [ofSpelling?_eq_some_iff.mpr spelled] at found
        cases found

theorem Suits.ofText_eq {kind : Kind} {text : String} (suits : kind.Suits text) :
    ofText text = kind := by
  cases suits with
  | number digit => rw [ofText, if_pos digit]
  | spelled spelled =>
      simp [ofText, spelled.startsWithDigit_eq_false, ofSpelling?_eq_some_iff.mpr spelled]
  | name noDigit unspelled =>
      cases found : ofSpelling? text with
      | some kind => exact absurd (ofSpelling?_eq_some_iff.mp found) (unspelled kind)
      | none => simp [ofText, noDigit, found]

theorem ofText_eq_iff {text : String} {kind : Kind} : ofText text = kind ↔ kind.Suits text := by
  refine ⟨?_, Suits.ofText_eq⟩
  rintro rfl
  exact suits_ofText text

theorem ofText_eq_symbol_iff {text : String} {sign : Symbol} :
    ofText text = .symbol sign ↔ text = sign.spelling := by
  rw [ofText_eq_iff]
  constructor
  · intro suits
    cases suits with
    | spelled spelled =>
        cases spelled
        rfl
  · rintro rfl
    exact .spelled (.symbol sign)

end Kind

end SqlMemo.Sql

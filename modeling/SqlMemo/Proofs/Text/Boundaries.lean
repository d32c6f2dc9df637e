import SqlMemo.Text.Utf8

/-!
# Boundaries of characters

How a stretch of an encoded text decodes by itself. Between two boundaries of characters it is the
text there. If it begins inside a character, each byte left of that one is a fragment, and if it
ends inside a character, the bytes begun are one fragment. So a text that is cut into pieces keeps
its number of units exactly if it is cut on boundaries alone, and otherwise has more.
-/

set_option autoImplicit false

namespace SqlMemo.Text.Utf8

/-! ## Continuation bytes -/

def IsContinuation (byte : UInt8) : Prop :=
  0x80 ≤ byte.toNat ∧ byte.toNat ≤ 0xBF

/-- Bytes that go on with a character, the first of them between `least` and `greatest`. -/
inductive Continues : (least greatest : Nat) → Bytes → Prop where
  | nil {least greatest : Nat} : Continues least greatest []
  | cons {least greatest : Nat} {byte : UInt8} {bytes : Bytes} :
      least ≤ byte.toNat → byte.toNat ≤ greatest → Continues 0x80 0xBF bytes →
      Continues least greatest (byte :: bytes)

/-- The number that begins with `share` and goes on with the shares of continuation bytes. -/
def codeOnto (share : Nat) (bytes : Bytes) : Nat :=
  bytes.foldl (fun code byte => code * 64 + (byte.toNat - 0x80)) share

namespace Continues

variable {least greatest : Nat} {bytes : Bytes}

theorem isContinuation (continues : Continues least greatest bytes) (above : 0x80 ≤ least)
    (below : greatest ≤ 0xBF) : ∀ byte ∈ bytes, IsContinuation byte := by
  induction continues with
  | nil =>
      intro byte member
      cases member
  | cons atLeast atMost _ ih =>
      intro byte member
      rcases List.mem_cons.mp member with rfl | member
      · exact ⟨Nat.le_trans above atLeast, Nat.le_trans atMost below⟩
      · exact ih (Nat.le_refl _) (Nat.le_refl _) byte member

theorem of_append {first second : Bytes} (continues : Continues least greatest (first ++ second)) :
    Continues least greatest first := by
  induction first generalizing least greatest with
  | nil => exact .nil
  | cons byte first ih =>
      cases continues with
      | cons atLeast atMost continues => exact .cons atLeast atMost (ih continues)

theorem readContinuations_append (continues : Continues least greatest bytes) (share : Nat)
    (rest : Bytes) :
    readContinuations share bytes.length least greatest (bytes ++ rest) =
      (some (codeOnto share bytes), rest) := by
  induction continues generalizing share with
  | nil => rfl
  | cons atLeast atMost _ ih =>
      rw [List.length_cons, List.cons_append, readContinuations, if_pos ⟨atLeast, atMost⟩,
        ih, codeOnto, codeOnto, List.foldl_cons]

theorem readContinuations_of_short (continues : Continues least greatest bytes) {count : Nat}
    (short : bytes.length < count) (share : Nat) :
    readContinuations share count least greatest bytes = (none, []) := by
  induction continues generalizing share count with
  | nil =>
      cases count with
      | zero => cases short
      | succ count => rfl
  | cons atLeast atMost _ ih =>
      cases count with
      | zero => cases short
      | succ count =>
          rw [readContinuations, if_pos ⟨atLeast, atMost⟩]
          exact ih (Nat.lt_of_succ_lt_succ short) _

end Continues

/-! ## First bytes -/

private theorem toNat_byte {value : Nat} (small : value < 256) :
    (UInt8.ofNat value).toNat = value :=
  UInt8.toNat_ofNat_of_lt' small

theorem lead?_of_isContinuation {byte : UInt8} (continuation : IsContinuation byte) :
    lead? byte = none := by
  obtain ⟨above, below⟩ := continuation
  simp only [lead?]
  rw [if_neg (by omega), if_pos (by omega)]

private theorem lead?_one {share : Nat} (small : share < 0x80) :
    lead? (.ofNat share) = some ⟨share, 0, 0x80, 0xBF⟩ := by
  simp only [lead?, toNat_byte (show share < 256 by omega)]
  rw [if_pos small]

private theorem lead?_two {share : Nat} (large : 2 ≤ share) (small : share < 0x20) :
    lead? (.ofNat (0xC0 + share)) = some ⟨share, 1, 0x80, 0xBF⟩ := by
  simp only [lead?, toNat_byte (show 0xC0 + share < 256 by omega)]
  rw [if_neg (by omega), if_neg (by omega), if_pos (by omega), Nat.add_sub_cancel_left]

private theorem lead?_three {share : Nat} (small : share < 0x10) :
    lead? (.ofNat (0xE0 + share)) =
      some ⟨share, 2, if share = 0 then 0xA0 else 0x80, if share = 0xD then 0x9F else 0xBF⟩ := by
  simp only [lead?, toNat_byte (show 0xE0 + share < 256 by omega)]
  rw [if_neg (by omega), if_neg (by omega), if_neg (by omega)]
  by_cases first : share = 0
  · subst first
    rfl
  by_cases surrogate : share = 0xD
  · subst surrogate
    rfl
  rw [if_neg (by omega), if_neg (by omega), if_pos (by omega), if_neg first, if_neg surrogate,
    Nat.add_sub_cancel_left]

private theorem lead?_four {share : Nat} (small : share ≤ 4) :
    lead? (.ofNat (0xF0 + share)) =
      some ⟨share, 3, if share = 0 then 0x90 else 0x80, if share = 4 then 0x8F else 0xBF⟩ := by
  simp only [lead?, toNat_byte (show 0xF0 + share < 256 by omega)]
  rw [if_neg (by omega), if_neg (by omega), if_neg (by omega), if_neg (by omega),
    if_neg (by omega), if_neg (by omega)]
  by_cases first : share = 0
  · subst first
    rfl
  by_cases last : share = 4
  · subst last
    rfl
  rw [if_neg (by omega), if_pos (by omega), if_neg first, if_neg last, Nat.add_sub_cancel_left]

/-! ## One character -/

/-- What the bytes of a character say: the first announces as many bytes as there are behind it, and
these hold the rest of the code point. -/
structure Encodes (char : Char) (byte : UInt8) (lead : Lead) (behind : Bytes) : Prop where
  bytes_eq : encodeChar char = byte :: behind
  announced : lead? byte = some lead
  complete : behind.length = lead.continuations
  continues : Continues lead.least lead.greatest behind
  code_eq : codeOnto lead.share behind = char.toNat
  range : 0x80 ≤ lead.least ∧ lead.greatest ≤ 0xBF

private theorem exists_encodes_two {char : Char} (large : 0x80 ≤ char.toNat)
    (small : char.toNat < 0x800) : ∃ byte lead behind, Encodes char byte lead behind := by
  have bytes_eq : encodeChar char =
      [.ofNat (0xC0 + char.toNat / 64), .ofNat (0x80 + char.toNat % 64)] := by
    simp only [encodeChar, if_neg (Nat.not_lt.mpr large), if_pos small]
  have last := toNat_byte (show 0x80 + char.toNat % 64 < 256 by omega)
  refine ⟨_, _, _, bytes_eq, lead?_two (by omega) (by omega), rfl, ?_, ?_, Nat.le_refl _,
    Nat.le_refl _⟩
  · dsimp only
    exact .cons (by omega) (by omega) .nil
  · simp only [codeOnto, List.foldl, last]
    omega

private theorem exists_encodes_three {char : Char} (large : 0x800 ≤ char.toNat)
    (small : char.toNat < 0x10000) : ∃ byte lead behind, Encodes char byte lead behind := by
  have valid : char.toNat < 0xD800 ∨ (0xDFFF < char.toNat ∧ char.toNat < 0x110000) := char.valid
  have wide : ¬ char.toNat < 0x80 := by omega
  have bytes_eq : encodeChar char = [.ofNat (0xE0 + char.toNat / 4096),
      .ofNat (0x80 + char.toNat / 64 % 64), .ofNat (0x80 + char.toNat % 64)] := by
    simp only [encodeChar, if_neg wide, if_neg (Nat.not_lt.mpr large), if_pos small]
  have middle := toNat_byte (show 0x80 + char.toNat / 64 % 64 < 256 by omega)
  have last := toNat_byte (show 0x80 + char.toNat % 64 < 256 by omega)
  refine ⟨_, _, _, bytes_eq, lead?_three (by omega), rfl, ?_, ?_, ?_, ?_⟩
  · dsimp only
    refine .cons ?_ ?_ (.cons (by omega) (by omega) .nil)
    · rw [middle]
      split <;> omega
    · rw [middle]
      split <;> omega
  · simp only [codeOnto, List.foldl, middle, last]
    omega
  · dsimp only
    split <;> omega
  · dsimp only
    split <;> omega

private theorem exists_encodes_four {char : Char} (large : 0x10000 ≤ char.toNat) :
    ∃ byte lead behind, Encodes char byte lead behind := by
  have valid : char.toNat < 0xD800 ∨ (0xDFFF < char.toNat ∧ char.toNat < 0x110000) := char.valid
  have wide : ¬ char.toNat < 0x80 := by omega
  have wider : ¬ char.toNat < 0x800 := by omega
  have bytes_eq : encodeChar char = [.ofNat (0xF0 + char.toNat / 262144),
      .ofNat (0x80 + char.toNat / 4096 % 64), .ofNat (0x80 + char.toNat / 64 % 64),
      .ofNat (0x80 + char.toNat % 64)] := by
    simp only [encodeChar, if_neg wide, if_neg wider, if_neg (Nat.not_lt.mpr large)]
  have second := toNat_byte (show 0x80 + char.toNat / 4096 % 64 < 256 by omega)
  have third := toNat_byte (show 0x80 + char.toNat / 64 % 64 < 256 by omega)
  have last := toNat_byte (show 0x80 + char.toNat % 64 < 256 by omega)
  refine ⟨_, _, _, bytes_eq, lead?_four (by omega), rfl, ?_, ?_, ?_, ?_⟩
  · dsimp only
    refine .cons ?_ ?_ (.cons (by omega) (by omega) (.cons (by omega) (by omega) .nil))
    · rw [second]
      split <;> omega
    · rw [second]
      split <;> omega
  · simp only [codeOnto, List.foldl, second, third, last]
    omega
  · dsimp only
    split <;> omega
  · dsimp only
    split <;> omega

theorem exists_encodes (char : Char) : ∃ byte lead behind, Encodes char byte lead behind := by
  by_cases one : char.toNat < 0x80
  · exact ⟨_, _, [], if_pos one, lead?_one one, rfl, .nil, rfl, Nat.le_refl _, Nat.le_refl _⟩
  by_cases two : char.toNat < 0x800
  · exact exists_encodes_two (Nat.not_lt.mp one) two
  by_cases three : char.toNat < 0x10000
  · exact exists_encodes_three (Nat.not_lt.mp two) three
  · exact exists_encodes_four (Nat.not_lt.mp three)

namespace Encodes

variable {char : Char} {byte : UInt8} {lead : Lead} {behind : Bytes}

theorem isContinuation (encodes : Encodes char byte lead behind) :
    ∀ other ∈ behind, IsContinuation other :=
  encodes.continues.isContinuation encodes.range.1 encodes.range.2

theorem readUnit_append (encodes : Encodes char byte lead behind) (rest : Bytes) :
    readUnit byte (behind ++ rest) = (some char, rest) := by
  have read := encodes.continues.readContinuations_append lead.share rest
  rw [encodes.complete, encodes.code_eq] at read
  simp only [readUnit, encodes.announced, read, Option.map_some, Char.ofNat_toNat]

theorem readUnit_of_begun {begun missing : Bytes}
    (encodes : Encodes char byte lead (begun ++ missing)) (unfinished : missing ≠ []) :
    readUnit byte begun = (none, []) := by
  have positive := List.length_pos_iff.mpr unfinished
  have complete := encodes.complete
  rw [List.length_append] at complete
  have read := encodes.continues.of_append.readContinuations_of_short
    (show begun.length < lead.continuations by omega) lead.share
  simp only [readUnit, encodes.announced, read, Option.map_none]

end Encodes

/-- A character in two parts, of which neither is empty. -/
structure Broken (char : Char) (begun missing : Bytes) : Prop where
  bytes_eq : encodeChar char = begun ++ missing
  started : begun ≠ []
  unfinished : missing ≠ []

namespace Broken

variable {char : Char} {begun missing : Bytes}

theorem exists_encodes (broken : Broken char begun missing) :
    ∃ byte lead rest, begun = byte :: rest ∧ Encodes char byte lead (rest ++ missing) := by
  obtain ⟨byte, lead, behind, encodes⟩ := Utf8.exists_encodes char
  obtain ⟨first, rest, rfl⟩ := List.exists_cons_of_ne_nil broken.started
  have bytes_eq := encodes.bytes_eq.symm.trans broken.bytes_eq
  obtain ⟨rfl, rfl⟩ := List.cons.inj (bytes_eq.trans List.cons_append)
  exact ⟨byte, lead, rest, rfl, encodes⟩

theorem units_begun (broken : Broken char begun missing) : units begun = [none] := by
  obtain ⟨byte, lead, rest, rfl, encodes⟩ := broken.exists_encodes
  rw [units_cons, encodes.readUnit_of_begun broken.unfinished, units_nil]

theorem isContinuation_missing (broken : Broken char begun missing) :
    ∀ byte ∈ missing, IsContinuation byte := by
  obtain ⟨byte, lead, rest, -, encodes⟩ := broken.exists_encodes
  exact fun other member => encodes.isContinuation other (List.mem_append_right _ member)

/-- Behind its first byte, the beginning of a character has continuation bytes only. -/
theorem isContinuation_begun {first second : Bytes}
    (broken : Broken char (first ++ second) missing) (nonempty : first ≠ []) :
    ∀ byte ∈ second, IsContinuation byte := by
  have earlier : Broken char first (second ++ missing) := by
    refine ⟨?_, nonempty, by simp [broken.unfinished]⟩
    rw [broken.bytes_eq, List.append_assoc]
  exact fun byte member => earlier.isContinuation_missing byte (List.mem_append_left _ member)

end Broken

/-! ## Stretches of a text -/

@[simp] theorem encodeChars_nil : encodeChars [] = [] := rfl

@[simp] theorem encodeChars_cons (char : Char) (chars : List Char) :
    encodeChars (char :: chars) = encodeChar char ++ encodeChars chars := rfl

@[simp] theorem encodeChars_append (left right : List Char) :
    encodeChars (left ++ right) = encodeChars left ++ encodeChars right := by
  simp [encodeChars]

theorem encodeChar_ne_nil (char : Char) : encodeChar char ≠ [] := by
  obtain ⟨byte, lead, behind, encodes⟩ := exists_encodes char
  simp [encodes.bytes_eq]

theorem encodeChars_eq_nil_iff {chars : List Char} : encodeChars chars = [] ↔ chars = [] := by
  cases chars with
  | nil => simp
  | cons char chars => simp [encodeChar_ne_nil]

theorem units_encodeChars_append (chars : List Char) (rest : Bytes) :
    units (encodeChars chars ++ rest) = chars.map some ++ units rest := by
  induction chars with
  | nil => rfl
  | cons char chars ih =>
      obtain ⟨byte, lead, behind, encodes⟩ := exists_encodes char
      rw [encodeChars_cons, encodes.bytes_eq, List.append_assoc, List.cons_append, units_cons,
        encodes.readUnit_append, ih, List.map_cons, List.cons_append]

theorem units_encodeChars (chars : List Char) : units (encodeChars chars) = chars.map some := by
  simpa using units_encodeChars_append chars []

theorem units_append_of_isContinuation {bytes : Bytes}
    (continuation : ∀ byte ∈ bytes, IsContinuation byte) (rest : Bytes) :
    units (bytes ++ rest) = List.replicate bytes.length none ++ units rest := by
  induction bytes with
  | nil => rfl
  | cons byte bytes ih =>
      have fragment : readUnit byte (bytes ++ rest) = (none, bytes ++ rest) := by
        rw [readUnit, lead?_of_isContinuation (continuation byte List.mem_cons_self)]
      rw [List.cons_append, units_cons, fragment,
        ih fun other member => continuation other (List.mem_cons_of_mem _ member)]
      rfl

theorem units_of_isContinuation {bytes : Bytes}
    (continuation : ∀ byte ∈ bytes, IsContinuation byte) :
    units bytes = List.replicate bytes.length none := by
  simpa using units_append_of_isContinuation continuation []

/-- Two parts of an encoded text: cut between two characters, or inside one. -/
inductive Halves : List Char → Bytes → Bytes → Prop where
  | between (before after : List Char) :
      Halves (before ++ after) (encodeChars before) (encodeChars after)
  | inside {char : Char} {begun missing : Bytes} (before after : List Char) :
      Broken char begun missing →
      Halves (before ++ char :: after) (encodeChars before ++ begun) (missing ++ encodeChars after)

theorem Halves.of_append {chars : List Char} {left right : Bytes}
    (whole : encodeChars chars = left ++ right) : Halves chars left right := by
  induction chars generalizing left with
  | nil =>
      obtain ⟨rfl, rfl⟩ := List.append_eq_nil_iff.mp whole.symm
      exact .between [] []
  | cons char chars ih =>
      rw [encodeChars_cons] at whole
      rcases List.append_eq_append_iff.mp whole with ⟨rest, rfl, rest_eq⟩ | ⟨missing, bytes_eq, rfl⟩
      · cases ih rest_eq with
        | between before after => exact .between (char :: before) after
        | inside before after broken =>
            have halves := Halves.inside (char :: before) after broken
            rwa [encodeChars_cons, List.append_assoc] at halves
      · by_cases started : left = []
        · subst started
          rw [List.nil_append] at bytes_eq
          rw [← bytes_eq]
          exact .between [] (char :: chars)
        by_cases unfinished : missing = []
        · subst unfinished
          rw [List.append_nil] at bytes_eq
          have halves := Halves.between [char] chars
          rwa [encodeChars_cons, bytes_eq, encodeChars_nil, List.append_nil] at halves
        · exact .inside [] chars ⟨bytes_eq, started, unfinished⟩

/-- A place, counted in bytes, in front of a character or at the end of a text. -/
def IsBoundary (chars : List Char) (place : Nat) : Prop :=
  ∃ before after, chars = before ++ after ∧ place = (encodeChars before).length

theorem IsBoundary.zero (chars : List Char) : IsBoundary chars 0 :=
  ⟨[], chars, rfl, rfl⟩

theorem any_boundary_iff {chars : List Char} {place : Nat} :
    ((List.range (chars.length + 1)).any fun count =>
      place == (encodeChars (chars.take count)).length) = true ↔ IsBoundary chars place := by
  rw [List.any_eq_true]
  constructor
  · rintro ⟨count, -, same⟩
    exact ⟨chars.take count, chars.drop count, (List.take_append_drop count chars).symm,
      beq_iff_eq.mp same⟩
  · rintro ⟨before, after, rfl, place_eq⟩
    refine ⟨before.length, ?_, ?_⟩
    · rw [List.mem_range, List.length_append]
      omega
    · rw [List.take_left, place_eq]
      exact beq_self_eq_true _

instance (chars : List Char) (place : Nat) : Decidable (IsBoundary chars place) :=
  decidable_of_iff _ any_boundary_iff

theorem IsBoundary.halves {chars : List Char} {left right : Bytes}
    (boundary : IsBoundary chars left.length) (whole : encodeChars chars = left ++ right) :
    ∃ before after, chars = before ++ after ∧ left = encodeChars before ∧
      right = encodeChars after := by
  obtain ⟨before, after, rfl, place⟩ := boundary
  rw [encodeChars_append] at whole
  obtain ⟨left_eq, right_eq⟩ := List.append_inj whole place.symm
  exact ⟨before, after, rfl, left_eq.symm, right_eq.symm⟩

theorem isBoundary_append_iff {before after : List Char} {distance : Nat} :
    IsBoundary (before ++ after) ((encodeChars before).length + distance) ↔
      IsBoundary after distance := by
  constructor
  · rintro ⟨left, right, split, place⟩
    rcases List.append_eq_append_iff.mp split with ⟨inner, rfl, rfl⟩ | ⟨inner, rfl, rfl⟩
    · rw [encodeChars_append, List.length_append] at place
      exact ⟨inner, right, rfl, by omega⟩
    · rw [encodeChars_append, List.length_append] at place
      have none : distance = 0 := by omega
      rw [none]
      exact .zero _
  · rintro ⟨left, right, rfl, rfl⟩
    exact ⟨before ++ left, right, by rw [List.append_assoc], by
      rw [encodeChars_append, List.length_append]⟩

theorem IsBoundary.length (chars : List Char) : IsBoundary chars (encodeChars chars).length :=
  ⟨chars, [], by rw [List.append_nil], rfl⟩

/-! ## Texts in pieces -/

/-- Pieces have a unit or more for each character, and one for each byte left of a character in
front of them. -/
theorem length_le_units {pieces : List Bytes} {rest : Bytes} {chars : List Char}
    (whole : pieces.flatten = rest ++ encodeChars chars)
    (continuation : ∀ byte ∈ rest, IsContinuation byte) :
    rest.length + chars.length ≤ (pieces.flatMap units).length := by
  induction pieces generalizing rest chars with
  | nil =>
      obtain ⟨rfl, empty⟩ := List.append_eq_nil_iff.mp whole.symm
      rw [encodeChars_eq_nil_iff.mp empty]
      exact Nat.le_refl _
  | cons piece pieces ih =>
      rw [List.flatten_cons] at whole
      rw [List.flatMap_cons, List.length_append]
      rcases List.append_eq_append_iff.mp whole with ⟨later, rfl, later_eq⟩ | ⟨part, rfl, part_eq⟩
      · have fragments := units_of_isContinuation fun byte member =>
          continuation byte (List.mem_append_left _ member)
        have further := ih later_eq fun byte member =>
          continuation byte (List.mem_append_right _ member)
        rw [fragments, List.length_replicate, List.length_append]
        omega
      · rw [units_append_of_isContinuation continuation, List.length_append, List.length_replicate]
        generalize behind_eq : pieces.flatten = behind at part_eq
        cases Halves.of_append part_eq with
        | between before after =>
            have further := @ih [] after behind_eq (by simp)
            rw [units_encodeChars, List.length_map, List.length_append]
            rw [List.length_nil] at further
            omega
        | inside before after broken =>
            have further := ih behind_eq broken.isContinuation_missing
            rw [units_encodeChars_append, broken.units_begun]
            simp only [List.length_append, List.length_map, List.length_cons, List.length_nil]
            omega

/-- Pieces without a unit more than the text has characters are cut on boundaries. -/
theorem isBoundary_of_length_units {left right : List Bytes} {chars : List Char}
    (whole : (left ++ right).flatten = encodeChars chars)
    (short : ((left ++ right).flatMap units).length ≤ chars.length) :
    IsBoundary chars left.flatten.length := by
  induction left generalizing chars with
  | nil => exact .zero chars
  | cons piece left ih =>
      rw [List.cons_append, List.flatten_cons] at whole
      rw [List.cons_append, List.flatMap_cons, List.length_append] at short
      rw [List.flatten_cons, List.length_append]
      generalize behind_eq : (left ++ right).flatten = behind at whole
      cases Halves.of_append whole.symm with
      | between before after =>
          rw [units_encodeChars, List.length_map, List.length_append] at short
          exact isBoundary_append_iff.mpr (ih behind_eq (by omega))
      | inside before after broken =>
          -- The character that is cut has a fragment in front of the cut and one behind it.
          have further := length_le_units behind_eq broken.isContinuation_missing
          have positive := List.length_pos_iff.mpr broken.unfinished
          rw [units_encodeChars_append, broken.units_begun] at short
          simp only [List.length_append, List.length_map, List.length_cons,
            List.length_nil] at short
          omega

theorem units_of_isBoundary {pieces : List Bytes} {chars : List Char}
    (whole : pieces.flatten = encodeChars chars)
    (boundaries : ∀ left right, pieces = left ++ right → IsBoundary chars left.flatten.length) :
    pieces.flatMap units = chars.map some := by
  induction pieces generalizing chars with
  | nil =>
      rw [encodeChars_eq_nil_iff.mp whole.symm]
      rfl
  | cons piece pieces ih =>
      have first := boundaries [piece] pieces rfl
      rw [List.flatten_singleton] at first
      obtain ⟨before, after, rfl, piece_eq, pieces_eq⟩ := first.halves whole.symm
      have further := ih pieces_eq (by
        intro left right split
        have later := boundaries (piece :: left) right (congrArg (piece :: ·) split)
        rw [List.flatten_cons, List.length_append, piece_eq] at later
        exact isBoundary_append_iff.mp later)
      rw [List.flatMap_cons, further, piece_eq, units_encodeChars, List.map_append]

theorem toList_decodeLenient (bytes : Bytes) :
    (decodeLenient bytes).toList = (units bytes).map fun unit => unit.getD '\uFFFD' := by
  rw [decodeLenient, String.toList_ofList]

theorem toList_join_decodeLenient (pieces : List Bytes) :
    (String.join (pieces.map decodeLenient)).toList =
      (pieces.flatMap units).map fun unit => unit.getD '\uFFFD' := by
  rw [String.toList_join, List.flatMap_map, List.map_flatMap]
  simp only [toList_decodeLenient]

/-- The texts of pieces are together the whole text if and only if every cut is on a boundary. -/
theorem join_decodeLenient_eq_iff {pieces : List Bytes} {text : String}
    (whole : pieces.flatten = encode text) :
    String.join (pieces.map decodeLenient) = text ↔
      ∀ left right, pieces = left ++ right → IsBoundary text.toList left.flatten.length := by
  constructor
  · rintro joined left right rfl
    refine isBoundary_of_length_units whole (Nat.le_of_eq ?_)
    have same := congrArg (fun joined => joined.toList.length) joined
    rwa [toList_join_decodeLenient, List.length_map] at same
  · intro boundaries
    apply String.toList_injective
    rw [toList_join_decodeLenient, units_of_isBoundary whole boundaries, List.map_map]
    exact List.map_id _

/-! ## Pieces beside a cut -/

private theorem getLast?_replicate_none {bytes : Bytes} (nonempty : bytes ≠ []) :
    (List.replicate bytes.length (none : Option Char)).getLast? = some none := by
  rw [List.getLast?_replicate, if_neg (by simpa using nonempty)]

/-- A piece that ends inside a character ends in a fragment. -/
theorem getLast?_units_of_broken {char : Char} {begun missing earlier piece : Bytes}
    {before : List Char} (broken : Broken char begun missing)
    (whole : earlier ++ piece = encodeChars before ++ begun) (nonempty : piece ≠ []) :
    (units piece).getLast? = some none := by
  rcases List.append_eq_append_iff.mp whole with ⟨middle, before_eq, rfl⟩ | ⟨middle, rfl, begun_eq⟩
  · cases Halves.of_append before_eq with
    | between _ after => simp [units_encodeChars_append, broken.units_begun]
    | inside _ after other =>
        rw [List.append_assoc, units_append_of_isContinuation other.isContinuation_missing,
          units_encodeChars_append, broken.units_begun]
        simp
  · by_cases started : middle = []
    · subst started
      rw [List.nil_append] at begun_eq
      rw [← begun_eq, broken.units_begun]
      rfl
    · subst begun_eq
      rw [units_of_isContinuation (broken.isContinuation_begun started),
        getLast?_replicate_none nonempty]

theorem head?_units_of_isContinuation {byte : UInt8} (continuation : IsContinuation byte)
    (bytes : Bytes) : (units (byte :: bytes)).head? = some none := by
  rw [units_cons, readUnit, lead?_of_isContinuation continuation]
  rfl

/-- On both sides of a cut inside a character there is a fragment at the cut. -/
theorem units_beside_cut {left right : List Bytes} {piece piece' : Bytes} {chars : List Char}
    (whole : (left ++ piece :: piece' :: right).flatten = encodeChars chars)
    (nonempty : piece ≠ []) (nonempty' : piece' ≠ [])
    (inside : ¬ IsBoundary chars (left ++ [piece]).flatten.length) :
    (units piece).getLast? = some none ∧ (units piece').head? = some none := by
  obtain ⟨byte, behind, rfl⟩ := List.exists_cons_of_ne_nil nonempty'
  have parts : encodeChars chars =
      (left ++ [piece]).flatten ++ byte :: (behind ++ right.flatten) := by
    rw [← whole]
    simp
  generalize front_eq : (left ++ [piece]).flatten = front at parts inside
  generalize rest_eq : byte :: (behind ++ right.flatten) = rest at parts
  rw [List.flatten_append, List.flatten_singleton] at front_eq
  cases Halves.of_append parts with
  | between before after => exact absurd ⟨before, after, rfl, rfl⟩ inside
  | inside before after broken =>
      refine ⟨getLast?_units_of_broken broken front_eq nonempty, ?_⟩
      obtain ⟨first, missing, rfl⟩ := List.exists_cons_of_ne_nil broken.unfinished
      obtain ⟨rfl, -⟩ := List.cons.inj (rest_eq.trans List.cons_append)
      exact head?_units_of_isContinuation
        (broken.isContinuation_missing byte List.mem_cons_self) behind

end SqlMemo.Text.Utf8

import SqlMemo.Proofs.Text.Boundaries

/-!
# Strict decoding

Strict decoding accepts exactly what encoding produces. A unit that is a character has been read
from the encoding of this character, since the ranges of continuation bytes leave out every number
that has a shorter form or is no character. So bytes are those of one text at most.
-/

set_option autoImplicit false

namespace SqlMemo.Text.Utf8

/-! ## First bytes -/

/-- The first bytes, by the number of continuation bytes that they announce. -/
private theorem lead?_cases {byte : UInt8} {lead : Lead} (announced : lead? byte = some lead) :
    (byte.toNat < 0x80 ∧ lead.share = byte.toNat ∧ lead.continuations = 0) ∨
    (0xC2 ≤ byte.toNat ∧ byte.toNat < 0xE0 ∧ lead.share = byte.toNat - 0xC0 ∧
      lead.continuations = 1 ∧ 0x80 ≤ lead.least ∧ lead.greatest ≤ 0xBF) ∨
    (0xE0 ≤ byte.toNat ∧ byte.toNat < 0xF0 ∧ lead.share = byte.toNat - 0xE0 ∧
      lead.continuations = 2 ∧ 0x80 ≤ lead.least ∧ lead.greatest ≤ 0xBF ∧
      (byte.toNat = 0xE0 → 0xA0 ≤ lead.least) ∧ (byte.toNat = 0xED → lead.greatest ≤ 0x9F)) ∨
    (0xF0 ≤ byte.toNat ∧ byte.toNat < 0xF5 ∧ lead.share = byte.toNat - 0xF0 ∧
      lead.continuations = 3 ∧ 0x80 ≤ lead.least ∧ lead.greatest ≤ 0xBF ∧
      (byte.toNat = 0xF0 → 0x90 ≤ lead.least) ∧ (byte.toNat = 0xF4 → lead.greatest ≤ 0x8F)) := by
  simp only [lead?] at announced
  grind

/-! ## Characters -/

section

variable {byte : UInt8} {least greatest : Nat} {behind : Bytes}

private theorem toNat_ofNat_code {code : Nat}
    (valid : code < 0xD800 ∨ (0xDFFF < code ∧ code < 0x110000)) :
    (Char.ofNat code).toNat = code := by
  rw [Char.ofNat, dif_pos valid]
  rfl

private theorem ofNat_eq_byte {value : Nat} (same : value = byte.toNat) :
    UInt8.ofNat value = byte := by
  rw [same, UInt8.ofNat_toNat]

private theorem encodeChar_one (small : byte.toNat < 0x80) :
    encodeChar (.ofNat byte.toNat) = [byte] := by
  simp only [encodeChar, toNat_ofNat_code (show byte.toNat < 0xD800 ∨ _ by omega)]
  rw [if_pos small, UInt8.ofNat_toNat]

private theorem encodeChar_two (large : 0xC2 ≤ byte.toNat) (small : byte.toNat < 0xE0)
    (above : 0x80 ≤ least) (below : greatest ≤ 0xBF) (complete : behind.length = 1)
    (continues : Continues least greatest behind) :
    encodeChar (.ofNat (codeOnto (byte.toNat - 0xC0) behind)) = byte :: behind := by
  obtain ⟨last, rfl⟩ := List.length_eq_one_iff.mp complete
  cases continues with
  | cons above' below' _ =>
      generalize code_eq : codeOnto (byte.toNat - 0xC0) [last] = code
      simp only [codeOnto, List.foldl] at code_eq
      have first_eq : UInt8.ofNat (0xC0 + code / 64) = byte := ofNat_eq_byte (by omega)
      have last_eq : UInt8.ofNat (0x80 + code % 64) = last := ofNat_eq_byte (by omega)
      simp only [encodeChar, toNat_ofNat_code (show code < 0xD800 ∨ _ by omega)]
      rw [if_neg (by omega), if_pos (by omega), first_eq, last_eq]

private theorem encodeChar_three (large : 0xE0 ≤ byte.toNat) (small : byte.toNat < 0xF0)
    (above : 0x80 ≤ least) (below : greatest ≤ 0xBF) (shortest : byte.toNat = 0xE0 → 0xA0 ≤ least)
    (noSurrogate : byte.toNat = 0xED → greatest ≤ 0x9F) (complete : behind.length = 2)
    (continues : Continues least greatest behind) :
    encodeChar (.ofNat (codeOnto (byte.toNat - 0xE0) behind)) = byte :: behind := by
  obtain ⟨middle, behind, rfl⟩ := List.exists_cons_of_length_eq_add_one complete
  obtain ⟨last, rfl⟩ := List.length_eq_one_iff.mp (Nat.succ.inj complete)
  cases continues with
  | cons above' below' continues =>
      cases continues with
      | cons above'' below'' _ =>
          generalize code_eq : codeOnto (byte.toNat - 0xE0) [middle, last] = code
          simp only [codeOnto, List.foldl] at code_eq
          have first_eq : UInt8.ofNat (0xE0 + code / 4096) = byte := ofNat_eq_byte (by omega)
          have middle_eq : UInt8.ofNat (0x80 + code / 64 % 64) = middle := ofNat_eq_byte (by omega)
          have last_eq : UInt8.ofNat (0x80 + code % 64) = last := ofNat_eq_byte (by omega)
          simp only [encodeChar, toNat_ofNat_code (show code < 0xD800 ∨ _ by omega)]
          rw [if_neg (by omega), if_neg (by omega), if_pos (by omega), first_eq, middle_eq, last_eq]

private theorem encodeChar_four (large : 0xF0 ≤ byte.toNat) (small : byte.toNat < 0xF5)
    (above : 0x80 ≤ least) (below : greatest ≤ 0xBF) (shortest : byte.toNat = 0xF0 → 0x90 ≤ least)
    (inside : byte.toNat = 0xF4 → greatest ≤ 0x8F) (complete : behind.length = 3)
    (continues : Continues least greatest behind) :
    encodeChar (.ofNat (codeOnto (byte.toNat - 0xF0) behind)) = byte :: behind := by
  obtain ⟨second, behind, rfl⟩ := List.exists_cons_of_length_eq_add_one complete
  obtain ⟨third, behind, rfl⟩ := List.exists_cons_of_length_eq_add_one (Nat.succ.inj complete)
  obtain ⟨last, rfl⟩ := List.length_eq_one_iff.mp (Nat.succ.inj (Nat.succ.inj complete))
  cases continues with
  | cons above' below' continues =>
      cases continues with
      | cons above'' below'' continues =>
          cases continues with
          | cons above''' below''' _ =>
              generalize code_eq : codeOnto (byte.toNat - 0xF0) [second, third, last] = code
              simp only [codeOnto, List.foldl] at code_eq
              have first_eq : UInt8.ofNat (0xF0 + code / 262144) = byte := ofNat_eq_byte (by omega)
              have second_eq : UInt8.ofNat (0x80 + code / 4096 % 64) = second :=
                ofNat_eq_byte (by omega)
              have third_eq : UInt8.ofNat (0x80 + code / 64 % 64) = third := ofNat_eq_byte (by omega)
              have last_eq : UInt8.ofNat (0x80 + code % 64) = last := ofNat_eq_byte (by omega)
              simp only [encodeChar, toNat_ofNat_code (show code < 0xD800 ∨ _ by omega)]
              rw [if_neg (by omega), if_neg (by omega), if_neg (by omega), first_eq, second_eq,
                third_eq, last_eq]

/-- What a first byte announces and the bytes behind it complete is the encoding of a character. -/
theorem encodeChar_of_announced {lead : Lead} (announced : lead? byte = some lead)
    (complete : behind.length = lead.continuations)
    (continues : Continues lead.least lead.greatest behind) :
    encodeChar (.ofNat (codeOnto lead.share behind)) = byte :: behind := by
  rcases lead?_cases announced with
    ⟨small, share_eq, count_eq⟩ | ⟨large, small, share_eq, count_eq, above, below⟩ |
    ⟨large, small, share_eq, count_eq, above, below, shortest, noSurrogate⟩ |
    ⟨large, small, share_eq, count_eq, above, below, shortest, inside⟩
  all_goals rw [count_eq] at complete; rw [share_eq]
  · obtain rfl := List.length_eq_zero_iff.mp complete
    exact encodeChar_one small
  · exact encodeChar_two large small above below complete continues
  · exact encodeChar_three large small above below shortest noSurrogate complete continues
  · exact encodeChar_four large small above below shortest inside complete continues

end

/-! ## Units -/

theorem readContinuations_eq_some {share count least greatest code : Nat} {bytes rest : Bytes}
    (read : readContinuations share count least greatest bytes = (some code, rest)) :
    ∃ behind, bytes = behind ++ rest ∧ behind.length = count ∧ Continues least greatest behind ∧
      codeOnto share behind = code := by
  induction count generalizing share least greatest bytes with
  | zero =>
      obtain ⟨code_eq, rfl⟩ := Prod.mk.inj read
      exact ⟨[], rfl, rfl, .nil, Option.some.inj code_eq⟩
  | succ count ih =>
      cases bytes with
      | nil => cases read
      | cons byte bytes =>
          rw [readContinuations] at read
          split at read
          · rename_i within
            obtain ⟨behind, rfl, length_eq, continues, code_eq⟩ := ih read
            refine ⟨byte :: behind, rfl, by rw [List.length_cons, length_eq],
              .cons within.1 within.2 continues, ?_⟩
            rw [← code_eq, codeOnto, codeOnto, List.foldl_cons]
          · cases read

theorem readUnit_eq_some {byte : UInt8} {bytes rest : Bytes} {char : Char}
    (read : readUnit byte bytes = (some char, rest)) :
    byte :: bytes = encodeChar char ++ rest := by
  unfold readUnit at read
  split at read
  · cases read
  · rename_i lead announced
    generalize continued : readContinuations lead.share lead.continuations lead.least lead.greatest
      bytes = result at read
    obtain ⟨code?, rest'⟩ := result
    obtain ⟨char_eq, rfl⟩ := Prod.mk.inj read
    obtain ⟨code, rfl, rfl⟩ := Option.map_eq_some_iff.mp char_eq
    obtain ⟨behind, rfl, complete, continues, rfl⟩ := readContinuations_eq_some continued
    rw [encodeChar_of_announced announced complete continues, List.cons_append]

/-- Bytes whose units are all characters are the encoding of these. -/
theorem encodeChars_of_units {chars : List Char} {bytes : Bytes}
    (whole : units bytes = chars.map some) : encodeChars chars = bytes := by
  induction chars generalizing bytes with
  | nil =>
      cases bytes with
      | nil => rfl
      | cons byte bytes =>
          rw [units_cons] at whole
          cases whole
  | cons char chars ih =>
      cases bytes with
      | nil =>
          rw [units_nil] at whole
          cases whole
      | cons byte bytes =>
          rw [units_cons, List.map_cons] at whole
          obtain ⟨first, others⟩ := List.cons.inj whole
          rw [encodeChars_cons, ih others]
          exact (readUnit_eq_some (Prod.ext first rfl)).symm

/-! ## Texts -/

private theorem map_some_of_all {read : List (Option Char)}
    (whole : read.all Option.isSome = true) : (read.filterMap id).map some = read := by
  induction read with
  | nil => rfl
  | cons unit read ih =>
      obtain ⟨first, others⟩ := Bool.and_eq_true_iff.mp (List.all_cons ▸ whole)
      obtain ⟨char, rfl⟩ := Option.isSome_iff_exists.mp first
      rw [List.filterMap_cons_some (rfl : id (some char) = some char), List.map_cons, ih others]

theorem decode?_encodeChars (chars : List Char) :
    decode? (encodeChars chars) = some (String.ofList chars) := by
  have whole : (chars.map some).all Option.isSome = true := by simp
  have read : (chars.map some).filterMap id = chars := by simp
  simp only [decode?, units_encodeChars, whole, read, if_true]

/-- The only bytes that are decoded to a text are those that it is encoded to. -/
theorem decode?_eq_some_iff {bytes : Bytes} {text : String} :
    decode? bytes = some text ↔ bytes = encode text := by
  constructor
  · intro decoded
    rw [decode?] at decoded
    split at decoded
    · rename_i whole
      obtain rfl := Option.some.inj decoded
      rw [encode, String.toList_ofList]
      exact (encodeChars_of_units (map_some_of_all whole).symm).symm
    · cases decoded
  · rintro rfl
    rw [encode, decode?_encodeChars, String.ofList_toList]

end SqlMemo.Text.Utf8

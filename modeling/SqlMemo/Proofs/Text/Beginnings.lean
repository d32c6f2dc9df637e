import SqlMemo.Proofs.Text.Decoding

/-!
# Beginnings of texts

Bytes cut from an encoded text are a text again exactly if the cut is behind the end of the text or
at one of its valid positions.
-/

set_option autoImplicit false

namespace SqlMemo.Text.Utf8

/-! ## Sizes -/

theorem encodeChar_eq (char : Char) : encodeChar char = String.utf8EncodeChar char := by
  have valid : char.toNat < 0xD800 ∨ (0xDFFF < char.toNat ∧ char.toNat < 0x110000) := char.valid
  have code_eq : char.val.toNat = char.toNat := rfl
  simp only [encodeChar, String.utf8EncodeChar.eq_1, code_eq]
  by_cases one : char.toNat < 0x80
  · rw [if_pos one, if_pos (by omega)]
  by_cases two : char.toNat < 0x800
  · have lead : char.toNat / 64 % 32 = char.toNat / 64 := Nat.mod_eq_of_lt (by omega)
    rw [if_neg one, if_pos two, if_neg (by omega), if_pos (by omega), lead, Nat.add_comm 0xC0,
      Nat.add_comm 0x80]
  by_cases three : char.toNat < 0x10000
  · have lead : char.toNat / 4096 % 16 = char.toNat / 4096 := Nat.mod_eq_of_lt (by omega)
    rw [if_neg one, if_neg two, if_pos three, if_neg (by omega), if_neg (by omega),
      if_pos (by omega), lead, Nat.add_comm 0xE0, Nat.add_comm 0x80, Nat.add_comm 0x80]
  · have lead : char.toNat / 262144 % 8 = char.toNat / 262144 := Nat.mod_eq_of_lt (by omega)
    rw [if_neg one, if_neg two, if_neg three, if_neg (by omega), if_neg (by omega),
      if_neg (by omega), lead, Nat.add_comm 0xF0, Nat.add_comm 0x80, Nat.add_comm 0x80,
      Nat.add_comm 0x80]

theorem toByteArray_encode (text : String) : (encode text).toByteArray = text.toByteArray := by
  rw [← String.utf8Encode_toList, List.utf8Encode, encode, encodeChars, funext encodeChar_eq]

theorem length_encode (text : String) : (encode text).length = text.utf8ByteSize := by
  rw [← String.size_toByteArray, ← toByteArray_encode, List.size_toByteArray]

theorem length_encodeChars (chars : List Char) :
    (encodeChars chars).length = (String.ofList chars).utf8ByteSize := by
  rw [← length_encode, encode, String.toList_ofList]

/-- The boundaries of a text are its valid positions. -/
theorem isBoundary_iff_isValid {text : String} {place : Nat} :
    IsBoundary text.toList place ↔ String.Pos.Raw.IsValid text ⟨place⟩ := by
  rw [String.Pos.Raw.isValid_iff_exists_append]
  constructor
  · rintro ⟨before, after, split, rfl⟩
    refine ⟨String.ofList before, String.ofList after, ?_, ?_⟩
    · rw [← String.ofList_append, ← split, String.ofList_toList]
    · rw [length_encodeChars]
      rfl
  · rintro ⟨before, after, rfl, place_eq⟩
    refine ⟨before.toList, after.toList, String.toList_append, ?_⟩
    rw [length_encodeChars, String.ofList_toList]
    exact congrArg String.Pos.Raw.byteIdx place_eq

/-! ## Beginnings of a text -/

theorem decode?_of_broken {char : Char} {begun missing : Bytes}
    (broken : Broken char begun missing) (before : List Char) :
    decode? (encodeChars before ++ begun) = none := by
  have fragment : (before.map some ++ [none]).all Option.isSome = false := by simp
  simp only [decode?, units_encodeChars_append, broken.units_begun, fragment, Bool.false_eq_true,
    if_false]

/-- The beginning of an encoded text is an encoded text itself, or it ends inside a character and is
none. -/
theorem decode?_cases {chars : List Char} {left right : Bytes}
    (whole : encodeChars chars = left ++ right) :
    (∃ before after, chars = before ++ after ∧ left = encodeChars before ∧
      decode? left = some (String.ofList before)) ∨
    (¬ IsBoundary chars left.length ∧ decode? left = none) := by
  by_cases boundary : IsBoundary chars left.length
  · obtain ⟨before, after, split, left_eq, -⟩ := boundary.halves whole
    exact .inl ⟨before, after, split, left_eq, left_eq ▸ decode?_encodeChars before⟩
  · refine .inr ⟨boundary, ?_⟩
    cases Halves.of_append whole with
    | between before after => exact absurd ⟨before, after, rfl, rfl⟩ boundary
    | inside before after broken => exact decode?_of_broken broken before

/-- A text that is cut to a number of bytes, which is behind its end or a valid position of it, is a
text again. Cut anywhere else, it is none. -/
theorem decode?_take_cases (text : String) (count : Nat) :
    let cut := decode? ((encode text).take count)
    let fits := text.utf8ByteSize ≤ count ∨ String.Pos.Raw.IsValid text ⟨count⟩
    (fits ∧ ∃ first rest, text = first ++ rest ∧
      first.utf8ByteSize = min count text.utf8ByteSize ∧ cut = some first) ∨
    (¬ fits ∧ cut = none) := by
  intro cut fits
  have length_eq : ((encode text).take count).length = min count text.utf8ByteSize := by
    rw [List.length_take, length_encode]
  rcases decode?_cases (List.take_append_drop count (encode text)).symm with
    ⟨before, after, split, left_eq, decodes⟩ | ⟨inside, fails⟩
  · left
    have size : (String.ofList before).utf8ByteSize = min count text.utf8ByteSize := by
      rw [← length_encodeChars, ← left_eq, length_eq]
    have text_eq : text = String.ofList before ++ String.ofList after := by
      rw [← String.ofList_append, ← split, String.ofList_toList]
    refine ⟨?_, _, _, text_eq, size, decodes⟩
    by_cases long : text.utf8ByteSize ≤ count
    · exact .inl long
    · right
      rw [String.Pos.Raw.isValid_iff_exists_append]
      refine ⟨_, _, text_eq, ?_⟩
      rw [String.rawEndPos, size, Nat.min_eq_left (Nat.le_of_not_le long)]
  · refine .inr ⟨?_, fails⟩
    rw [length_eq] at inside
    rintro (long | valid)
    · rw [Nat.min_eq_right long, ← length_encode] at inside
      exact inside (.length text.toList)
    · have within : count ≤ text.utf8ByteSize := valid.le_rawEndPos
      rw [Nat.min_eq_left within, isBoundary_iff_isValid] at inside
      exact inside valid

end SqlMemo.Text.Utf8

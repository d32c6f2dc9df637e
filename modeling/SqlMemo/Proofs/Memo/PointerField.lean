import SqlMemo.Memo.Pointer
import SqlMemo.Proofs.Bytes

/-!
# Memo pointers in fields

The pointer of a memo is found from the end of its field, so every leader can stand before it.
-/

set_option autoImplicit false

namespace SqlMemo.MemoPointer

/-- The ten bytes of a pointer. -/
def encoded (address length : UInt32) (modification : UInt16) : Bytes :=
  Bytes.ofNat 4 address.toNat ++ (Bytes.ofNat 4 length.toNat ++ Bytes.ofNat 2 modification.toNat)

theorem ofField_of_holdsAt {field : Bytes} {start : Nat} {address length : UInt32}
    {modification : UInt16} (holds : field.HoldsAt start (encoded address length modification))
    (ends : field.length = start + size) :
    ofField field = .ok ⟨if start = 0 then none else some (field.take start), address, length,
      modification⟩ := by
  have start_eq : field.length - size = start := Nat.sub_eq_of_eq_add ends
  have address_eq : (field.window start 4).toNat = address.toNat :=
    holds.left.toNat_window_eq address.toNat_lt
  have length_eq : (field.window (start + 4) 4).toNat = length.toNat :=
    holds.right.left.toNat_window_eq length.toNat_lt
  have modification_eq : (field.window (start + 8) 2).toNat = modification.toNat :=
    holds.right.right.toNat_window_eq modification.toNat_lt
  rw [ofField, if_neg (by omega)]
  simp only [start_eq, address_eq, length_eq, modification_eq, UInt32.ofNat_toNat,
    UInt16.ofNat_toNat]

/-- A leader without bytes is none. -/
theorem ofField_append (leader : Bytes) (address length : UInt32) (modification : UInt16) :
    ofField (leader ++ encoded address length modification) =
      .ok ⟨if leader = [] then none else some leader, address, length, modification⟩ := by
  have ends : (leader ++ encoded address length modification).length = leader.length + size := by
    simp only [encoded, List.length_append, Bytes.length_ofNat, size]
  rw [ofField_of_holdsAt (.append_self leader _) ends, List.take_left]
  simp only [List.length_eq_zero_iff]

theorem toField_eq_append (pointer : MemoPointer) :
    pointer.toField =
      pointer.leader.getD [] ++ encoded pointer.address pointer.length pointer.modification := by
  simp only [toField, encoded, List.append_assoc]

/-- Any ten bytes are a pointer. -/
theorem exists_encoded {bytes : Bytes} (ten : bytes.length = size) :
    ∃ address length modification, encoded address length modification = bytes := by
  have first : (bytes.take 4).length = 4 := by
    rw [List.length_take, ten]
    decide
  have second : ((bytes.drop 4).take 4).length = 4 := by
    rw [List.length_take, List.length_drop, ten]
    decide
  have third : ((bytes.drop 4).drop 4).length = 2 := by
    rw [List.length_drop, List.length_drop, ten]
    decide
  obtain ⟨address, address_lt, address_eq⟩ := Bytes.exists_ofNat first
  obtain ⟨length, length_lt, length_eq⟩ := Bytes.exists_ofNat second
  obtain ⟨modification, modification_lt, modification_eq⟩ := Bytes.exists_ofNat third
  refine ⟨.ofNat address, .ofNat length, .ofNat modification, ?_⟩
  rw [encoded, UInt32.toNat_ofNat_of_lt' address_lt, UInt32.toNat_ofNat_of_lt' length_lt,
    UInt16.toNat_ofNat_of_lt' modification_lt, address_eq, length_eq, modification_eq,
    List.take_append_drop, List.take_append_drop]

/-- A field with room for a pointer ends in one. -/
theorem exists_append_encoded {field : Bytes} (room : size ≤ field.length) :
    ∃ leader address length modification,
      field = leader ++ encoded address length modification := by
  have ten : (field.drop (field.length - size)).length = size := by
    rw [List.length_drop]
    omega
  obtain ⟨address, length, modification, pointer_eq⟩ := exists_encoded ten
  refine ⟨field.take (field.length - size), address, length, modification, ?_⟩
  rw [pointer_eq, List.take_append_drop]

theorem ofField_toField {pointer : MemoPointer} (present : pointer.leader ≠ some []) :
    ofField pointer.toField = .ok pointer := by
  obtain ⟨leader, address, length, modification⟩ := pointer
  rw [toField_eq_append, ofField_append]
  cases leader with
  | none => rfl
  | some leader =>
      have nonempty : leader ≠ [] := fun empty => present (congrArg some empty)
      simp only [Option.getD_some, if_neg nonempty]

theorem ofField_of_short {field : Bytes} (short : field.length < size) :
    ofField field = .error .invalidPointer :=
  if_pos short

/-- A field with room for a pointer reads as the pointer that is written as this field. -/
theorem exists_ofField {field : Bytes} (room : size ≤ field.length) :
    ∃ pointer, ofField field = .ok pointer ∧ pointer.leader ≠ some [] ∧
      pointer.toField = field := by
  obtain ⟨leader, address, length, modification, rfl⟩ := exists_append_encoded room
  refine ⟨_, ofField_append leader address length modification, ?_, ?_⟩
  · split
    · simp
    · rename_i nonempty
      simpa using nonempty
  · rw [toField_eq_append]
    split
    · rename_i empty
      rw [empty]
      rfl
    · rfl

theorem ofField_eq_ok_iff {field : Bytes} {pointer : MemoPointer} :
    ofField field = .ok pointer ↔ pointer.leader ≠ some [] ∧ pointer.toField = field := by
  constructor
  · intro reads
    rcases Nat.lt_or_ge field.length size with short | room
    · rw [ofField_of_short short] at reads
      cases reads
    · obtain ⟨found, reads', written⟩ := exists_ofField room
      obtain rfl := Except.ok.inj (reads'.symm.trans reads)
      exact written
  · rintro ⟨present, rfl⟩
    exact ofField_toField present

/-- Reading and writing the pointer of a memo are inverse to one another: between the fields that
have ten bytes or more, and the pointers whose leader is none or has some bytes. No other field
reads as a pointer. -/
theorem fields_of_pointers :
    (∀ field : Bytes,
      ((∃ pointer, ofField field = .ok pointer) ↔ 10 ≤ field.length) ∧
      (ofField field = .error .invalidPointer ↔ field.length < 10) ∧
      ∀ pointer, ofField field = .ok pointer ↔
        pointer.leader ≠ some [] ∧ pointer.toField = field) ∧
    ∀ pointer : MemoPointer,
      pointer.toField = pointer.leader.getD [] ++ (Bytes.ofNat 4 pointer.address.toNat ++
        (Bytes.ofNat 4 pointer.length.toNat ++ Bytes.ofNat 2 pointer.modification.toNat)) ∧
      (ofField pointer.toField = .ok pointer ↔ pointer.leader ≠ some []) := by
  refine ⟨fun field => ⟨?_, ?_, fun pointer => ofField_eq_ok_iff⟩,
    fun pointer => ⟨toField_eq_append pointer, ?_⟩⟩
  · constructor
    · rintro ⟨pointer, reads⟩
      by_contra short
      rw [ofField_of_short (Nat.not_le.mp short)] at reads
      cases reads
    · intro room
      obtain ⟨pointer, reads, -⟩ := exists_ofField room
      exact ⟨pointer, reads⟩
  · constructor
    · intro refused
      by_contra room
      obtain ⟨pointer, reads, -⟩ := exists_ofField (Nat.not_lt.mp room)
      rw [reads] at refused
      cases refused
    · exact ofField_of_short
  · rw [ofField_eq_ok_iff]
    exact ⟨And.left, fun present => ⟨present, rfl⟩⟩

end SqlMemo.MemoPointer

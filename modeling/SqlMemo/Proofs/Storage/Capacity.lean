import SqlMemo.Proofs.Bytes
import SqlMemo.Proofs.Storage.Decoding

/-!
# The capacity of slots

The table of a shared block records for each blob the units that it takes up and how many bytes it
has in the last of them. Reading goes by the units alone, so a request can reach beyond the recorded
length, into what is left of the last unit.
-/

set_option autoImplicit false

namespace SqlMemo

theorem BlobFile.decodeAt_eq_corruptBlock_iff {bytes : Bytes} {offset slot length : Nat}
    (long : offset + 3 ≤ bytes.length) :
    (∃ corruption, decodeAt bytes offset slot length = .error (.corruptBlock offset corruption)) ↔
      ∀ data, decodeAt bytes offset slot length ≠ .ok data := by
  have decode_long : decodeAt bytes offset slot length = _ := if_neg (Nat.not_lt.mpr long)
  rw [decode_long]
  generalize (if bytes[offset]?.getD 0 = 2 then _ else _ : Except Corruption Bytes) = outcome
  cases outcome with
  | ok data =>
      constructor
      · rintro ⟨corruption, fails⟩
        cases fails
      · intro refused
        exact absurd rfl (refused data)
  | error corruption =>
      constructor
      · intro _ data succeeds
        cases succeeds
      · intro _
        exact ⟨corruption, rfl⟩

namespace Block

/-- The length that a table entry records, by a number of units and the number of bytes in the last
of them, where zero stands for all. -/
def recordedLength (units remainder : UInt8) : Nat :=
  if 0 < remainder.toNat then 16 * (units.toNat - 1) + remainder.toNat else 16 * units.toNat

/-- A shared block at `offset` with a table entry for the blob in a slot. -/
structure HoldsEntry (bytes : Bytes) (offset slot : Nat) (start units low high remainder : UInt8) :
    Prop where
  shared : bytes[offset]? = some 3
  slot_lt : slot < 64
  entry : bytes.HoldsAt (offset + 12 + 5 * slot) [start, units, low, high, remainder]
  occupied : 1 ≤ units.toNat
  remainder_lt : remainder.toNat < 16

namespace HoldsEntry

variable {bytes : Bytes} {offset slot : Nat} {start units low high remainder : UInt8}

/-- The recorded length ends in the last unit. -/
theorem lt_recordedLength_add
    (holds : HoldsEntry bytes offset slot start units low high remainder) :
    16 * units.toNat < recordedLength units remainder + 16 := by
  have occupied := holds.occupied
  unfold recordedLength
  split <;> omega

theorem extent_eq (holds : HoldsEntry bytes offset slot start units low high remainder) :
    extent bytes offset = 4096 := by
  have other : bytes[offset]? ≠ some singleType := by
    rw [holds.shared]
    decide
  rw [extent, if_neg other, chunkSize]

theorem entry_le (holds : HoldsEntry bytes offset slot start units low high remainder) :
    offset + 12 + 5 * slot + 5 ≤ bytes.length :=
  holds.entry.length_le (List.cons_ne_nil _ _)

theorem start_eq (holds : HoldsEntry bytes offset slot start units low high remainder) :
    bytes[offset + 12 + 5 * slot]?.getD 0 = start := by
  rw [holds.entry.getElem?_eq, Option.getD_some]

theorem units_eq (holds : HoldsEntry bytes offset slot start units low high remainder) :
    bytes[offset + 12 + 5 * slot + 1]?.getD 0 = units := by
  have entry : bytes.HoldsAt (offset + 12 + 5 * slot) ([start] ++ [units, low, high, remainder]) :=
    holds.entry
  have second : bytes[offset + 12 + 5 * slot + 1]? = some units := entry.right.getElem?_eq
  rw [second, Option.getD_some]

/-- What a slot gives is decided by its units and by the end of the block, and by nothing else that
its entry says. -/
theorem decodeAt_eq_ok_iff (holds : HoldsEntry bytes offset slot start units low high remainder)
    {length : Nat} {data : Bytes} :
    BlobFile.decodeAt bytes offset slot length = .ok data ↔
      length ≤ 16 * units.toNat ∧
      offset + 16 * start.toNat + length ≤ min bytes.length (offset + 4096) ∧
      data = bytes.window (offset + 16 * start.toNat) length := by
  have entry_le := holds.entry_le
  have slot_lt := holds.slot_lt
  have occupied := holds.occupied
  rw [BlobFile.decodeAt_eq_ok_iff, sharedAt_eq_ok_iff, holds.shared, holds.start_eq, holds.units_eq,
    holds.extent_eq]
  constructor
  · rintro ⟨-, ⟨single, -⟩ | ⟨-, -, -, -, short, inside, content⟩⟩
    · cases single
    · exact ⟨short, inside, content⟩
  · rintro ⟨short, inside, content⟩
    exact ⟨by omega, .inr ⟨rfl, slot_lt, by omega, by omega, short, inside, content⟩⟩

theorem refuses_iff (holds : HoldsEntry bytes offset slot start units low high remainder)
    {length : Nat} :
    (∃ corruption, BlobFile.decodeAt bytes offset slot length =
        .error (.corruptBlock offset corruption)) ↔
      16 * units.toNat < length ∨
        min bytes.length (offset + 4096) < offset + 16 * start.toNat + length := by
  have entry_le := holds.entry_le
  rw [BlobFile.decodeAt_eq_corruptBlock_iff (by omega)]
  constructor
  · intro refused
    have not_ok := mt holds.decodeAt_eq_ok_iff.mpr
      (refused (bytes.window (offset + 16 * start.toNat) length))
    simp only [and_true] at not_ok
    omega
  · intro large data succeeds
    obtain ⟨short, inside, -⟩ := holds.decodeAt_eq_ok_iff.mp succeeds
    omega

end HoldsEntry

end Block

namespace BlobFile

open Block in
/-- A request beyond the length that the table records is refused if it is beyond the units of the
blob or beyond the end of the block, and so always if the last unit is full. In no other case is it
refused: then the answer goes on behind the blob, for less than a unit. -/
theorem read_beyond_recorded {bytes : Bytes} {address : UInt32}
    {start units low high remainder : UInt8}
    (holds : HoldsEntry bytes (address &&& 0xFFFFFF00).toNat (address &&& 0xFF).toNat start units
      low high remainder)
    {length : UInt32} (beyond : recordedLength units remainder < length.toNat)
    (reads : List (UInt32 × UInt32)) :
    let file := (ofMedium (.ofBytes bytes)).after
      (reads.map fun earlier => .read earlier.1 earlier.2)
    let offset := (address &&& 0xFFFFFF00).toNat
    let begins := offset + 16 * start.toNat
    let recorded := recordedLength units remainder
    let result := (file.read address length).1
    ((∃ corruption, result = .error (.corruptBlock offset corruption)) ↔
      16 * units.toNat < length.toNat ∨
        min bytes.length (offset + 4096) < begins + length.toNat) ∧
    (remainder = 0 → ∃ corruption, result = .error (.corruptBlock offset corruption)) ∧
    ∀ data, result = .ok data → length.toNat < recorded + 16 ∧
      data = bytes.window begins recorded ++
        bytes.window (begins + recorded) (length.toNat - recorded) := by
  intro file offset begins recorded result
  have faithful : Faithful bytes file := (Faithful.ofBytes bytes).after_reads reads
  have decoded : result = decodeAt bytes offset (address &&& 0xFF).toNat length.toNat := by
    rw [show offset = blockOffset address from and_mask_eq_blockOffset address,
      and_mask_eq_slot address]
    exact faithful.read_eq_decodeAt address length
  rw [decoded]
  refine ⟨holds.refuses_iff, ?_, ?_⟩
  · rintro rfl
    exact holds.refuses_iff.mpr (.inl beyond)
  · intro data succeeds
    obtain ⟨short, inside, rfl⟩ := holds.decodeAt_eq_ok_iff.mp succeeds
    have last := holds.lt_recordedLength_add
    have whole : (bytes.window begins recorded).length = recorded := by
      rw [Bytes.length_window]
      omega
    have parts := bytes.window_append_window begins recorded (length.toNat - recorded)
    rw [whole, Nat.add_sub_cancel' (Nat.le_of_lt beyond)] at parts
    exact ⟨by omega, parts.symm⟩

/-- A shared block at 256 with a blob of five bytes, which are what its entry records. -/
def fiveInUnit : Bytes :=
  List.replicate 256 0 ++ ([3, 1, 0] ++ List.replicate 9 0 ++ [21, 1, 1, 0, 5] ++
    List.replicate 319 0 ++ [102, 105, 114, 115, 116] ++ List.replicate 11 0)

theorem holdsEntry_fiveInUnit : Block.HoldsEntry fiveInUnit 256 0 21 1 1 0 5 :=
  ⟨by decide +kernel, by decide, by decide +kernel, by decide, by decide⟩

/-- Of the blob of five bytes 17 are refused. -/
theorem read_beyond_recorded_first :
    Block.HoldsEntry fiveInUnit 256 0 21 1 1 0 5 ∧ Block.recordedLength 1 5 < 17 ∧
    ∃ corruption, ((ofMedium (.ofBytes fiveInUnit)).read 256 17).1 =
      .error (.corruptBlock 256 corruption) := by
  have holds := holdsEntry_fiveInUnit
  have beyond : Block.recordedLength 1 5 < (17 : UInt32).toNat := by decide
  exact ⟨holds, beyond,
    (@read_beyond_recorded fiveInUnit 256 21 1 1 0 5 holds 17 beyond []).1.mpr
      (.inl (by decide))⟩

/-- The sixth byte of the blob of five is one from behind it. -/
theorem read_answers_beyond_recorded :
    ¬ ∀ (bytes : Bytes) (address length : UInt32) (start units low high remainder : UInt8),
      Block.HoldsEntry bytes (address &&& 0xFFFFFF00).toNat (address &&& 0xFF).toNat start units
        low high remainder →
      Block.recordedLength units remainder < length.toNat →
      ∃ corruption, ((ofMedium (.ofBytes bytes)).read address length).1 =
        .error (.corruptBlock (address &&& 0xFFFFFF00).toNat corruption) := by
  intro refuses
  have holds := holdsEntry_fiveInUnit
  have beyond : Block.recordedLength 1 5 < (6 : UInt32).toNat := by decide
  obtain ⟨corruption, refused⟩ := refuses fiveInUnit 256 6 21 1 1 0 5 holds beyond
  have content : ((ofMedium (.ofBytes fiveInUnit)).read 256 6).1 =
      .ok [102, 105, 114, 115, 116, 0] := by
    rw [(Faithful.ofBytes fiveInUnit).read_eq_decodeAt]
    exact holds.decodeAt_eq_ok_iff.mpr ⟨by decide, by decide +kernel, by decide +kernel⟩
  rw [content] at refused
  cases refused

end BlobFile

end SqlMemo

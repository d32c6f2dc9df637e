import SqlMemo.Proofs.Storage.Snapshots

/-!
# Decoding a file of blobs

What a blob file in good order holds at an address, said by positions in the file alone. Reading
gives just that, whatever has been read before.
-/

set_option autoImplicit false

namespace SqlMemo

namespace Block

/-! ## By positions in the file -/

/-- The first `length` bytes of the single blob in a block that lasts from `offset` to `stop`. -/
def singleAt (bytes : Bytes) (offset stop slot length : Nat) : Except Corruption Bytes :=
  let stored := (bytes.window (offset + 3) 4).toNat
  if slot ≠ 255 then .error (.slotInSingleBlob slot)
  else if stop < offset + 7 then .error .truncatedHeader
  else if stored < length then .error (.beyondBlob length stored)
  else if stop < offset + 9 + length then .error .beyondFile
  else .ok (bytes.window (offset + 9) length)

/-- The first `length` bytes of the blob in a slot of a shared block that lasts from `offset` to
`stop`. -/
def sharedAt (bytes : Bytes) (offset stop slot length : Nat) : Except Corruption Bytes :=
  let entry := offset + 12 + 5 * slot
  let start := (bytes[entry]?.getD 0).toNat
  let units := (bytes[entry + 1]?.getD 0).toNat
  if 64 ≤ slot then .error (.slotOutOfRange slot)
  else if stop < entry + 5 then .error .truncatedTable
  else if units = 0 then .error (.emptySlot slot)
  else if 16 * units < length then .error (.beyondSlot length slot (16 * units))
  else if stop < offset + 16 * start + length then .error .beyondFile
  else .ok (bytes.window (offset + 16 * start) length)

theorem singleAt_eq_ok_iff {bytes : Bytes} {offset stop slot length : Nat} {data : Bytes} :
    singleAt bytes offset stop slot length = .ok data ↔
      slot = 255 ∧ offset + 7 ≤ stop ∧ length ≤ (bytes.window (offset + 3) 4).toNat ∧
      offset + 9 + length ≤ stop ∧ data = bytes.window (offset + 9) length := by
  fun_cases singleAt bytes offset stop slot length <;> grind

theorem sharedAt_eq_ok_iff {bytes : Bytes} {offset stop slot length : Nat} {data : Bytes} :
    sharedAt bytes offset stop slot length = .ok data ↔
      slot < 64 ∧ offset + 12 + 5 * slot + 5 ≤ stop ∧
      (bytes[offset + 12 + 5 * slot + 1]?.getD 0).toNat ≠ 0 ∧
      length ≤ 16 * (bytes[offset + 12 + 5 * slot + 1]?.getD 0).toNat ∧
      offset + 16 * (bytes[offset + 12 + 5 * slot]?.getD 0).toNat + length ≤ stop ∧
      data = bytes.window (offset + 16 * (bytes[offset + 12 + 5 * slot]?.getD 0).toNat) length := by
  fun_cases sharedAt bytes offset stop slot length <;> grind

/-! ## As a sequence of checks -/

theorem singleBlob_eq (block : Bytes) (slot length : Nat) :
    singleBlob block slot length =
      if slot ≠ 255 then .error (.slotInSingleBlob slot)
      else match block.littleEndian? 3 4 with
        | none => .error .truncatedHeader
        | some stored =>
          if stored < length then .error (.beyondBlob length stored)
          else (block.window? 9 length).elim (.error .beyondFile) .ok := by
  by_cases other : slot ≠ 255
  · have outside : slot ≠ singleSlot := other
    simp only [singleBlob, if_pos outside, if_pos other]
    cases block.littleEndian? 3 4 <;> rfl
  have inside : ¬ slot ≠ singleSlot := other
  simp only [singleBlob, if_neg inside, if_neg other]
  cases block.littleEndian? 3 4 with
  | none => rfl
  | some stored =>
      by_cases short : stored < length
      · simp only [if_pos short]
        rfl
      · simp only [if_neg short, singleStart]
        cases block.window? 9 length <;> rfl

theorem sharedBlob_eq (block : Bytes) (slot length : Nat) :
    sharedBlob block slot length =
      if 64 ≤ slot then .error (.slotOutOfRange slot)
      else match block.window? (12 + 5 * slot) 5 with
        | some (start :: units :: _) =>
          if units.toNat = 0 then .error (.emptySlot slot)
          else if 16 * units.toNat < length then
            .error (.beyondSlot length slot (16 * units.toNat))
          else (block.window? (16 * start.toNat) length).elim (.error .beyondFile) .ok
        | _ => .error .truncatedTable := by
  by_cases outside : 64 ≤ slot
  · have beyond : slotCount ≤ slot := outside
    simp only [sharedBlob, if_pos beyond, if_pos outside]
    split <;> rfl
  have within : ¬ slotCount ≤ slot := outside
  simp only [sharedBlob, if_neg within, if_neg outside, tableStart, entrySize, unitSize,
    Nat.mul_comm slot 5]
  rcases block.window? (12 + 5 * slot) 5 with _ | _ | ⟨start, _ | ⟨units, _⟩⟩
  · rfl
  · rfl
  · rfl
  · simp only [Nat.mul_comm _ 16]
    by_cases empty : units = 0
    · have zero : units.toNat = 0 := by rw [empty]; rfl
      simp only [if_pos empty, if_pos zero]
      rfl
    have positive : ¬ units.toNat = 0 := fun zero => empty (UInt8.toNat_inj.mp zero)
    simp only [if_neg empty, if_neg positive]
    by_cases short : 16 * units.toNat < length
    · simp only [if_pos short]
      rfl
    · simp only [if_neg short]
      cases block.window? (16 * start.toNat) length <;> rfl

/-! ## From a block to the file -/

private theorem window_two {bytes : Bytes} {start : Nat} (inside : start + 2 ≤ bytes.length)
    (width : Nat) : bytes.window start (width + 2) =
      bytes[start]?.getD 0 :: bytes[start + 1]?.getD 0 :: bytes.window (start + 2) width := by
  have first : start < bytes.length := by omega
  have second : start + 1 < bytes.length := by omega
  rw [Bytes.window, List.drop_eq_getElem_cons first, List.drop_eq_getElem_cons second,
    List.take_succ_cons, List.take_succ_cons, List.getElem?_eq_getElem first,
    List.getElem?_eq_getElem second]
  rfl

section Window

variable {bytes : Bytes} {offset size stop : Nat}

private theorem window?_window (inside : offset ≤ bytes.length)
    (ends : stop = min bytes.length (offset + size)) (start width : Nat) :
    (bytes.window offset size).window? start width =
      if stop < offset + start + width then none
      else some (bytes.window (offset + start) width) := by
  rw [Bytes.window?, Bytes.length_window]
  by_cases beyond : stop < offset + start + width
  · rw [if_neg (by omega), if_pos beyond]
  · rw [if_pos (by omega), if_neg beyond, Bytes.window_window bytes (by omega)]

theorem singleBlob_window (inside : offset ≤ bytes.length)
    (ends : stop = min bytes.length (offset + size)) (slot length : Nat) :
    singleBlob (bytes.window offset size) slot length = singleAt bytes offset stop slot length := by
  have header_eq : offset + 3 + 4 = offset + 7 := by omega
  rw [singleBlob_eq, Bytes.littleEndian?, window?_window inside ends, window?_window inside ends,
    header_eq, singleAt]
  by_cases truncated : stop < offset + 7
  · simp only [if_pos truncated]
    rfl
  simp only [if_neg truncated, Option.map_some]
  by_cases beyond : stop < offset + 9 + length
  · simp only [if_pos beyond, Option.elim_none]
  · simp only [if_neg beyond, Option.elim_some]

theorem sharedBlob_window (inside : offset ≤ bytes.length)
    (ends : stop = min bytes.length (offset + size)) (slot length : Nat) :
    sharedBlob (bytes.window offset size) slot length = sharedAt bytes offset stop slot length := by
  have entry_eq : offset + (12 + 5 * slot) = offset + 12 + 5 * slot := by omega
  rw [sharedBlob_eq, window?_window inside ends, entry_eq, sharedAt]
  by_cases truncated : stop < offset + 12 + 5 * slot + 5
  · simp only [if_pos truncated]
  simp only [if_neg truncated, window_two (show offset + 12 + 5 * slot + 2 ≤ bytes.length by omega) 3,
    window?_window inside ends]
  by_cases beyond : stop < offset + 16 * (bytes[offset + 12 + 5 * slot]?.getD 0).toNat + length
  · simp only [if_pos beyond, Option.elim_none]
  · simp only [if_neg beyond, Option.elim_some]

theorem blob_window {type : UInt8} (first : bytes[offset]? = some type) (nonempty : 0 < size)
    (ends : stop = min bytes.length (offset + size)) (slot length : Nat) :
    blob (bytes.window offset size) slot length =
      if type = 2 then singleAt bytes offset stop slot length
      else if type = 3 then sharedAt bytes offset stop slot length
      else .error (.unexpectedType type.toNat) := by
  have inside : offset ≤ bytes.length := Nat.le_of_lt (List.getElem?_eq_some_iff.mp first).1
  have type_eq : (bytes.window offset size).headD 0 = type := by
    rw [Bytes.window, List.headD_eq_head?_getD, List.head?_take, if_neg (by omega),
      List.head?_drop, first, Option.getD_some]
  simp only [blob, type_eq, singleBlob_window inside ends, sharedBlob_window inside ends]
  rfl

end Window

end Block

namespace BlobFile

/-! ## Files in good order -/

/-- What a file in good order gives for the first `length` bytes of the blob in a slot of the block
at `offset`. -/
def decodeAt (bytes : Bytes) (offset slot length : Nat) : Except Error Bytes :=
  let stop := min bytes.length (offset + Block.extent bytes offset)
  let type := bytes[offset]?.getD 0
  if bytes.length < offset + 3 then .error (.io .unexpectedEnd)
  else Except.mapError (.corruptBlock offset) <|
    if type = 2 then Block.singleAt bytes offset stop slot length
    else if type = 3 then Block.sharedAt bytes offset stop slot length
    else .error (.unexpectedType type.toNat)

private theorem mapError_eq_ok_iff {ε ε' α : Type} {adapt : ε → ε'} {outcome : Except ε α}
    {value : α} : outcome.mapError adapt = .ok value ↔ outcome = .ok value := by
  cases outcome with
  | ok found =>
      constructor
      · intro same
        cases same
        rfl
      · intro same
        cases same
        rfl
  | error failure =>
      constructor
      · intro same
        cases same
      · intro same
        cases same

private theorem mapError_corruptBlock_ne_io {offset : Nat} {failure : IoError}
    (outcome : Except Corruption Bytes) :
    outcome.mapError (Error.corruptBlock offset) ≠ .error (.io failure) := by
  intro same
  cases outcome <;> cases same

section Decode

variable {bytes : Bytes} {offset slot length : Nat}

theorem decodeAt_of_short (short : bytes.length < offset + 3) :
    decodeAt bytes offset slot length = .error (.io .unexpectedEnd) :=
  if_pos short

theorem decodeAt_eq_io_iff :
    (∃ failure, decodeAt bytes offset slot length = .error (.io failure)) ↔
      bytes.length < offset + 3 := by
  constructor
  · rintro ⟨failure, fails⟩
    unfold decodeAt at fails
    split at fails
    · assumption
    · exact absurd fails (mapError_corruptBlock_ne_io _)
  · intro short
    exact ⟨_, decodeAt_of_short short⟩

theorem decodeAt_eq_ok_iff {data : Bytes} :
    decodeAt bytes offset slot length = .ok data ↔ offset + 3 ≤ bytes.length ∧
      (bytes[offset]? = some 2 ∧
        Block.singleAt bytes offset (min bytes.length (offset + Block.extent bytes offset)) slot
          length = .ok data ∨
      bytes[offset]? = some 3 ∧
        Block.sharedAt bytes offset (min bytes.length (offset + Block.extent bytes offset)) slot
          length = .ok data) := by
  by_cases short : bytes.length < offset + 3
  · rw [decodeAt_of_short short]
    constructor
    · intro same
      cases same
    · intro holds
      exact absurd holds.1 (by omega)
  have long : offset + 3 ≤ bytes.length := by omega
  have first := List.getElem?_eq_getElem (show offset < bytes.length by omega)
  have decode_long : decodeAt bytes offset slot length = _ := if_neg short
  rw [decode_long, mapError_eq_ok_iff, first]
  simp only [Option.getD_some, Option.some.injEq, long, true_and]
  generalize bytes[offset] = type
  by_cases single : type = 2
  · simp [single]
  by_cases shared : type = 3
  · simp [shared]
  · simp [single, shared]

end Decode

/-- A blob file over a file in good order with a certain content, of which every block that is kept
was loaded. -/
structure Faithful (bytes : Bytes) (file : BlobFile) : Prop where
  content : file.medium.bytes = bytes
  seeks : file.medium.seekFault = none
  reads : file.medium.badArea = none
  kept : ∀ offset block, file.blocks[offset]? = some block →
    offset + 3 ≤ bytes.length ∧ block = bytes.window offset (Block.extent bytes offset)

namespace Faithful

variable {bytes : Bytes} {file : BlobFile}

theorem ofBytes (bytes : Bytes) : Faithful bytes (ofMedium (.ofBytes bytes)) :=
  ⟨rfl, rfl, rfl, by simp [ofMedium]⟩

theorem loads_iff (faithful : Faithful bytes file) {offset : Nat} {block : Bytes} :
    file.medium.Loads offset block ↔
      offset + 3 ≤ bytes.length ∧ block = bytes.window offset (Block.extent bytes offset) := by
  constructor
  · intro loads
    have header := loads.header
    have content := loads.content
    rw [faithful.content] at header content
    exact ⟨header, content⟩
  · rintro ⟨header, content⟩
    rw [← faithful.content] at header content
    refine ⟨faithful.seeks, header, ?_, content⟩
    intro bad failure area
    rw [faithful.reads] at area
    cases area

theorem after_read (faithful : Faithful bytes file) (address length : UInt32) :
    Faithful bytes (file.read address length).2 := by
  rcases file.read_cases address length with
    ⟨block, _, read⟩ | ⟨_, block, loads, read⟩ | ⟨_, _, failure, read⟩
  · rw [read]
    exact faithful
  · rw [read]
    refine ⟨faithful.content, faithful.seeks, faithful.reads, ?_⟩
    intro offset found entry
    simp only [Std.HashMap.getElem?_insert] at entry
    split at entry
    · rename_i same
      obtain rfl : blockOffset address = offset := by simpa using same
      cases entry
      exact faithful.loads_iff.mp loads
    · exact faithful.kept offset found entry
  · rw [read]
    exact ⟨faithful.content, faithful.seeks, faithful.reads, faithful.kept⟩

theorem after_reads (faithful : Faithful bytes file) (reads : List (UInt32 × UInt32)) :
    Faithful bytes (file.after (reads.map fun earlier => .read earlier.1 earlier.2)) := by
  induction reads generalizing file with
  | nil => exact faithful
  | cons earlier reads ih => exact ih (faithful.after_read earlier.1 earlier.2)

theorem read_short (faithful : Faithful bytes file) {address : UInt32}
    (short : bytes.length < blockOffset address + 3) (length : UInt32) :
    (file.read address length).1 = .error (.io .unexpectedEnd) := by
  refine read_of_short ?_ faithful.seeks faithful.reads (by rwa [faithful.content]) length
  cases entry : file.blocks[blockOffset address]? with
  | none => rfl
  | some block => exact absurd (faithful.kept _ _ entry).1 (by omega)

theorem read_long (faithful : Faithful bytes file) {address : UInt32}
    (long : blockOffset address + 3 ≤ bytes.length) (length : UInt32) :
    (file.read address length).1 = blobIn
      (bytes.window (blockOffset address) (Block.extent bytes (blockOffset address)))
      address length := by
  rcases file.read_cases address length with
    ⟨block, entry, read⟩ | ⟨_, block, loads, read⟩ | ⟨_, fails, _⟩
  · rw [read, (faithful.kept _ _ entry).2]
  · rw [read, (faithful.loads_iff.mp loads).2]
  · exact absurd (faithful.loads_iff.mpr ⟨long, rfl⟩) (fails _)

theorem read_eq_decodeAt (faithful : Faithful bytes file) (address length : UInt32) :
    (file.read address length).1 =
      decodeAt bytes (blockOffset address) (slot address) length.toNat := by
  by_cases short : bytes.length < blockOffset address + 3
  · rw [decodeAt_of_short short, faithful.read_short short]
  have positive : 0 < Block.extent bytes (blockOffset address) :=
    Nat.lt_of_lt_of_le (by decide) (Block.chunkSize_le_extent bytes _)
  have first := List.getElem?_eq_getElem (show blockOffset address < bytes.length by omega)
  rw [faithful.read_long (by omega), blobIn, Block.blob_window first positive rfl]
  simp only [decodeAt, if_neg short, first, Option.getD_some]

end Faithful

/-- Reading a file in good order gives what the file itself holds, whatever has been read before. A
block without its first three bytes is a failure of the file, and every other refusal names the
first check of the block that fails. -/
theorem read_after_reads (bytes : Bytes) (reads : List (UInt32 × UInt32))
    (address length : UInt32) :
    let file := (ofMedium (.ofBytes bytes)).after
      (reads.map fun earlier => .read earlier.1 earlier.2)
    let result := (file.read address length).1
    let offset := (address &&& 0xFFFFFF00).toNat
    let slot := (address &&& 0xFF).toNat
    let count := length.toNat
    let stop := min bytes.length (offset + Block.extent bytes offset)
    let entry := offset + 12 + 5 * slot
    let start := (bytes[entry]?.getD 0).toNat
    let units := (bytes[entry + 1]?.getD 0).toNat
    result = decodeAt bytes offset slot count ∧
    ((∃ failure, result = .error (.io failure)) ↔ bytes.length < offset + 3) ∧
    (bytes[offset]? = some 2 → ∀ data, result = .ok data ↔
      offset + 3 ≤ bytes.length ∧ slot = 255 ∧ offset + 7 ≤ stop ∧
      count ≤ (bytes.window (offset + 3) 4).toNat ∧ offset + 9 + count ≤ stop ∧
      data = bytes.window (offset + 9) count) ∧
    (bytes[offset]? = some 3 → ∀ data, result = .ok data ↔
      offset + 3 ≤ bytes.length ∧ slot < 64 ∧ entry + 5 ≤ stop ∧ units ≠ 0 ∧
      count ≤ 16 * units ∧ offset + 16 * start + count ≤ stop ∧
      data = bytes.window (offset + 16 * start) count) ∧
    (∀ data, result = .ok data →
      (bytes[offset]? = some 2 ∨ bytes[offset]? = some 3) ∧ data.length = count) ∧
    (∀ block, (file.read address length).2.blocks[offset]? = some block → 3 ≤ block.length) := by
  intro file result offset slot count stop entry start units
  have faithful : Faithful bytes file := (Faithful.ofBytes bytes).after_reads reads
  have place : offset = blockOffset address := and_mask_eq_blockOffset address
  have decoded : result = decodeAt bytes offset slot count := by
    rw [place, show slot = BlobFile.slot address from and_mask_eq_slot address]
    exact faithful.read_eq_decodeAt address length
  refine ⟨decoded, ?_, ?_, ?_, ?_, ?_⟩
  · rw [decoded]
    exact decodeAt_eq_io_iff
  · intro type data
    rw [decoded, decodeAt_eq_ok_iff, type, Block.singleAt_eq_ok_iff]
    simp [stop]
  · intro type data
    rw [decoded, decodeAt_eq_ok_iff, type, Block.sharedAt_eq_ok_iff]
    simp [stop, entry, start, units]
  · intro data succeeds
    rw [decoded, decodeAt_eq_ok_iff] at succeeds
    rcases succeeds.2 with ⟨type, content⟩ | ⟨type, content⟩
    · obtain ⟨-, -, -, inside, rfl⟩ := Block.singleAt_eq_ok_iff.mp content
      refine ⟨.inl type, ?_⟩
      rw [Bytes.length_window]
      omega
    · obtain ⟨-, -, -, -, inside, rfl⟩ := Block.sharedAt_eq_ok_iff.mp content
      refine ⟨.inr type, ?_⟩
      rw [Bytes.length_window]
      omega
  · intro block kept
    obtain ⟨long, rfl⟩ := (faithful.after_read address length).kept offset block kept
    have chunk := Block.chunkSize_le_extent bytes offset
    rw [Bytes.length_window]
    simp only [Block.chunkSize] at chunk
    omega

end BlobFile

end SqlMemo

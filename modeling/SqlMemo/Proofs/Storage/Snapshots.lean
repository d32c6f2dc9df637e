import SqlMemo.Proofs.Storage.BlockLoading

/-!
# Blocks as snapshots

A blob file in use: blobs are read while the file behind it changes and faults come and go. A block
that is kept is what the file held when the block was loaded, and it stays so.
-/

set_option autoImplicit false

namespace SqlMemo.BlobFile

/-- What can happen to a blob file in use. -/
inductive Event where
  /-- A blob is read. -/
  | read (address length : UInt32)
  /-- The file behind it gets another content, and faults begin or end. -/
  | change (bytes : Bytes) (seekFault : Option IoError) (badArea : Option (Nat × IoError))

/-- A blob file behind an event. -/
def happen (file : BlobFile) : Event → BlobFile
  | .read address length => (file.read address length).2
  | .change bytes seekFault badArea =>
    { file with medium := { file.medium with bytes, seekFault, badArea } }

/-- A blob file behind a sequence of events. -/
def after (file : BlobFile) (events : List Event) : BlobFile :=
  events.foldl happen file

/-! ## One event -/

theorem blocks_happen_of_kept {file : BlobFile} {offset : Nat} {block : Bytes}
    (kept : file.blocks[offset]? = some block) (event : Event) :
    (file.happen event).blocks[offset]? = some block := by
  cases event with
  | change bytes seekFault badArea => exact kept
  | read address length =>
      rw [happen]
      rcases file.read_cases address length with
        ⟨_, _, read⟩ | ⟨fresh, loaded, _, read⟩ | ⟨_, _, _, read⟩
      · rw [read]
        exact kept
      · have different : ¬ blockOffset address = offset := by
          rintro rfl
          rw [fresh] at kept
          cases kept
        rw [read, Std.HashMap.getElem?_insert, if_neg (by simpa using different)]
        exact kept
      · rw [read]
        exact kept

theorem kept_of_happen {file : BlobFile} {event : Event} {offset : Nat} {block : Bytes}
    (kept : (file.happen event).blocks[offset]? = some block) :
    file.blocks[offset]? = some block ∨
      ∃ address length, event = .read address length ∧ blockOffset address = offset ∧
        file.blocks[offset]? = none ∧ file.medium.Loads offset block := by
  cases event with
  | change bytes seekFault badArea => exact .inl kept
  | read address length =>
      rw [happen] at kept
      rcases file.read_cases address length with
        ⟨_, _, read⟩ | ⟨fresh, loaded, loads, read⟩ | ⟨_, _, _, read⟩
      · rw [read] at kept
        exact .inl kept
      · rw [read, Std.HashMap.getElem?_insert] at kept
        by_cases same : blockOffset address = offset
        · subst offset
          obtain rfl : loaded = block := by simpa using kept
          exact .inr ⟨address, length, rfl, rfl, fresh, loads⟩
        · rw [if_neg (by simpa using same)] at kept
          exact .inl kept
      · rw [read] at kept
        exact .inl kept

/-! ## Sequences of events -/

/-- A block that is kept is kept for good. -/
theorem blocks_after_of_kept {file : BlobFile} {offset : Nat} {block : Bytes}
    (kept : file.blocks[offset]? = some block) (events : List Event) :
    (file.after events).blocks[offset]? = some block := by
  induction events generalizing file with
  | nil => exact kept
  | cons event events ih => exact ih (blocks_happen_of_kept kept event)

/-- A block that has come to be kept was loaded by a read of it in between. -/
theorem exists_load_of_kept {file : BlobFile} {events : List Event} {offset : Nat} {block : Bytes}
    (fresh : file.blocks[offset]? = none)
    (kept : (file.after events).blocks[offset]? = some block) :
    ∃ before address length behind, events = before ++ .read address length :: behind ∧
      blockOffset address = offset ∧ (file.after before).blocks[offset]? = none ∧
      (file.after before).medium.Loads offset block := by
  induction events generalizing file with
  | nil =>
      rw [after, List.foldl_nil, fresh] at kept
      cases kept
  | cons event events ih =>
      -- Either the first event loads the block, and then it is kept, or a later one does.
      cases entry : (file.happen event).blocks[offset]? with
      | some found =>
          have same := (blocks_after_of_kept entry events).symm.trans kept
          cases same
          rcases kept_of_happen entry with old | ⟨address, length, rfl, place, _, loads⟩
          · rw [fresh] at old
            cases old
          · exact ⟨[], address, length, events, rfl, place, fresh, loads⟩
      | none =>
          obtain ⟨before, address, length, behind, rfl, place, absent, loads⟩ := ih entry kept
          exact ⟨event :: before, address, length, behind, rfl, place, absent, loads⟩

/-- A blob file in use, whatever has happened to it, reads a blob as follows. If the block is kept,
the file behind has no part in it. If it is not, there is one seek, to the block; then either the
block can be loaded, is answered from and kept, or there is a failure and all blocks kept are as
before. What is kept stays and is answered from, and was in the file when it was loaded. -/
theorem read_after_events (medium : Medium) (events : List Event) (address length : UInt32) :
    let file := (ofMedium medium).after events
    let offset := (address &&& 0xFFFFFF00).toNat
    let result := file.read address length
    (∀ block, file.blocks[offset]? = some block → ∀ other : Medium,
      BlobFile.read ⟨other, file.blocks⟩ address length =
        (blobIn block address length, ⟨other, file.blocks⟩)) ∧
    (file.blocks[offset]? = none →
      result.2.medium = { file.medium with seeks := offset :: file.medium.seeks } ∧
      ((∃ block, file.medium.Loads offset block ∧ result.1 = blobIn block address length ∧
          result.2.blocks = file.blocks.insert offset block) ∨
        ((∀ block, ¬ file.medium.Loads offset block) ∧
          (∃ failure, result.1 = .error (.io failure)) ∧ result.2.blocks = file.blocks))) ∧
    (∀ block, file.blocks[offset]? = some block → ∀ further,
      (file.after further).blocks[offset]? = some block ∧
      ((file.after further).read address length).1 = blobIn block address length) ∧
    (∀ block, file.blocks[offset]? = some block →
      ∃ before earlier size behind, events = before ++ .read earlier size :: behind ∧
        (earlier &&& 0xFFFFFF00).toNat = offset ∧
        ((ofMedium medium).after before).blocks[offset]? = none ∧
        ((ofMedium medium).after before).medium.Loads offset block) := by
  intro file offset result
  have place : offset = blockOffset address := and_mask_eq_blockOffset address
  refine ⟨?_, ?_, ?_, ?_⟩
  · intro block kept other
    rw [place] at kept
    exact @read_of_kept ⟨other, file.blocks⟩ address block kept length
  · intro fresh
    rw [place] at fresh ⊢
    rcases file.read_cases address length with
      ⟨block, kept, _⟩ | ⟨_, block, loads, read⟩ | ⟨_, fails, failure, read⟩
    · rw [fresh] at kept
      cases kept
    · have result_eq : result = _ := read
      rw [result_eq]
      exact ⟨rfl, .inl ⟨block, loads, rfl, rfl⟩⟩
    · have result_eq : result = _ := read
      rw [result_eq]
      exact ⟨rfl, .inr ⟨fails, ⟨failure, rfl⟩, rfl⟩⟩
  · intro block kept further
    have still := blocks_after_of_kept kept further
    rw [place] at still ⊢
    exact ⟨still, by rw [read_of_kept still length]⟩
  · intro block kept
    have start : (ofMedium medium).blocks[offset]? = none := by simp [ofMedium]
    obtain ⟨before, earlier, size, behind, split, same, absent, loads⟩ :=
      exists_load_of_kept start kept
    exact ⟨before, earlier, size, behind, split, (and_mask_eq_blockOffset earlier).trans same,
      absent, loads⟩

end SqlMemo.BlobFile

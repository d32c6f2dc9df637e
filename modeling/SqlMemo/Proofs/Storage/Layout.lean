import SqlMemo.Proofs.Bytes
import SqlMemo.Proofs.Storage.Decoding

/-!
# The layout of blob files

What blocks look like when they are written: a single blob right behind its header, or small blobs
one behind another in units of 16 bytes, each with an entry in the table of the block. A blob that
was laid out in one of these ways is found again by its slot.
-/

set_option autoImplicit false

namespace SqlMemo

/-! ## Single blobs -/

namespace Block

/-- The number of chunks for the header of a single blob and `length` bytes. -/
def chunksFor (length : Nat) : Nat :=
  (9 + length + 4095) / 4096

/-- A block with a single blob, up to where the blob ends. -/
def ofBlob (modification : UInt16) (data : Bytes) : Bytes :=
  [2] ++ (Bytes.ofNat 2 (chunksFor data.length) ++ (Bytes.ofNat 4 data.length ++
    (Bytes.ofNat 2 modification.toNat ++ data)))

/-- What can be read from the parts of a block with a single blob. -/
structure HoldsSingle (bytes : Bytes) (offset : Nat) (data : Bytes) : Prop where
  type : bytes[offset]? = some 2
  size : offset + 9 + data.length ≤ bytes.length
  extent : 9 + data.length ≤ extent bytes offset
  length : (bytes.window (offset + 3) 4).toNat = data.length
  content : bytes.HoldsAt (offset + 9) data

theorem holdsSingle_of_holdsAt {bytes : Bytes} {offset : Nat} {modification : UInt16}
    {data : Bytes} (holds : bytes.HoldsAt offset (ofBlob modification data))
    (short : chunksFor data.length ≤ 65535) : HoldsSingle bytes offset data := by
  have size := holds.length_le (List.cons_ne_nil _ _)
  have chunks : bytes.HoldsAt (offset + 1) (Bytes.ofNat 2 (chunksFor data.length)) :=
    holds.right.left
  have length : bytes.HoldsAt (offset + 3) (Bytes.ofNat 4 data.length) := holds.right.right.left
  have content : bytes.HoldsAt (offset + 9) data := holds.right.right.right.right
  have enough : 9 + data.length ≤ 4096 * chunksFor data.length := by
    rw [chunksFor]
    omega
  refine ⟨holds.getElem?_eq, ?_, ?_, length.toNat_window_eq (by omega), content⟩
  · have width : (ofBlob modification data).length = 9 + data.length := by
      simp only [ofBlob, List.length_append, List.length_singleton, Bytes.length_ofNat]
      omega
    omega
  · have type : bytes[offset]? = some singleType := holds.getElem?_eq
    rw [Block.extent, if_pos type, chunks.toNat_window_eq (by omega)]
    exact Nat.le_trans enough (Nat.mul_le_mul_left _ (Nat.le_max_right 1 _))

end Block

/-! ## Blobs in shared blocks -/

/-- A small blob with the number that its table entry has for its last modification. -/
structure SharedBlob where
  content : Bytes
  modification : UInt16
  nonempty : content ≠ []

namespace SharedBlob

def units (blob : SharedBlob) : Nat :=
  (blob.content.length + 15) / 16

/-- The table entry of a blob that begins at a unit. -/
def entry (blob : SharedBlob) (start : Nat) : Bytes :=
  [UInt8.ofNat start] ++ ([UInt8.ofNat blob.units] ++ (Bytes.ofNat 2 blob.modification.toNat ++
    [UInt8.ofNat (blob.content.length % 16)]))

/-- A blob in a block at `offset`, from one of its units on, with the table entry of a slot. -/
structure PlacedAt (bytes : Bytes) (offset slot start : Nat) (blob : SharedBlob) : Prop where
  inside : 16 * start + blob.content.length ≤ 4096
  entry : bytes.HoldsAt (offset + 12 + 5 * slot) (blob.entry start)
  content : bytes.HoldsAt (offset + 16 * start) blob.content

/-- Blobs in a block at `offset`, one behind another from a unit on, with the table entries from a
slot on. -/
inductive LaidOut (bytes : Bytes) (offset : Nat) : (slot unit : Nat) → List SharedBlob → Prop where
  | nil {slot unit : Nat} : LaidOut bytes offset slot unit []
  | cons {slot unit : Nat} {blob : SharedBlob} {blobs : List SharedBlob} :
      PlacedAt bytes offset slot unit blob →
      LaidOut bytes offset (slot + 1) (unit + blob.units) blobs →
      LaidOut bytes offset slot unit (blob :: blobs)

variable {bytes : Bytes} {offset slot unit start : Nat} {blob : SharedBlob}
  {blobs : List SharedBlob}

theorem LaidOut.exists_place (laid : LaidOut bytes offset slot unit blobs) {index : Nat}
    (found : blobs[index]? = some blob) :
    ∃ start, unit ≤ start ∧ PlacedAt bytes offset (slot + index) start blob := by
  induction laid generalizing index with
  | nil => cases found
  | @cons slot unit first blobs placed _ ih =>
      cases index with
      | zero =>
          obtain rfl := Option.some.inj found
          exact ⟨unit, Nat.le_refl unit, placed⟩
      | succ index =>
          obtain ⟨start, behind, placed⟩ := ih found
          rw [Nat.add_right_comm] at placed
          exact ⟨start, Nat.le_of_add_right_le behind, placed⟩

theorem PlacedAt.start_eq (placed : PlacedAt bytes offset slot start blob) :
    (bytes[offset + 12 + 5 * slot]?.getD 0).toNat = start := by
  have positive := List.length_pos_iff.mpr blob.nonempty
  have inside := placed.inside
  rw [placed.entry.getElem?_eq, Option.getD_some, UInt8.toNat_ofNat']
  omega

/-- Behind the table there is no room for more units than fit into a byte. -/
theorem PlacedAt.units_eq (placed : PlacedAt bytes offset slot start blob) (behind : 21 ≤ start) :
    (bytes[offset + 12 + 5 * slot + 1]?.getD 0).toNat = blob.units := by
  have inside := placed.inside
  have second : bytes[offset + 12 + 5 * slot + 1]? = some (UInt8.ofNat blob.units) :=
    placed.entry.right.getElem?_eq
  rw [second, Option.getD_some, UInt8.toNat_ofNat', units]
  omega

end SharedBlob

/-! ## Blobs in files -/

/-- A file holds a blob in a slot of the block at `offset`: on its own, or among others. -/
inductive HoldsBlob (bytes : Bytes) (offset : Nat) : (slot : Nat) → (data : Bytes) → Prop where
  | single {modification : UInt16} {data : Bytes} :
      Block.chunksFor data.length ≤ 65535 →
      bytes.HoldsAt offset (Block.ofBlob modification data) →
      HoldsBlob bytes offset 255 data
  | shared {blobs : List SharedBlob} {slot : Nat} {blob : SharedBlob} :
      bytes[offset]? = some 3 → blobs.length ≤ 64 →
      SharedBlob.LaidOut bytes offset 0 21 blobs → blobs[slot]? = some blob →
      HoldsBlob bytes offset slot blob.content

namespace HoldsBlob

variable {bytes data : Bytes} {offset slot : Nat}

theorem slot_lt (holds : HoldsBlob bytes offset slot data) : slot < 256 := by
  cases holds with
  | single => decide
  | shared _ few _ found =>
      have bound := (List.getElem?_eq_some_iff.mp found).1
      omega

theorem length_lt (holds : HoldsBlob bytes offset slot data) : data.length < 2 ^ 32 := by
  cases holds with
  | single small =>
      rw [Block.chunksFor] at small
      omega
  | shared _ _ laid found =>
      obtain ⟨start, -, placed⟩ := laid.exists_place found
      have inside := placed.inside
      omega

theorem decodeAt_eq (holds : HoldsBlob bytes offset slot data) {count : Nat}
    (short : count ≤ data.length) :
    BlobFile.decodeAt bytes offset slot count = .ok (data.take count) := by
  cases holds with
  | single small holds =>
      have block := Block.holdsSingle_of_holdsAt holds small
      have size := block.size
      have extent := block.extent
      have length := block.length
      have content := block.content.window_eq short
      refine BlobFile.decodeAt_eq_ok_iff.mpr ⟨by omega, .inl ⟨block.type, ?_⟩⟩
      exact Block.singleAt_eq_ok_iff.mpr
        ⟨rfl, by omega, by omega, by omega, content.symm⟩
  | @shared blobs _ blob type few laid found =>
      have bound := (List.getElem?_eq_some_iff.mp found).1
      obtain ⟨start, behind, placed⟩ := laid.exists_place found
      rw [Nat.zero_add] at placed
      have positive := List.length_pos_iff.mpr blob.nonempty
      have inside := placed.inside
      have size := placed.content.length_le blob.nonempty
      have table := placed.entry.length_le (List.cons_ne_nil _ _)
      have extent := Block.chunkSize_le_extent bytes offset
      have content := placed.content.window_eq short
      rw [Block.chunkSize] at extent
      refine BlobFile.decodeAt_eq_ok_iff.mpr ⟨by omega, .inr ⟨type, ?_⟩⟩
      rw [Block.sharedAt_eq_ok_iff, placed.start_eq, placed.units_eq behind]
      have width : (blob.entry start).length = 5 := by simp [SharedBlob.entry]
      refine ⟨by omega, by omega, ?_, ?_, by omega, content.symm⟩
      · rw [SharedBlob.units]
        omega
      · rw [SharedBlob.units]
        omega

end HoldsBlob

end SqlMemo

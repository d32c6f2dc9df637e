import SqlMemo.Proofs.Memo.LazyLoading
import SqlMemo.Proofs.Memo.PointerField
import SqlMemo.Proofs.Storage.Layout

/-!
# Memos from field to value

From the field of a table over the layout of the blob file to the value: a memo whose pointer leads
to a blob has as its value what was stored there, and nothing else in the file or in the field has a
part in it.
-/

set_option autoImplicit false

namespace SqlMemo

namespace Memo

variable {σ : Type} [ByteSource σ]

/-! ## Memos with a value at hand -/

/-- A memo that will not call its source any more. -/
def Settled : Memo → Prop
  | .stored _ _ => False
  | _ => True

theorem perform_settled {memo : Memo} (settled : memo.Settled) (request : Request) :
    ∃ reply memo', Settled memo' ∧
      ∀ source : Option σ, memo.perform source request = (reply, memo', source) := by
  by_cases needs : request.NeedsValue
  · cases memo with
    | loaded value =>
        exact ⟨_, .loaded (request.leaves value), trivial, fun source =>
          perform_of_load_ok needs (load_loaded value source)⟩
    | released =>
        exact ⟨_, .released, trivial, fun source =>
          perform_of_load_error needs (load_released source)⟩
    | stored => cases settled
  · by_cases release : request = .release
    · subst request
      exact ⟨_, .released, trivial, perform_release memo⟩
    · exact ⟨_, memo, settled, perform_of_not_needsValue needs release memo⟩

theorem run_settled {memo : Memo} (settled : memo.Settled) (source : Option σ)
    (requests : List Request) :
    (memo.run source requests).1 = (memo.run (none : Option σ) requests).1 := by
  induction requests generalizing memo with
  | nil => rfl
  | cons request requests ih =>
      obtain ⟨reply, memo', settled', performs⟩ := @perform_settled σ _ memo settled request
      simp only [run, performs, ih settled']

/-- As long as the source gives a value, having it at hand makes no difference. -/
theorem run_stored_of_read {source source' : σ} {address length : UInt32} {value : Bytes}
    (reads : ByteSource.read source address length = (.ok value, source'))
    (requests : List Request) :
    ((stored address length).run (some source) requests).1 =
      ((loaded value).run (none : Option σ) requests).1 := by
  induction requests with
  | nil => rfl
  | cons request requests ih =>
      by_cases needs : request.NeedsValue
      · have settled : (loaded (request.leaves value)).Settled := trivial
        simp only [run, perform_of_load_ok needs (load_stored_of_ok reads),
          perform_of_load_ok needs (load_loaded value none), run_settled settled (some source')]
      by_cases release : request = .release
      · subst request
        have settled : released.Settled := trivial
        simp only [run, perform_release, run_settled settled (some source)]
      · simp only [run, perform_of_not_needsValue needs release, ih]

/-! ## Memos of stored blobs -/

theorem read_of_holdsBlob {bytes data : Bytes} {offset slot count : Nat}
    (holds : HoldsBlob bytes offset slot data) (aligned : offset % 256 = 0)
    (short : count ≤ data.length) {file : BlobFile} (faithful : BlobFile.Faithful bytes file)
    {address length : UInt32} (address_eq : address.toNat = offset + slot)
    (length_eq : length.toNat = count) :
    (file.read address length).1 = .ok (data.take count) := by
  have inside := holds.slot_lt
  have block : BlobFile.blockOffset address = offset := by
    rw [BlobFile.blockOffset, address_eq]
    omega
  have inBlock : BlobFile.slot address = slot := by
    rw [BlobFile.slot, address_eq]
    omega
  rw [faithful.read_eq_decodeAt, block, inBlock, length_eq, holds.decodeAt_eq short]

theorem ofPointer_of_ne_zero {pointer : MemoPointer} (inFile : pointer.address.toNat ≠ 0) :
    ofPointer pointer = .stored pointer.address pointer.length :=
  if_neg fun zero => inFile (congrArg UInt32.toNat zero)

/-- The pointer to the first `count` bytes of a blob, behind a leader, makes a memo of just these
bytes: whatever has been read before, whatever else the file holds and whatever the leader says, it
replies to all requests as if it had them at hand. -/
theorem replies_of_field {bytes data : Bytes} {offset slot count : Nat}
    (holds : HoldsBlob bytes offset slot data) (aligned : offset % 256 = 0)
    (behindHeader : offset ≠ 0) (small : offset < 2 ^ 32) (short : count ≤ data.length)
    (leader : Bytes) (modification : UInt16) (reads : List (UInt32 × UInt32)) :
    let file := (BlobFile.ofMedium (.ofBytes bytes)).after
      (reads.map fun earlier => .read earlier.1 earlier.2)
    let field := leader ++ (Bytes.ofNat 4 (offset + slot) ++ (Bytes.ofNat 4 count ++
      Bytes.ofNat 2 modification.toNat))
    ∃ pointer, MemoPointer.ofField field = .ok pointer ∧
      ((ofPointer pointer).perform (some file) .length).1 = .ok (.length count) ∧
      ((ofPointer pointer).perform (some file) .contents).1 = .ok (.bytes (data.take count)) ∧
      ∀ requests, ((ofPointer pointer).run (some file) requests).1 =
        ((loaded (data.take count)).run (none : Option BlobFile) requests).1 := by
  intro file field
  have inside := holds.slot_lt
  have address_eq : (UInt32.ofNat (offset + slot)).toNat = offset + slot := by
    rw [UInt32.toNat_ofNat']
    omega
  have length_eq : (UInt32.ofNat count).toNat = count :=
    UInt32.toNat_ofNat_of_lt' (Nat.lt_of_le_of_lt short holds.length_lt)
  have field_eq : field = leader ++ MemoPointer.encoded (UInt32.ofNat (offset + slot))
      (UInt32.ofNat count) modification := by
    rw [MemoPointer.encoded, address_eq, length_eq]
  have faithful : BlobFile.Faithful bytes file := (BlobFile.Faithful.ofBytes bytes).after_reads reads
  have reads : ByteSource.read file (UInt32.ofNat (offset + slot)) (UInt32.ofNat count) =
      (.ok (data.take count), _) :=
    Prod.ext (read_of_holdsBlob holds aligned short faithful address_eq length_eq) rfl
  have loads := load_stored_of_ok reads
  have lengthNeeds : Request.length.NeedsValue := trivial
  have contentsNeeds : Request.contents.NeedsValue := trivial
  refine ⟨_, field_eq ▸ MemoPointer.ofField_append leader _ _ modification, ?_⟩
  rw [ofPointer_of_ne_zero (by rw [address_eq]; omega)]
  refine ⟨?_, ?_, run_stored_of_read reads⟩
  · rw [perform_of_load_ok lengthNeeds loads, Request.replyOn, List.length_take_of_le short]
  · rw [perform_of_load_ok contentsNeeds loads, Request.replyOn]

/-- The second of two small blobs, of which three bytes are asked for, and the whole of a single
one. -/
theorem replies_of_field_samples :
    let shared : Bytes := List.replicate 256 0 ++ ([3, 1, 0] ++ List.replicate 9 0 ++
      [21, 2, 7, 0, 1] ++ [23, 1, 9, 0, 5] ++ List.replicate 314 0 ++ List.replicate 17 120 ++
      List.replicate 15 0 ++ [116, 104, 105, 114, 100])
    let single : Bytes := List.replicate 512 0 ++ Block.ofBlob 4 [97, 98]
    (∃ pointer, MemoPointer.ofField [116, 104, 1, 1, 0, 0, 3, 0, 0, 0, 2, 0] = .ok pointer ∧
      ((ofPointer pointer).perform (some (BlobFile.ofMedium (.ofBytes shared))) .contents).1 =
        .ok (.bytes [116, 104, 105])) ∧
    ∃ pointer, MemoPointer.ofField [255, 2, 0, 0, 2, 0, 0, 0, 4, 0] = .ok pointer ∧
      ((ofPointer pointer).perform (some (BlobFile.ofMedium (.ofBytes single))) .contents).1 =
        .ok (.bytes [97, 98]) := by
  intro shared single
  constructor
  · let first : SharedBlob := ⟨List.replicate 17 120, 7, by decide⟩
    let second : SharedBlob := ⟨[116, 104, 105, 114, 100], 9, by decide⟩
    have placed : SharedBlob.PlacedAt shared 256 0 21 first :=
      ⟨by decide, by decide +kernel, by decide +kernel⟩
    have placed' : SharedBlob.PlacedAt shared 256 (0 + 1) (21 + first.units) second :=
      ⟨by decide, by decide +kernel, by decide +kernel⟩
    have laid : SharedBlob.LaidOut shared 256 0 21 [first, second] :=
      .cons placed (.cons placed' .nil)
    have found : [first, second][1]? = some second := rfl
    have holds : HoldsBlob shared 256 1 second.content :=
      .shared (by decide +kernel) (by decide) laid found
    obtain ⟨pointer, decoded, -, contents, -⟩ :=
      replies_of_field holds rfl (by decide) (by decide) (show 3 ≤ 5 by decide) [116, 104] 2 []
    exact ⟨pointer, decoded, contents⟩
  · have block : single.HoldsAt 512 (Block.ofBlob 4 [97, 98]) := by decide +kernel
    have holds : HoldsBlob single 512 255 [97, 98] := .single (by decide) block
    obtain ⟨pointer, decoded, -, contents, -⟩ :=
      replies_of_field holds rfl (by decide) (by decide) (show 2 ≤ 2 by decide) [] 4 []
    exact ⟨pointer, decoded, contents⟩

end Memo

end SqlMemo

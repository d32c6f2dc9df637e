import SqlMemo.Proofs.Memo.RoundTrip
import SqlMemo.Proofs.Memo.SharedSource

/-!
# Truncated memos

To truncate a memo is to have a pointer to fewer bytes from the beginning. A loaded value is cut,
and a file that can give a number of bytes of a blob can also give fewer of them.
-/

set_option autoImplicit false

namespace SqlMemo

/-! ## Beginnings of blobs -/

theorem Bytes.take_window (bytes : Bytes) (start : Nat) {count width : Nat}
    (short : count ≤ width) : (bytes.window start width).take count = bytes.window start count := by
  rw [window, List.take_take, Nat.min_eq_left short, window]

theorem Block.singleAt_take {bytes data : Bytes} {offset stop slot length count : Nat}
    (found : singleAt bytes offset stop slot length = .ok data) (short : count ≤ length) :
    singleAt bytes offset stop slot count = .ok (data.take count) := by
  obtain ⟨inSlot, header, stored, inside, rfl⟩ := singleAt_eq_ok_iff.mp found
  exact singleAt_eq_ok_iff.mpr
    ⟨inSlot, header, by omega, by omega, bytes.take_window _ short⟩

theorem Block.sharedAt_take {bytes data : Bytes} {offset stop slot length count : Nat}
    (found : sharedAt bytes offset stop slot length = .ok data) (short : count ≤ length) :
    sharedAt bytes offset stop slot count = .ok (data.take count) := by
  obtain ⟨inTable, entry, occupied, stored, inside, rfl⟩ := sharedAt_eq_ok_iff.mp found
  exact sharedAt_eq_ok_iff.mpr
    ⟨inTable, entry, occupied, by omega, by omega, bytes.take_window _ short⟩

namespace BlobFile

variable {bytes data : Bytes}

theorem decodeAt_take {offset slot length count : Nat}
    (found : decodeAt bytes offset slot length = .ok data) (short : count ≤ length) :
    decodeAt bytes offset slot count = .ok (data.take count) := by
  obtain ⟨long, ⟨type, single⟩ | ⟨type, shared⟩⟩ := decodeAt_eq_ok_iff.mp found
  · exact decodeAt_eq_ok_iff.mpr ⟨long, .inl ⟨type, Block.singleAt_take single short⟩⟩
  · exact decodeAt_eq_ok_iff.mpr ⟨long, .inr ⟨type, Block.sharedAt_take shared short⟩⟩

theorem length_of_decodeAt {offset slot length : Nat}
    (found : decodeAt bytes offset slot length = .ok data) : data.length = length := by
  obtain ⟨-, ⟨-, single⟩ | ⟨-, shared⟩⟩ := decodeAt_eq_ok_iff.mp found
  · obtain ⟨-, -, -, inside, rfl⟩ := Block.singleAt_eq_ok_iff.mp single
    rw [Bytes.length_window]
    omega
  · obtain ⟨-, -, -, -, inside, rfl⟩ := Block.sharedAt_eq_ok_iff.mp shared
    rw [Bytes.length_window]
    omega

end BlobFile

/-- An image that gives as many bytes as are asked for, and of fewer the same. -/
structure Image.Graded (image : Image) : Prop where
  length_eq : ∀ {address length data}, image.content address length = .ok data →
    data.length = length.toNat
  take : ∀ {address length data}, image.content address length = .ok data →
    ∀ {count : UInt32}, count.toNat ≤ length.toNat →
      image.content address count = .ok (data.take count.toNat)

theorem Image.graded_ofFile (bytes : Bytes) : (Image.ofFile bytes).Graded where
  length_eq found := BlobFile.length_of_decodeAt found
  take found _ short := BlobFile.decodeAt_take found short

namespace Memo

theorem Request.leaves_prefix (request : Request) (value : Bytes) :
    request.leaves value <+: value := by
  cases request with
  | truncate count =>
      rw [leaves]
      split
      · exact List.take_prefix _ _
      · exact List.prefix_refl value
  | _ => exact List.prefix_refl value

/-! ## What is left of a value -/

/-- The value that a pointer leads to. -/
def valueOver (image : Image) (pointer : MemoPointer) : Except Error Bytes :=
  if pointer.address = 0 then .ok ((pointer.leader.getD []).take pointer.length.toNat)
  else image.content pointer.address pointer.length

theorem length_valueOver_le {image : Image} (graded : image.Graded) {pointer : MemoPointer}
    {whole : Bytes} (valued : valueOver image pointer = .ok whole) :
    whole.length ≤ pointer.length.toNat := by
  by_cases inField : pointer.address = 0
  · obtain rfl := Except.ok.inj ((if_pos inField).symm.trans valued)
    exact List.length_take_le _ _
  · exact Nat.le_of_eq (graded.length_eq ((if_neg inField).symm.trans valued))

/-- What can have become of the memo of a pointer: it is as it was made, it has a beginning of its
value, or it is released. -/
inductive Remains (image : Image) (pointer : MemoPointer) : Memo → Prop where
  | made : Remains image pointer (ofPointer pointer)
  | cut {value whole : Bytes} :
      valueOver image pointer = .ok whole → value <+: whole → Remains image pointer (.loaded value)
  | released : Remains image pointer .released

namespace Remains

variable {image : Image} {pointer : MemoPointer} {memo : Memo}

theorem load_cases (remains : Remains image pointer memo) :
    (∃ error, memo.load (some image) = (.error error, memo, some image)) ∨
    ∃ value whole, memo.load (some image) = (.ok value, .loaded value, some image) ∧
      valueOver image pointer = .ok whole ∧ value <+: whole := by
  cases remains with
  | released => exact .inl ⟨_, load_released _⟩
  | @cut value whole valued beginning =>
      exact .inr ⟨value, whole, load_loaded value _, valued, beginning⟩
  | made =>
      by_cases inField : pointer.address = 0
      · have valued : valueOver image pointer = .ok _ := if_pos inField
        rw [ofPointer, if_pos inField]
        exact .inr ⟨_, _, load_loaded _ _, valued, List.prefix_refl _⟩
      · have valued : valueOver image pointer = _ := if_neg inField
        rw [ofPointer, if_neg inField]
        cases content : image.content pointer.address pointer.length with
        | error cause =>
            have fails : ByteSource.read image pointer.address pointer.length =
                (.error cause, image) := congrArg (·, image) content
            exact .inl ⟨_, load_stored_of_error fails⟩
        | ok whole =>
            have reads : ByteSource.read image pointer.address pointer.length =
                (.ok whole, image) := congrArg (·, image) content
            exact .inr ⟨whole, whole, load_stored_of_ok reads, valued.trans content,
              List.prefix_refl whole⟩

theorem perform (remains : Remains image pointer memo) (request : Request) :
    Remains image pointer (memo.perform (some image) request).2.1 ∧
      (memo.perform (some image) request).2.2 = some image := by
  by_cases needs : request.NeedsValue
  · rcases remains.load_cases with ⟨error, fails⟩ | ⟨value, whole, loads, valued, beginning⟩
    · rw [perform_of_load_error needs fails]
      exact ⟨remains, rfl⟩
    · rw [perform_of_load_ok needs loads]
      exact ⟨.cut valued ((request.leaves_prefix value).trans beginning), rfl⟩
  by_cases release : request = .release
  · subst request
    exact ⟨.released, rfl⟩
  · rw [perform_of_not_needsValue needs release]
    exact ⟨remains, rfl⟩

theorem run (remains : Remains image pointer memo) (requests : List Request) :
    Remains image pointer (memo.run (some image) requests).2.1 ∧
      (memo.run (some image) requests).2.2 = some image := by
  induction requests generalizing memo with
  | nil => exact ⟨remains, rfl⟩
  | cons request requests ih =>
      obtain ⟨remains', source⟩ := remains.perform request
      rw [Memo.run, source]
      exact ih remains'

/-- A truncation that succeeds leaves the beginning of the whole value. -/
theorem perform_truncate (remains : Remains image pointer memo) {count : UInt64} {reply : Reply}
    (succeeds : (memo.perform (some image) (.truncate count)).1 = .ok reply) :
    ∃ whole, valueOver image pointer = .ok whole ∧ count.toNat ≤ whole.length ∧
      memo.perform (some image) (.truncate count) =
        (.ok .done, .loaded (whole.take count.toNat), some image) := by
  have needs : (Request.truncate count).NeedsValue := trivial
  rcases remains.load_cases with ⟨error, fails⟩ | ⟨value, whole, loads, valued, beginning⟩
  · rw [perform_of_load_error needs fails] at succeeds
    cases succeeds
  · have performs := perform_of_load_ok needs loads
    rw [performs] at succeeds ⊢
    by_cases short : count.toNat ≤ value.length
    · refine ⟨whole, valued, Nat.le_trans short beginning.length_le, ?_⟩
      have same : value.take count.toNat = whole.take count.toNat := by
        obtain ⟨behind, rfl⟩ := beginning
        rw [List.take_append_of_le_length short]
      rw [Request.replyOn, Request.leaves, if_pos short, if_pos short, same]
    · rw [Request.replyOn, if_neg short] at succeeds
      cases succeeds

end Remains

/-! ## A pointer to fewer bytes -/

/-- Over an image, the beginning of the value is what a pointer to so many bytes leads to. -/
theorem run_shorter {image : Image} (graded : image.Graded) {pointer : MemoPointer}
    {whole : Bytes} (valued : valueOver image pointer = .ok whole) {count : UInt32}
    (short : count.toNat ≤ whole.length) (requests : List Request) :
    ((ofPointer { pointer with length := count }).run (some image) requests).1 =
      ((loaded (whole.take count.toNat)).run (some image) requests).1 := by
  by_cases inField : pointer.address = 0
  · have whole_eq : (pointer.leader.getD []).take pointer.length.toNat = whole :=
      Except.ok.inj ((if_pos inField).symm.trans valued)
    have fewer : count.toNat ≤ pointer.length.toNat := by
      rw [← whole_eq] at short
      exact Nat.le_trans short (List.length_take_le _ _)
    rw [ofPointer, if_pos inField, ← whole_eq, List.take_take, Nat.min_eq_left fewer]
  · have content : image.content pointer.address pointer.length = .ok whole :=
      (if_neg inField).symm.trans valued
    have fewer : count.toNat ≤ pointer.length.toNat := by
      rwa [graded.length_eq content] at short
    have reads : ByteSource.read image pointer.address count =
        (.ok (whole.take count.toNat), image) := congrArg (·, image) (graded.take content fewer)
    have settled : (loaded (whole.take count.toNat)).Settled := trivial
    rw [ofPointer, if_neg inField, run_stored_of_read reads, run_settled settled (some image)]

/-- A memo of a blob file that has been truncated, whatever had been asked of it before, replies to
all later requests as a new memo whose pointer has the smaller length: over the file as the first
one left it, and over the same file after any other reads. For a file that can give some bytes of a
blob can give any smaller number of them, and they are the first of these. -/
theorem run_after_truncation (bytes : Bytes) (reads reads' : List (UInt32 × UInt32))
    (pointer : MemoPointer) (requests : List Request) (count : UInt64) :
    let opened := BlobFile.ofMedium (.ofBytes bytes)
    let used := opened.after (reads.map fun earlier => .read earlier.1 earlier.2)
    let other := opened.after (reads'.map fun earlier => .read earlier.1 earlier.2)
    let before := (ofPointer pointer).run (some used) requests
    let cut := before.2.1.perform before.2.2 (.truncate count)
    let shorter := { pointer with length := UInt32.ofNat count.toNat }
    (∀ reply, cut.1 = .ok reply → shorter.length.toNat = count.toNat ∧ ∀ further,
      (cut.2.1.run cut.2.2 further).1 = ((ofPointer shorter).run cut.2.2 further).1 ∧
      (cut.2.1.run cut.2.2 further).1 = ((ofPointer shorter).run (some other) further).1) ∧
    ∀ address length count data, (used.read address length).1 = .ok data → count ≤ length →
      (other.read address count).1 = .ok (data.take count.toNat) := by
  intro opened used other before cut shorter
  let image := Image.ofFile bytes
  have depicts : image.Depicts _ := Image.depicts_ofFile bytes
  have graded : image.Graded := Image.graded_ofFile bytes
  have fresh : BlobFile.Faithful bytes opened := .ofBytes bytes
  have usedShown : BlobFile.Faithful bytes used := fresh.after_reads reads
  have otherShown : BlobFile.Faithful bytes other := fresh.after_reads reads'
  refine ⟨?_, ?_⟩
  · intro reply succeeds
    -- The first memo is followed over the image, where it is known what the truncation leaves.
    have earlier := run_over_image depicts usedShown (ofPointer pointer) requests
    obtain ⟨source, source_eq, shown⟩ := earlier.source
    have remains := ((Remains.made : Remains image pointer (ofPointer pointer)).run requests).1
    rw [← earlier.memo] at remains
    have performed := perform_over_image depicts shown before.2.1 (.truncate count)
    rw [← source_eq] at performed
    obtain ⟨source', source_eq', shown'⟩ := performed.source
    have result : (before.2.1.perform (some image) (.truncate count)).1 = .ok reply :=
      performed.result.symm.trans succeeds
    obtain ⟨whole, valued, short, performs⟩ := remains.perform_truncate result
    have left : cut.2.1 = .loaded (whole.take count.toNat) := by
      rw [performed.memo, performs]
    have small := Nat.lt_of_le_of_lt (Nat.le_trans short (length_valueOver_le graded valued))
      pointer.length.toNat_lt
    have length_eq : (UInt32.ofNat count.toNat).toNat = count.toNat :=
      UInt32.toNat_ofNat_of_lt' small
    refine ⟨length_eq, ?_⟩
    intro further
    have replies : ∀ source, BlobFile.Faithful bytes source →
        ((loaded (whole.take count.toNat)).run (some source') further).1 =
          ((ofPointer shorter).run (some source) further).1 := by
      intro source shown
      have same := run_shorter graded valued (length_eq.trans_le short) further
      rw [length_eq] at same
      rw [(run_over_image depicts shown' _ further).result,
        (run_over_image depicts shown _ further).result, same]
    rw [left, source_eq']
    exact ⟨replies source' shown', replies other otherShown⟩
  · intro address length count data found short
    rw [usedShown.read_eq_decodeAt] at found
    rw [otherShown.read_eq_decodeAt]
    exact BlobFile.decodeAt_take found short

/-- Of the two bytes of a single blob the first is left. -/
theorem run_after_truncation_to_one :
    let bytes : Bytes := List.replicate 512 0 ++ Block.ofBlob 4 [97, 98]
    let opened := BlobFile.ofMedium (.ofBytes bytes)
    let cut := (ofPointer ⟨none, 767, 2, 4⟩).perform (some opened) (.truncate 1)
    cut.1 = .ok .done ∧
    (∀ further, (cut.2.1.run cut.2.2 further).1 =
      ((ofPointer ⟨none, 767, 1, 4⟩).run (some opened) further).1) ∧
    (opened.read 767 2).1 = .ok [97, 98] ∧ (opened.read 767 1).1 = .ok [97] := by
  intro bytes opened cut
  have block : bytes.HoldsAt 512 (Block.ofBlob 4 [97, 98]) := by decide +kernel
  have holds : HoldsBlob bytes 512 255 [97, 98] := .single (by decide) block
  have whole : (opened.read 767 2).1 = .ok [97, 98] :=
    read_of_holdsBlob holds rfl (Nat.le_refl 2) (.ofBytes bytes) rfl rfl
  have succeeds : cut.1 = .ok .done := by
    have reads : ByteSource.read opened 767 2 = (.ok [97, 98], _) := Prod.ext whole rfl
    have needs : (Request.truncate 1).NeedsValue := trivial
    have performs := perform_of_load_ok needs (load_stored_of_ok reads)
    exact congrArg Prod.fst performs
  obtain ⟨truncates, shortens⟩ := run_after_truncation bytes [] [] ⟨none, 767, 2, 4⟩ [] 1
  obtain ⟨-, same⟩ := truncates .done succeeds
  exact ⟨succeeds, fun further => (same further).2, whole,
    shortens 767 2 1 [97, 98] whole (by decide)⟩

end Memo

end SqlMemo

import SqlMemo.Proofs.Memo.LazyLoading
import SqlMemo.Proofs.Storage.Decoding

/-!
# Memos that share a source

Memos that are used one after another pass on their source, which remembers what it has read. If it
answers at all times as one and the same image would, no memo notices the ones before it: each
replies as if it had a source of its own. A file of blobs in good order is such a source.
-/

set_option autoImplicit false

namespace SqlMemo

/-- A source that reading does not change. -/
structure Image where
  content : UInt32 → UInt32 → Except Error Bytes

namespace Image

instance : ByteSource Image where
  read image address length := (image.content address length, image)

/-- Sources that answer as the image does, and still do so when they have been read. -/
structure Depicts {σ : Type} [ByteSource σ] (image : Image) (showing : σ → Prop) : Prop where
  answer : ∀ {source}, showing source → ∀ address length,
    (ByteSource.read source address length).1 = image.content address length
  after : ∀ {source}, showing source → ∀ address length,
    showing (ByteSource.read source address length).2

def ofFile (bytes : Bytes) : Image where
  content address length :=
    BlobFile.decodeAt bytes (BlobFile.blockOffset address) (BlobFile.slot address) length.toNat

theorem depicts_ofFile (bytes : Bytes) : Depicts (ofFile bytes) (BlobFile.Faithful bytes) where
  answer faithful := faithful.read_eq_decodeAt
  after faithful := faithful.after_read

end Image

namespace Memo

variable {σ : Type} [ByteSource σ] {image : Image} {showing : σ → Prop}

/-! ## Memos over an image -/

/-- An outcome that is the same as over the image, which is still the one that the source shows. -/
structure SameOver {α : Type} (image : Image) (showing : σ → Prop)
    (outcome : α × Memo × Option σ) (ideal : α × Memo × Option Image) : Prop where
  result : outcome.1 = ideal.1
  memo : outcome.2.1 = ideal.2.1
  source : ∃ source, outcome.2.2 = some source ∧ showing source
  image : ideal.2.2 = some image

theorem load_over_image (depicts : image.Depicts showing) {source : σ} (shown : showing source)
    (memo : Memo) : SameOver image showing (memo.load (some source)) (memo.load (some image)) := by
  cases memo with
  | loaded | released => exact ⟨rfl, rfl, ⟨source, rfl, shown⟩, rfl⟩
  | stored address length =>
      have answer := depicts.answer shown address length
      have after := depicts.after shown address length
      have ideal : ByteSource.read image address length = (image.content address length, image) := rfl
      cases reads : ByteSource.read source address length with
      | mk result source' =>
          rw [reads] at answer after
          obtain rfl : result = image.content address length := answer
          cases content : image.content address length with
          | error cause =>
              rw [content] at reads ideal
              rw [load_stored_of_error reads, load_stored_of_error ideal]
              exact ⟨rfl, rfl, ⟨source', rfl, after⟩, rfl⟩
          | ok value =>
              rw [content] at reads ideal
              rw [load_stored_of_ok reads, load_stored_of_ok ideal]
              exact ⟨rfl, rfl, ⟨source', rfl, after⟩, rfl⟩

theorem perform_over_image (depicts : image.Depicts showing) {source : σ} (shown : showing source)
    (memo : Memo) (request : Request) :
    SameOver image showing (memo.perform (some source) request)
      (memo.perform (some image) request) := by
  by_cases needs : request.NeedsValue
  · have loads := load_over_image depicts shown memo
    rw [perform_of_needsValue needs, perform_of_needsValue needs, ← loads.result]
    cases (memo.load (some source)).1 with
    | error error => exact ⟨rfl, loads.memo, loads.source, loads.image⟩
    | ok value =>
        cases answered : answer value request with
        | error error => simpa only [answered] using ⟨rfl, loads.memo, loads.source, loads.image⟩
        | ok reply => simpa only [answered] using ⟨rfl, rfl, loads.source, loads.image⟩
  · by_cases release : request = .release
    · subst request
      exact ⟨rfl, rfl, ⟨source, rfl, shown⟩, rfl⟩
    · rw [perform_of_not_needsValue needs release, perform_of_not_needsValue needs release]
      exact ⟨rfl, rfl, ⟨source, rfl, shown⟩, rfl⟩

theorem run_over_image (depicts : image.Depicts showing) {source : σ} (shown : showing source)
    (memo : Memo) (requests : List Request) :
    SameOver image showing (memo.run (some source) requests) (memo.run (some image) requests) := by
  induction requests generalizing memo source with
  | nil => exact ⟨rfl, rfl, ⟨source, rfl, shown⟩, rfl⟩
  | cons request requests ih =>
      obtain ⟨reply, memo', ⟨source', behind, shown'⟩, image'⟩ :=
        perform_over_image depicts shown memo request
      simp only [run, reply, memo', behind, image']
      have rest := ih shown' (memo.perform (some image) request).2.1
      exact ⟨congrArg (List.cons _) rest.result, rest.memo, rest.source, rest.image⟩

/-! ## Sessions -/

/-- A memo from its beginning on: the pointer that it is made from, and all requests to it. -/
structure Session where
  pointer : MemoPointer
  requests : List Request

namespace Session

def run (session : Session) (source : Option σ) : List (Except Error Reply) × Memo × Option σ :=
  (ofPointer session.pointer).run source session.requests

/-- What there is to be seen of a session: the replies, and what becomes of the memo. -/
def outcome (session : Session) (source : Option σ) : List (Except Error Reply) × Memo :=
  ((session.run source).1, (session.run source).2.1)

/-- The outcomes of sessions one after another, each with the source that the one before it left
behind, and the source in the end. -/
def runAll (source : Option σ) :
    List Session → List (List (Except Error Reply) × Memo) × Option σ
  | [] => ([], source)
  | session :: sessions =>
    let rest := runAll (session.run source).2.2 sessions
    (session.outcome source :: rest.1, rest.2)

theorem outcome_over_image (depicts : image.Depicts showing) {source : σ} (shown : showing source)
    (session : Session) : session.outcome (some source) = session.outcome (some image) := by
  have same := run_over_image depicts shown (ofPointer session.pointer) session.requests
  exact Prod.ext same.result same.memo

theorem runAll_over_image (depicts : image.Depicts showing) {source : σ} (shown : showing source)
    (sessions : List Session) :
    (runAll (some source) sessions).1 = sessions.map fun session => session.outcome (some image) := by
  induction sessions generalizing source with
  | nil => rfl
  | cons session sessions ih =>
      obtain ⟨source', behind, shown'⟩ :=
        (run_over_image depicts shown (ofPointer session.pointer) session.requests).source
      have left : (session.run (some source)).2.2 = some source' := behind
      rw [runAll, left, ih shown', outcome_over_image depicts shown, List.map_cons]

/-- Memos that share a file of blobs do not notice each other: in every sequence of sessions, behind
whatever reads, each has the outcome that it has alone over the file as it was opened. So it is the
same in any two sequences, whatever is before and behind it. -/
theorem outcomes_of_shared_file (bytes : Bytes) (reads : List (UInt32 × UInt32))
    (sessions : List Session) :
    let opened := BlobFile.ofMedium (.ofBytes bytes)
    let used := opened.after (reads.map fun earlier => .read earlier.1 earlier.2)
    (runAll (some used) sessions).1 = sessions.map (fun session => session.outcome (some opened)) ∧
    ∀ session before behind before' behind',
      (runAll (some used) (before ++ session :: behind)).1[before.length]? =
        (runAll (some opened) (before' ++ session :: behind')).1[before'.length]? := by
  intro opened used
  have depicts := Image.depicts_ofFile bytes
  have fresh : BlobFile.Faithful bytes opened := .ofBytes bytes
  have faithful : BlobFile.Faithful bytes used := fresh.after_reads reads
  refine ⟨?_, ?_⟩
  · simp only [runAll_over_image depicts faithful, outcome_over_image depicts fresh]
  · intro session before behind before' behind'
    simp [runAll_over_image depicts faithful, runAll_over_image depicts fresh]

end Session

end Memo

end SqlMemo

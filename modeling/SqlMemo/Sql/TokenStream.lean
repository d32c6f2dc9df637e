import SqlMemo.Sql.Cursor

/-!
# Token streams

A statement as a stream of tokens. Tokens can be put back and come out again, the last one first,
before anything else is read. A fault does not end the stream, which goes on behind it.

Every loop over a stream ends because each reading makes the stream smaller: `size` counts the
tokens put back and the characters unread.
-/

set_option autoImplicit false

namespace SqlMemo.Sql

/-- What is still to come: the tokens put back, the last one first, then the rest of a statement. -/
structure TokenStream where
  pushed : List Token
  cursor : Cursor
  deriving DecidableEq, Repr

namespace TokenStream

def ofStatement (statement : String) : TokenStream :=
  ⟨[], .ofStatement statement⟩

def ofStatement? : Option String → Except ScanError TokenStream
  | none => .error .missingStatement
  | some statement => .ok (.ofStatement statement)

def hasNext (stream : TokenStream) : Bool :=
  !stream.pushed.isEmpty || !stream.cursor.rest.isEmpty

/-- A bound on the number of readings left. -/
def size (stream : TokenStream) : Nat :=
  stream.pushed.length + stream.cursor.rest.length

def next (stream : TokenStream) : Except ScanError Token × TokenStream :=
  match stream.pushed with
  | token :: pushed => (.ok token, { stream with pushed })
  | [] =>
    let (item, cursor) := stream.cursor.next
    (item, { stream with cursor })

/-- Reads the next token or fault, unless the stream is at its end. -/
def next? (stream : TokenStream) : Option (Except ScanError Token) × TokenStream :=
  if stream.hasNext then
    let (item, behind) := stream.next
    (some item, behind)
  else (none, stream)

/-- Puts a token in front of the stream. -/
def putBack (token : Token) (stream : TokenStream) : TokenStream :=
  { stream with pushed := token :: stream.pushed }

theorem hasNext_eq_false_iff {stream : TokenStream} :
    stream.hasNext = false ↔ stream.pushed = [] ∧ stream.cursor.rest = [] := by
  simp [hasNext]

@[simp] theorem hasNext_putBack (token : Token) (stream : TokenStream) :
    (stream.putBack token).hasNext = true := by
  simp [hasNext, putBack]

@[simp] theorem next_putBack (token : Token) (stream : TokenStream) :
    (stream.putBack token).next = (.ok token, stream) := by
  simp [next, putBack]

@[simp] theorem size_putBack (token : Token) (stream : TokenStream) :
    (stream.putBack token).size = stream.size + 1 := by
  simp only [size, putBack, List.length_cons]
  omega

theorem size_next_lt {stream : TokenStream} (more : stream.hasNext = true) :
    stream.next.2.size < stream.size := by
  cases pushed_eq : stream.pushed with
  | cons token pushed => simp [next, size, pushed_eq]
  | nil =>
    have unread : stream.cursor.rest ≠ [] := by
      simpa [hasNext, pushed_eq] using more
    have shorter := Cursor.length_next_lt unread
    simpa [next, size, pushed_eq] using shorter

/-! ## Reading to the end -/

/-- Reads on up to the first fault, with the tokens in `read` behind it, the last one first. -/
def collectOnto (read : List Token) (stream : TokenStream) :
    Except ScanError (List Token) × TokenStream :=
  if _ : stream.hasNext then
    let step := stream.next
    match step.1 with
    | .ok token => collectOnto (token :: read) step.2
    | .error fault => (.error fault, step.2)
  else (.ok read.reverse, stream)
termination_by stream.size
decreasing_by exact size_next_lt ‹_›

/-- All tokens to come. The first fault takes the place of the tokens before it, and the stream is
left behind it. -/
def collect (stream : TokenStream) : Except ScanError (List Token) × TokenStream :=
  stream.collectOnto []

/-- Reads on to the end, with the items in `read` behind it, the last one first. -/
def drainOnto (read : List (Except ScanError Token)) (stream : TokenStream) :
    List (Except ScanError Token) × TokenStream :=
  if _ : stream.hasNext then
    let step := stream.next
    drainOnto (step.1 :: read) step.2
  else (read.reverse, stream)
termination_by stream.size
decreasing_by exact size_next_lt ‹_›

/-- All tokens and faults to come, and the stream at its end. -/
def drain (stream : TokenStream) : List (Except ScanError Token) × TokenStream :=
  stream.drainOnto []

theorem collectOnto_eq (read : List Token) (stream : TokenStream) :
    stream.collectOnto read =
      (stream.collect.1.map (read.reverse ++ ·), stream.collect.2) := by
  suffices general : ∀ first second : List Token, stream.collectOnto (first ++ second) =
      ((stream.collectOnto first).1.map (second.reverse ++ ·), (stream.collectOnto first).2) by
    simpa [collect] using general [] read
  intro first
  fun_induction collectOnto first stream with
  | case1 read stream more step token item ih =>
    intro second
    rw [collectOnto, dif_pos more]
    simp only [step] at item ih
    simpa [item] using ih second
  | case2 read stream more step fault item =>
    intro second
    rw [collectOnto, dif_pos more]
    simp only [step] at item
    simp [item, step, Except.map]
  | case3 read stream ended =>
    intro second
    rw [collectOnto, dif_neg ended]
    simp [Except.map]

theorem drainOnto_eq (read : List (Except ScanError Token)) (stream : TokenStream) :
    stream.drainOnto read = (read.reverse ++ stream.drain.1, stream.drain.2) := by
  suffices general : ∀ first second : List (Except ScanError Token),
      stream.drainOnto (first ++ second) =
        (second.reverse ++ (stream.drainOnto first).1, (stream.drainOnto first).2) by
    simpa [drain] using general [] read
  intro first
  fun_induction drainOnto first stream with
  | case1 read stream more step ih =>
    intro second
    rw [drainOnto, dif_pos more]
    exact ih second
  | case2 read stream ended =>
    intro second
    rw [drainOnto, dif_neg ended]
    simp

theorem collect_of_end {stream : TokenStream} (ended : stream.hasNext = false) :
    stream.collect = (.ok [], stream) := by
  rw [collect, collectOnto, dif_neg (by simp [ended])]
  rfl

theorem collect_of_ok {stream : TokenStream} {token : Token} (more : stream.hasNext = true)
    (item : stream.next.1 = .ok token) :
    stream.collect = (stream.next.2.collect.1.map (token :: ·), stream.next.2.collect.2) := by
  rw [collect, collectOnto, dif_pos more]
  simp [item, collectOnto_eq]

theorem collect_of_error {stream : TokenStream} {fault : ScanError} (more : stream.hasNext = true)
    (item : stream.next.1 = .error fault) :
    stream.collect = (.error fault, stream.next.2) := by
  rw [collect, collectOnto, dif_pos more]
  simp [item]

theorem drain_of_end {stream : TokenStream} (ended : stream.hasNext = false) :
    stream.drain = ([], stream) := by
  rw [drain, drainOnto, dif_neg (by simp [ended])]
  rfl

theorem drain_of_hasNext {stream : TokenStream} (more : stream.hasNext = true) :
    stream.drain = (stream.next.1 :: stream.next.2.drain.1, stream.next.2.drain.2) := by
  rw [drain, drainOnto, dif_pos more]
  simp [drainOnto_eq]

end TokenStream

/-- The tokens of a statement, or its first fault. -/
def tokens (statement : String) : Except ScanError (List Token) :=
  (TokenStream.ofStatement statement).collect.1

end SqlMemo.Sql

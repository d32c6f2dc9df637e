import SqlMemo.Storage.BlobFile

/-!
# Loading blocks

A block is loaded in up to three parts, each going on where the last one ended. Together they are
one stretch of the file, as far as the file goes: from the block's offset on as many bytes as its
header announces.
-/

set_option autoImplicit false

namespace SqlMemo

/-! ## Windows -/

namespace Bytes

/-- A window and one behind the bytes that it got are one window. -/
theorem window_append_window (bytes : Bytes) (start first second : Nat) :
    bytes.window start first ++ bytes.window (start + (bytes.window start first).length) second =
      bytes.window start (first + second) := by
  simp only [window, List.length_take, List.length_drop, ← List.drop_drop, List.take_add]
  congr 1
  by_cases inside : first ≤ bytes.length - start
  · rw [Nat.min_eq_left inside]
  · have short : (bytes.drop start).length ≤ min first (bytes.length - start) := by
      rw [List.length_drop]
      omega
    have shorter : (bytes.drop start).length ≤ first := by
      rw [List.length_drop]
      omega
    rw [List.drop_eq_nil_of_le short, List.drop_eq_nil_of_le shorter]

theorem window_window (bytes : Bytes) {start first inner width : Nat} (inside : inner + width ≤ first) :
    (bytes.window start first).window inner width = bytes.window (start + inner) width := by
  simp only [window, List.drop_take, List.take_take, List.drop_drop]
  rw [Nat.min_eq_left (by omega)]

end Bytes

/-! ## Reading a medium -/

namespace Medium

/-- Reading up to a position meets no fault: the bad area begins there or behind it, or the end of
the content comes first. -/
def ReadableTo (medium : Medium) (stop : Nat) : Prop :=
  ∀ bad failure, medium.badArea = some (bad, failure) → stop ≤ bad ∨ medium.bytes.length < bad

theorem readFault?_eq_none_iff {medium : Medium} {start width : Nat} :
    medium.readFault? start width = none ↔ ∀ bad failure, medium.badArea = some (bad, failure) →
      ¬ (0 < width ∧ bad < start + width ∧ (bad ≤ medium.bytes.length ∨ bad ≤ start)) := by
  unfold readFault?
  cases area : medium.badArea with
  | none => simp
  | some pair =>
      obtain ⟨bad, failure⟩ := pair
      simp

theorem read_eq_ok_iff {medium : Medium} {start width : Nat} {content : Bytes} :
    medium.read start width = .ok content ↔
      medium.readFault? start width = none ∧ content = medium.bytes.window start width := by
  unfold read
  cases medium.readFault? start width with
  | some failure => simp
  | none => simp [eq_comm]

theorem read_of_readableTo {medium : Medium} {start width stop : Nat}
    (readable : medium.ReadableTo stop) (inside : start ≤ medium.bytes.length)
    (short : start + width ≤ stop) :
    medium.read start width = .ok (medium.bytes.window start width) := by
  refine read_eq_ok_iff.mpr ⟨readFault?_eq_none_iff.mpr ?_, rfl⟩
  intro bad failure area
  have outside := readable bad failure area
  omega

end Medium

/-! ## The extent of a block -/

namespace Block

/-- The number of bytes from a block's offset to its end, if the file goes on that long: one chunk,
or for a single blob as many as its header says and at least one. -/
def extent (bytes : Bytes) (offset : Nat) : Nat :=
  if bytes[offset]? = some singleType then
    chunkSize * max 1 (bytes.window (offset + 1) 2).toNat
  else chunkSize

theorem chunkSize_le_extent (bytes : Bytes) (offset : Nat) : chunkSize ≤ extent bytes offset := by
  unfold extent chunkSize
  split <;> omega

private theorem drop_of_header {bytes : Bytes} {offset : Nat} {type low high : UInt8}
    (header : bytes.window offset headerSize = [type, low, high]) :
    ∃ behind, bytes.drop offset = type :: low :: high :: behind := by
  refine ⟨(bytes.drop offset).drop headerSize, ?_⟩
  have halves := List.take_append_drop headerSize (bytes.drop offset)
  rw [← halves, show (bytes.drop offset).take headerSize = _ from header]
  simp [headerSize]

private theorem extent_of_header {bytes : Bytes} {offset : Nat} {type low high : UInt8}
    (header : bytes.window offset headerSize = [type, low, high]) :
    extent bytes offset = chunkSize + extraSize type (Bytes.toNat [low, high]) := by
  obtain ⟨behind, shape⟩ := drop_of_header header
  have first : bytes[offset]? = some type := by
    rw [← List.head?_drop, shape, List.head?_cons]
  have chunks : bytes.window (offset + 1) 2 = [low, high] := by
    rw [Bytes.window, ← List.drop_drop, shape]
    rfl
  simp only [extent, extraSize, first, chunks, Option.some.injEq, chunkSize]
  split <;> omega

/-! ## Loading in parts -/

private theorem bind_ok {ε α β : Type} {first : Except ε α} {next : α → Except ε β} {result : β}
    (done : first >>= next = .ok result) :
    ∃ value, first = .ok value ∧ next value = .ok result := by
  cases first with
  | error failure => cases done
  | ok value => exact ⟨value, rfl, done⟩

/-- The three parts of a loaded block. -/
private theorem load_parts {offset : Nat} {medium : Medium} {block : Bytes}
    (loaded : load offset medium = .ok block) :
    ∃ type low high chunk extra,
      medium.read offset headerSize = .ok [type, low, high] ∧
      medium.read (offset + headerSize) (chunkSize - headerSize) = .ok chunk ∧
      medium.read (offset + (type :: low :: high :: chunk).length)
        (extraSize type (Bytes.toNat [low, high])) = .ok extra ∧
      block = type :: low :: high :: chunk ++ extra := by
  obtain ⟨header, read_header, loaded⟩ := bind_ok loaded
  split at loaded
  · rename_i type low high
    obtain ⟨chunk, read_chunk, loaded⟩ := bind_ok loaded
    obtain ⟨extra, read_extra, loaded⟩ := bind_ok loaded
    exact ⟨type, low, high, chunk, extra, read_header, read_chunk, read_extra,
      (Except.ok.inj loaded).symm⟩
  · cases loaded

private theorem load_of_parts {offset : Nat} {medium : Medium} {type low high : UInt8}
    {chunk extra : Bytes} (header : medium.read offset headerSize = .ok [type, low, high])
    (first : medium.read (offset + headerSize) (chunkSize - headerSize) = .ok chunk)
    (further : medium.read (offset + (type :: low :: high :: chunk).length)
      (extraSize type (Bytes.toNat [low, high])) = .ok extra) :
    load offset medium = .ok (type :: low :: high :: chunk ++ extra) := by
  simp only [load, header, bind, Except.bind, first, further, pure, Except.pure]

/-- The three parts make up one window. -/
private theorem parts_eq_window {bytes : Bytes} {offset : Nat} {type low high : UInt8}
    (header : bytes.window offset headerSize = [type, low, high]) :
    type :: low :: high :: bytes.window (offset + headerSize) (chunkSize - headerSize) =
      bytes.window offset chunkSize := by
  have joined := bytes.window_append_window offset headerSize (chunkSize - headerSize)
  rw [header] at joined
  exact joined

private theorem header_of_length {bytes : Bytes} {offset : Nat}
    (long : offset + headerSize ≤ bytes.length) :
    ∃ type low high, bytes.window offset headerSize = [type, low, high] := by
  have length : (bytes.window offset headerSize).length = 3 := by
    rw [Bytes.length_window, Nat.min_eq_left (by omega)]
    rfl
  generalize bytes.window offset headerSize = header at length ⊢
  match header, length with
  | [type, low, high], _ => exact ⟨type, low, high, rfl⟩

private theorem length_of_header {bytes : Bytes} {offset : Nat} {type low high : UInt8}
    (header : bytes.window offset headerSize = [type, low, high]) :
    offset + headerSize ≤ bytes.length := by
  have length := congrArg List.length header
  rw [Bytes.length_window] at length
  simp only [headerSize, List.length_cons, List.length_nil] at length ⊢
  omega

/-- A block can be loaded exactly if its header is there and nothing that its extent takes in is
bad. It is what the file holds there. -/
theorem load_eq_ok_iff {offset : Nat} {medium : Medium} {block : Bytes} :
    load offset medium = .ok block ↔
      offset + headerSize ≤ medium.bytes.length ∧
      medium.ReadableTo (offset + extent medium.bytes offset) ∧
      block = medium.bytes.window offset (extent medium.bytes offset) := by
  have sizes : headerSize = 3 ∧ chunkSize = 4096 := ⟨rfl, rfl⟩
  constructor
  · intro loaded
    obtain ⟨type, low, high, chunk, extra, header, first, further, rfl⟩ := load_parts loaded
    rw [Medium.read_eq_ok_iff] at header first further
    obtain ⟨header_sound, header_eq⟩ := header
    obtain ⟨first_sound, rfl⟩ := first
    obtain ⟨further_sound, rfl⟩ := further
    have long := length_of_header header_eq.symm
    have extent_eq := extent_of_header header_eq.symm
    rw [parts_eq_window header_eq.symm] at further_sound ⊢
    refine ⟨long, ?_, ?_⟩
    · intro bad failure area
      have outside_first := Medium.readFault?_eq_none_iff.mp first_sound bad failure area
      have outside_header := Medium.readFault?_eq_none_iff.mp header_sound bad failure area
      have outside_further := Medium.readFault?_eq_none_iff.mp further_sound bad failure area
      rw [Bytes.length_window] at outside_further
      omega
    · rw [extent_eq]
      exact Bytes.window_append_window ..
  · rintro ⟨long, readable, rfl⟩
    obtain ⟨type, low, high, header_eq⟩ := header_of_length long
    have extent_eq := extent_of_header header_eq
    have header : medium.read offset headerSize = .ok [type, low, high] := by
      rw [← header_eq]
      exact Medium.read_of_readableTo readable (by omega) (by omega)
    have first : medium.read (offset + headerSize) (chunkSize - headerSize) =
        .ok (medium.bytes.window (offset + headerSize) (chunkSize - headerSize)) :=
      Medium.read_of_readableTo readable (by omega) (by omega)
    have chunk_length := medium.bytes.length_window offset chunkSize
    have further := Medium.read_of_readableTo readable
      (show offset + (medium.bytes.window offset chunkSize).length ≤ _ by omega)
      (show _ + extraSize type (Bytes.toNat [low, high]) ≤ _ by omega)
    rw [← parts_eq_window header_eq] at further
    rw [load_of_parts header first further, parts_eq_window header_eq, extent_eq]
    exact congrArg _ (Bytes.window_append_window ..)

/-- A block whose header is not all there cannot be loaded. -/
theorem load_of_short {offset : Nat} {medium : Medium} (sound : medium.badArea = none)
    (short : medium.bytes.length < offset + headerSize) :
    load offset medium = .error .unexpectedEnd := by
  have read : medium.read offset headerSize = .ok (medium.bytes.window offset headerSize) := by
    rw [Medium.read_eq_ok_iff, Medium.readFault?_eq_none_iff, sound]
    exact ⟨fun _ _ area => (nomatch area), rfl⟩
  simp only [load, read, bind, Except.bind]
  split
  · rename_i header
    exact absurd (length_of_header header) (by omega)
  · rfl

end Block

/-- Seeking and loading the block at an offset succeeds on a medium and gives certain bytes. -/
structure Medium.Loads (medium : Medium) (offset : Nat) (block : Bytes) : Prop where
  seeks : medium.seekFault = none
  header : offset + Block.headerSize ≤ medium.bytes.length
  readable : medium.ReadableTo (offset + Block.extent medium.bytes offset)
  content : block = medium.bytes.window offset (Block.extent medium.bytes offset)

/-! ## Reading a blob file -/

namespace BlobFile

theorem and_mask_eq_blockOffset (address : UInt32) :
    (address &&& 0xFFFFFF00).toNat = blockOffset address := by
  have small := address.toNat_lt
  rw [UInt32.toNat_and, blockOffset]
  -- Bit by bit: the mask keeps the bits from 8 to 31, and so do dividing and multiplying by 256.
  apply Nat.eq_of_testBit_eq
  intro bit
  have mask : (0xFFFFFF00 : UInt32).toNat = (2 ^ 24 - 1) * 2 ^ 8 := rfl
  rw [mask, show (256 : Nat) = 2 ^ 8 from rfl, Nat.testBit_and, Nat.testBit_mul_two_pow,
    Nat.testBit_mul_two_pow, Nat.testBit_div_two_pow, Nat.testBit_two_pow_sub_one]
  by_cases high : bit < 32
  · by_cases low : 8 ≤ bit
    · have inside : bit - 8 < 24 := by omega
      simp [low, inside, Nat.sub_add_cancel low]
    · simp [low]
  · have zero : address.toNat.testBit bit = false := by
      apply Nat.testBit_lt_two_pow
      exact Nat.lt_of_lt_of_le small (Nat.pow_le_pow_right (by decide) (by omega))
    have same : bit - 8 + 8 = bit := by omega
    simp [zero, same]

theorem and_mask_eq_slot (address : UInt32) : (address &&& 0xFF).toNat = slot address := by
  rw [UInt32.toNat_and, slot]
  exact Nat.and_two_pow_sub_one_eq_mod address.toNat 8

/-- What reading at an address gives with the block of that address at hand. -/
def blobIn (block : Bytes) (address length : UInt32) : Except Error Bytes :=
  (Block.blob block (slot address) length.toNat).mapError (.corruptBlock (blockOffset address))

private theorem seek_load_eq_ok_iff {medium : Medium} {offset : Nat} {block : Bytes} :
    ((medium.seek offset).1.bind fun _ => Block.load offset (medium.seek offset).2) = .ok block ↔
      medium.Loads offset block := by
  unfold Medium.seek
  cases fault : medium.seekFault with
  | some failure =>
      constructor
      · intro loaded
        cases loaded
      · intro loads
        rw [loads.seeks] at fault
        cases fault
  | none =>
      refine Block.load_eq_ok_iff.trans ⟨?_, ?_⟩
      · rintro ⟨header, readable, content⟩
        exact ⟨fault, header, readable, content⟩
      · intro loads
        exact ⟨loads.header, loads.readable, loads.content⟩

theorem block_of_loads {file : BlobFile} {offset : Nat} {block : Bytes}
    (fresh : file.blocks[offset]? = none) (loads : file.medium.Loads offset block) :
    file.block offset = (.ok block,
      ⟨{ file.medium with seeks := offset :: file.medium.seeks },
        file.blocks.insert offset block⟩) := by
  simp only [BlobFile.block, fresh, seek_load_eq_ok_iff.mpr loads]
  rfl

theorem block_of_not_loads {file : BlobFile} {offset : Nat}
    (fresh : file.blocks[offset]? = none) (fails : ∀ block, ¬ file.medium.Loads offset block) :
    ∃ failure, file.block offset = (.error failure,
      ⟨{ file.medium with seeks := offset :: file.medium.seeks }, file.blocks⟩) := by
  cases loaded : ((file.medium.seek offset).1.bind fun _ =>
      Block.load offset (file.medium.seek offset).2) with
  | ok block => exact absurd (seek_load_eq_ok_iff.mp loaded) (fails block)
  | error failure =>
      refine ⟨failure, ?_⟩
      simp only [BlobFile.block, fresh, loaded]
      rfl

theorem read_of_kept {file : BlobFile} {address : UInt32} {block : Bytes}
    (kept : file.blocks[blockOffset address]? = some block) (length : UInt32) :
    file.read address length = (blobIn block address length, file) := by
  simp only [read, block_of_kept kept, blobIn]

theorem read_of_loads {file : BlobFile} {address : UInt32} {block : Bytes}
    (fresh : file.blocks[blockOffset address]? = none)
    (loads : file.medium.Loads (blockOffset address) block) (length : UInt32) :
    file.read address length = (blobIn block address length,
      ⟨{ file.medium with seeks := blockOffset address :: file.medium.seeks },
        file.blocks.insert (blockOffset address) block⟩) := by
  simp only [read, block_of_loads fresh loads, blobIn]

theorem read_of_not_loads {file : BlobFile} {address : UInt32}
    (fresh : file.blocks[blockOffset address]? = none)
    (fails : ∀ block, ¬ file.medium.Loads (blockOffset address) block) (length : UInt32) :
    ∃ failure, file.read address length = (.error (.io failure),
      ⟨{ file.medium with seeks := blockOffset address :: file.medium.seeks }, file.blocks⟩) := by
  obtain ⟨failure, loaded⟩ := block_of_not_loads fresh fails
  exact ⟨failure, by simp only [read, loaded]⟩

theorem read_of_short {file : BlobFile} {address : UInt32}
    (fresh : file.blocks[blockOffset address]? = none) (seeks : file.medium.seekFault = none)
    (sound : file.medium.badArea = none)
    (short : file.medium.bytes.length < blockOffset address + Block.headerSize)
    (length : UInt32) : (file.read address length).1 = .error (.io .unexpectedEnd) := by
  have unloaded : Block.load (blockOffset address) (file.medium.seek (blockOffset address)).2 =
      .error .unexpectedEnd := Block.load_of_short sound short
  have failed : ((file.medium.seek (blockOffset address)).1.bind fun _ =>
      Block.load (blockOffset address) (file.medium.seek (blockOffset address)).2) =
      .error .unexpectedEnd := by
    rw [unloaded]
    simp only [Medium.seek, seeks]
    rfl
  simp only [read, block, fresh, failed]

/-- All that reading can do: answer from a block that is kept, load the block and keep it, or fail
to load it and keep what there was. -/
theorem read_cases (file : BlobFile) (address length : UInt32) :
    (∃ block, file.blocks[blockOffset address]? = some block ∧
      file.read address length = (blobIn block address length, file)) ∨
    (file.blocks[blockOffset address]? = none ∧
      ∃ block, file.medium.Loads (blockOffset address) block ∧
        file.read address length = (blobIn block address length,
          ⟨{ file.medium with seeks := blockOffset address :: file.medium.seeks },
            file.blocks.insert (blockOffset address) block⟩)) ∨
    (file.blocks[blockOffset address]? = none ∧
      (∀ block, ¬ file.medium.Loads (blockOffset address) block) ∧
      ∃ failure, file.read address length = (.error (.io failure),
        ⟨{ file.medium with seeks := blockOffset address :: file.medium.seeks },
          file.blocks⟩)) := by
  cases entry : file.blocks[blockOffset address]? with
  | some block => exact .inl ⟨block, rfl, read_of_kept entry length⟩
  | none =>
      by_cases loads : ∃ block, file.medium.Loads (blockOffset address) block
      · obtain ⟨block, loads⟩ := loads
        exact .inr (.inl ⟨rfl, block, loads, read_of_loads entry loads length⟩)
      · have fails : ∀ block, ¬ file.medium.Loads (blockOffset address) block :=
          fun block found => loads ⟨block, found⟩
        exact .inr (.inr ⟨rfl, fails, read_of_not_loads entry fails length⟩)

end BlobFile

end SqlMemo

import OmegaEdit.Change

/-! Payloads in files. A raw payload file is replaced by independently compressed
blocks when that saves enough. A read decodes the blocks its range meets and
returns the bytes of the raw file. The switch renames two files, and takes the
first rename back when the second one fails. -/
namespace OmegaEdit
open Splice

/-- A compressor and its inverse. -/
structure Zstd where
  compress : List Byte → Option (List Byte)
  decompress : List Byte → Option (List Byte)
  inverts : ∀ {bytes compressed}, compress bytes = some compressed →
    decompress compressed = some bytes

/-- Which file operations of a compression succeed. -/
structure PayloadIo where
  opensFiles : Bool
  readsBlock : Nat → Bool
  writesBlock : Nat → Bool
  closesOutput : Bool
  renamesRaw : Bool
  renamesCompressed : Bool
  renamesBack : Bool

structure CompressedPayloadBlock where
  fileOffset : Nat
  compressedLength : Nat
  uncompressedLength : Nat

/-- A payload of `length` bytes with the file at its path. -/
structure FilePayload where
  length : Nat
  file : Option (List Byte)
  compressedBlocks : List CompressedPayloadBlock

def payloadBlockSize : Nat := 1048576

/-- What the block loop has written. -/
structure WrittenBlocks where
  success : Bool
  blocks : List CompressedPayloadBlock
  output : List Byte

/-- The block loop; the fuel is the number of bytes. -/
def compressBlocks (zstd : Zstd) (io : PayloadIo) (input : List Byte) (length : Nat) :
    Nat → Nat → WrittenBlocks → WrittenBlocks
  | 0, _, written => written
  | fuel + 1, remaining, written =>
    if remaining = 0 then written
    else
      let sourceLength := min remaining payloadBlockSize
      let source := Splice.slice input (length - remaining) sourceLength
      if io.readsBlock written.blocks.length = false ∨ source.length ≠ sourceLength then
        { written with success := false }
      else match zstd.compress source with
        | none => { written with success := false }
        | some compressed =>
          if (compressed.length : Int) > int64Max - written.output.length ∨
              io.writesBlock written.blocks.length = false then
            { written with success := false }
          else compressBlocks zstd io input length fuel (remaining - sourceLength)
            { written with
              blocks := written.blocks ++ [⟨written.output.length, compressed.length, sourceLength⟩]
              output := written.output ++ compressed }

/-- Decode the blocks that meet `[offset, offset + byteCount)`. -/
def readBlocks (zstd : Zstd) (file : List Byte) (offset byteCount : Nat) :
    Nat → List CompressedPayloadBlock → List Byte → Option (List Byte)
  | _, [], copied => some copied
  | blockStart, block :: rest, copied =>
    let blockEnd := blockStart + block.uncompressedLength
    if blockEnd ≤ offset then readBlocks zstd file offset byteCount blockEnd rest copied
    else if blockStart ≥ offset + byteCount then some copied
    else
      let compressed := Splice.slice file block.fileOffset block.compressedLength
      if compressed.length ≠ block.compressedLength then none
      else match zstd.decompress compressed with
        | none => none
        | some decoded =>
          if decoded.length ≠ block.uncompressedLength then none
          else
            let copyStart := max offset blockStart
            let copyEnd := min (offset + byteCount) blockEnd
            readBlocks zstd file offset byteCount blockEnd rest
              (copied ++ Splice.slice decoded (copyStart - blockStart) (copyEnd - copyStart))

namespace FilePayload

def compressFile (zstd : Zstd) (io : PayloadIo) (payload : FilePayload) : FilePayload × Int :=
  match payload.file with
  | none => (payload, -1)
  | some input =>
    if payload.length = 0 ∨ io.opensFiles = false then (payload, -1)
    else
      let length := payload.length
      let written := compressBlocks zstd io input length length length ⟨true, [], []⟩
      let success := written.success && io.closesOutput
      -- three 64-bit numbers for each block
      let metadataBytes := written.blocks.length * 24
      let minimumSavings := max 4096 (length / 20)
      let fileOffset := written.output.length
      if success = false ∨ fileOffset > length - min length metadataBytes ∨
          fileOffset + metadataBytes > length - min length minimumSavings then
        (payload, if success then 0 else -1)
      else if io.renamesRaw = false then (payload, -1)
      else if io.renamesCompressed = false then
        ({ payload with file := if io.renamesBack then some input else none }, -1)
      else ({ payload with file := some written.output, compressedBlocks := written.blocks }, 0)

def readFile (zstd : Zstd) (payload : FilePayload) (offset byteCount : Int) :
    Option (List Byte) :=
  if offset < 0 ∨ byteCount < 0 ∨ offset > payload.length ∨ byteCount > payload.length - offset then
    none
  else if byteCount = 0 then some []
  else match payload.file with
    | none => none
    | some file =>
      let bytes :=
        if payload.compressedBlocks.isEmpty then
          some (Splice.slice file offset.toNat byteCount.toNat)
        else readBlocks zstd file offset.toNat byteCount.toNat 0 payload.compressedBlocks []
      bytes.filter (fun bytes => (bytes.length : Int) = byteCount)

end FilePayload

/-- Blocks that decode to the bytes they stand for, one after the other. -/
inductive Stored (zstd : Zstd) (file : List Byte) :
    List CompressedPayloadBlock → List Byte → Prop where
  | nil : Stored zstd file [] []
  | cons {block : CompressedPayloadBlock} {rest : List CompressedPayloadBlock}
      {part others : List Byte}
      (inside : block.fileOffset + block.compressedLength ≤ file.length)
      (decoded : zstd.decompress (Splice.slice file block.fileOffset block.compressedLength) =
        some part)
      (sized : part.length = block.uncompressedLength) (behind : Stored zstd file rest others) :
      Stored zstd file (block :: rest) (part ++ others)

section Blocks
variable {zstd : Zstd} {io : PayloadIo} {file input content copied : List Byte}
  {blocks : List CompressedPayloadBlock} {offset byteCount blockStart : Nat}

lemma Stored.snoc {source compressed : List Byte} (stored : Stored zstd file blocks content)
    (compresses : zstd.compress source = some compressed) :
    Stored zstd (file ++ compressed)
      (blocks ++ [⟨file.length, compressed.length, source.length⟩]) (content ++ source) := by
  have added : slice (file ++ compressed) file.length compressed.length = compressed := by
    simp [slice]
  induction stored with
  | nil =>
    have inside : file.length + compressed.length ≤ (file ++ compressed).length := by simp
    have alone : Stored zstd (file ++ compressed)
        [⟨file.length, compressed.length, source.length⟩] (source ++ []) :=
      .cons inside (by rw [added]; exact zstd.inverts compresses) rfl .nil
    rwa [List.append_nil] at alone
  | cons inside decoded sized behind ih =>
    rw [List.append_assoc]
    refine .cons ?_ ?_ sized ih
    · rw [List.length_append]
      omega
    · rwa [slice_append_left _ inside]

/-- The blocks that the loop writes stand for the bytes that it has read. -/
lemma compressBlocks_stored {length fuel remaining : Nat} {written after : WrittenBlocks}
    (enough : remaining ≤ fuel) (inside : remaining ≤ length)
    (stored : Stored zstd written.output written.blocks (input.take (length - remaining)))
    (run : compressBlocks zstd io input length fuel remaining written = after)
    (success : after.success = true) :
    Stored zstd after.output after.blocks (input.take length) := by
  induction fuel generalizing remaining written with
  | zero =>
    obtain rfl : remaining = 0 := by omega
    rwa [← run]
  | succ fuel ih =>
    rw [compressBlocks] at run
    split at run
    · next empty =>
      rw [empty] at stored
      rwa [← run]
    · dsimp only at run
      split at run
      · cases run
        cases success
      · next read =>
        split at run
        · cases run
          cases success
        · next compressed compresses =>
          split at run
          · cases run
            cases success
          · have positive : 0 < payloadBlockSize := by decide
            have whole : (slice input (length - remaining)
                (min remaining payloadBlockSize)).length = min remaining payloadBlockSize := by
              simpa using fun short => read (.inr short)
            have longer := stored.snoc compresses
            rw [whole, slice, ← List.take_add] at longer
            refine ih (by omega) (by omega) ?_ run
            have reached : length - (remaining - min remaining payloadBlockSize) =
                length - remaining + min remaining payloadBlockSize := by omega
            rwa [reached]

/-- A read returns the part of its range that the blocks hold. -/
lemma readBlocks_eq (stored : Stored zstd file blocks content) :
    readBlocks zstd file offset byteCount blockStart blocks copied =
      some (copied ++ slice content (offset - blockStart)
        (offset + byteCount - max offset blockStart)) := by
  induction stored generalizing blockStart copied with
  | nil => simp [readBlocks, slice]
  | @cons block rest part others inside decoded sized behind ih =>
    rw [readBlocks]
    dsimp only
    rw [← sized]
    by_cases before : blockStart + part.length ≤ offset
    · -- the range begins behind this block
      have skip : offset - blockStart = part.length + (offset - (blockStart + part.length)) := by omega
      have same : max offset (blockStart + part.length) = max offset blockStart := by omega
      rw [if_pos before, ih, skip, slice_append_right, same]
    · rw [if_neg before]
      by_cases behind : blockStart ≥ offset + byteCount
      · have none : offset + byteCount - max offset blockStart = 0 := by omega
        rw [if_pos behind, none, slice_zero, List.append_nil]
      · rw [if_neg behind, length_slice_of_le inside, if_neg (by simp), decoded]
        dsimp only
        have starts : max offset blockStart - blockStart = offset - blockStart := by omega
        have copies : min (offset + byteCount) (blockStart + part.length) - max offset blockStart =
            min (offset + byteCount - max offset blockStart) (part.length - (offset - blockStart)) := by
          omega
        have next : offset - (blockStart + part.length) = 0 := by omega
        have left : offset + byteCount - max offset (blockStart + part.length) =
            offset + byteCount - max offset blockStart - (part.length - (offset - blockStart)) := by
          omega
        rw [if_neg (by simp), ih, List.append_assoc, slice_append _ _ _ (by omega), starts,
          copies, slice_clip, next, left]

end Blocks

namespace FilePayload
variable {payload : FilePayload} {bytes : List Byte}

/-- Every read of a payload returns the bytes of its range. -/
def Reads (zstd : Zstd) (payload : FilePayload) (bytes : List Byte) : Prop :=
  ∀ offset byteCount : Int, 0 ≤ offset → 0 ≤ byteCount → offset + byteCount ≤ bytes.length →
    payload.readFile zstd offset byteCount = some (Splice.slice bytes offset.toNat byteCount.toNat)

lemma reads_of_file (zstd : Zstd) {file : List Byte} (sized : payload.length = bytes.length)
    (present : payload.file = some file)
    (holds : if payload.compressedBlocks.isEmpty then file = bytes
      else Stored zstd file payload.compressedBlocks bytes) : payload.Reads zstd bytes := by
  intro offset byteCount reached nonneg inside
  have whole := length_slice_of_le
    (by omega : offset.toNat + byteCount.toNat ≤ bytes.length)
  rw [readFile, if_neg (by omega)]
  by_cases none : byteCount = 0
  · rw [if_pos none, none]
    simp
  · rw [if_neg none, present]
    dsimp only
    split at holds
    · next raw =>
      rw [if_pos raw, holds, Option.filter_some, if_pos (by simp [whole]; omega)]
    · next compressed =>
      have count : offset.toNat + byteCount.toNat - max offset.toNat 0 = byteCount.toNat := by omega
      rw [if_neg compressed, readBlocks_eq holds, count, List.nil_append, Nat.sub_zero,
        Option.filter_some, if_pos (by simp [whole]; omega)]

/-- After a compression every read returns the bytes of the raw file. A failed one keeps the
payload readable, unless the raw file has been renamed and cannot be renamed back. -/
theorem compressFile_keeps_bytes {zstd : Zstd} {io : PayloadIo} {next : FilePayload} {result : Int}
    (sized : payload.length = bytes.length) (raw : payload.file = some bytes)
    (plain : payload.compressedBlocks = []) (run : payload.compressFile zstd io = (next, result)) :
    (result = 0 ∧ next.Reads zstd bytes) ∨ (result = -1 ∧ (next.Reads zstd bytes ∨
      io.renamesRaw = true ∧ io.renamesCompressed = false ∧ io.renamesBack = false)) := by
  have before : payload.Reads zstd bytes := by
    refine reads_of_file zstd sized raw ?_
    rw [plain]
    rfl
  unfold compressFile at run
  rw [raw] at run
  dsimp only at run
  split at run
  · cases run
    exact .inr ⟨rfl, .inl before⟩
  · next given =>
    generalize ran : compressBlocks zstd io bytes payload.length payload.length payload.length
      ⟨true, [], []⟩ = written at run
    split at run
    · cases run
      cases written.success && io.closesOutput with
      | false => exact .inr ⟨rfl, .inl before⟩
      | true => exact .inl ⟨rfl, before⟩
    · next saves =>
      split at run
      · cases run
        exact .inr ⟨rfl, .inl before⟩
      · next renamed =>
        split at run
        · next stays =>
          cases run
          cases back : io.renamesBack with
          | false => exact .inr ⟨rfl, .inr ⟨by simpa using renamed, stays, rfl⟩⟩
          | true =>
            refine .inr ⟨rfl, .inl (reads_of_file zstd sized rfl ?_)⟩
            rw [plain]
            rfl
        · cases run
          have success : written.success = true := by
            cases succeeds : written.success with
            | false => exact absurd (.inl (by rw [succeeds, Bool.false_and])) saves
            | true => rfl
          have stored := compressBlocks_stored (le_rfl) (le_rfl)
            (by rw [Nat.sub_self]; exact .nil) ran success
          rw [sized, List.take_length] at stored
          refine .inl ⟨rfl, reads_of_file zstd sized rfl ?_⟩
          split
          · next empty =>
            have none : written.blocks = [] := List.isEmpty_iff.mp empty
            rw [none] at stored
            cases stored
            exact absurd (.inl sized) given
          · exact stored

end FilePayload

/-- The frames that zstd 1.5.5 writes at level 1 for a whole block, for 137 bytes and for 8192 bytes, all
of them 65. The other blocks are left out. -/
def frameOf (count : Nat) : Option (List Byte) :=
  if count = 1048576 then
    some [40, 181, 47, 253, 128, 72, 0, 0, 16, 0, 84, 0, 0, 16, 65, 65, 1, 0, 251, 255, 57, 192, 2, 2, 0,
      16, 65, 2, 0, 16, 65, 2, 0, 16, 65, 2, 0, 16, 65, 2, 0, 16, 65, 2, 0, 16, 65, 3, 0, 16, 65]
  else if count = 137 then
    some [40, 181, 47, 253, 32, 137, 77, 0, 0, 16, 65, 65, 1, 0, 4, 10, 96, 1]
  else if count = 8192 then
    some [40, 181, 47, 253, 96, 0, 31, 77, 0, 0, 16, 65, 65, 1, 0, 251, 223, 3, 44]
  else none

def levelOne : Zstd where
  compress bytes := if bytes.all (· == 65) then frameOf bytes.length else none
  decompress frame :=
    ([1048576, 137, 8192].find? fun count => frameOf count = some frame).map (List.replicate · 65)
  inverts := by
    intro bytes frame compresses
    split at compresses
    · next same =>
      have run : bytes = List.replicate bytes.length 65 := List.eq_replicate_length.mpr (by simpa using same)
      generalize bytes.length = count at run compresses
      subst run
      rw [frameOf] at compresses
      split at compresses
      · next whole =>
        rw [whole, ← Option.some.inj compresses]
        rfl
      split at compresses
      · next last =>
        rw [last, ← Option.some.inj compresses]
        rfl
      split at compresses
      · next page =>
        rw [page, ← Option.some.inj compresses]
        rfl
      · cases compresses
    · cases compresses

lemma levelOne_compress (count : Nat) :
    levelOne.compress (List.replicate count 65) = frameOf count := by
  simp only [levelOne, List.all_replicate, List.length_replicate]
  split
  · rfl
  · exact if_pos (by simp)

section
variable {io : PayloadIo} {length remaining count : Nat} {written : WrittenBlocks} {frame : List Byte}

/-- A turn of the block loop in which nothing fails. -/
lemma compressBlocks_next (fuel : Nat) (works : ∀ block, io.readsBlock block = true ∧
      io.writesBlock block = true) (size : min remaining payloadBlockSize = count)
    (range : remaining ≠ 0 ∧ remaining ≤ length) (compresses : frameOf count = some frame)
    (room : (frame.length : Int) ≤ int64Max - written.output.length) :
    compressBlocks levelOne io (List.replicate length 65) length (fuel + 1) remaining written =
      compressBlocks levelOne io (List.replicate length 65) length fuel (remaining - count)
        { written with
          blocks := written.blocks ++ [⟨written.output.length, frame.length, count⟩]
          output := written.output ++ frame } := by
  have source : slice (List.replicate length (65 : Byte)) (length - remaining) count =
      List.replicate count 65 := by
    rw [slice, List.drop_replicate, List.take_replicate]
    congr 1
    omega
  rw [compressBlocks, if_neg range.1]
  dsimp only
  rw [size, source, if_neg (by simp [works]), levelOne_compress, compresses]
  dsimp only
  rw [if_neg (by simp [works]; omega)]

end

/-- A compression that saves enough renames the files. -/
lemma FilePayload.compressFile_of_written {zstd : Zstd} {io : PayloadIo} {payload : FilePayload}
    {bytes : List Byte} {written : WrittenBlocks} (raw : payload.file = some bytes)
    (nonempty : payload.length ≠ 0) (works : io.opensFiles = true ∧ io.closesOutput = true)
    (ran : compressBlocks zstd io bytes payload.length payload.length payload.length ⟨true, [], []⟩ =
      written) (success : written.success = true)
    (saves : written.output.length + written.blocks.length * 24 + max 4096 (payload.length / 20) ≤
      payload.length) (renames : io.renamesRaw = true) :
    payload.compressFile zstd io = if io.renamesCompressed = false then
      ({ payload with file := if io.renamesBack then some bytes else none }, -1)
    else ({ payload with file := some written.output, compressedBlocks := written.blocks }, 0) := by
  rw [compressFile, raw]
  dsimp only
  rw [if_neg (by simp [nonempty, works.1]), ran, success, works.2, if_neg (by simp; omega),
    if_neg (by simp [renames])]

namespace FilePayload

/-- A payload as in the tests, of two whole blocks and a short one, is switched to the frames and read
back from them. -/
theorem compressFile_keeps_bytes_blocks :
    let io : PayloadIo := ⟨true, fun _ => true, fun _ => true, true, true, true, true⟩
    let bytes := List.replicate 2097289 65
    let payload : FilePayload := ⟨2097289, some bytes, []⟩
    ∃ next, payload.compressFile levelOne io = (next, 0) ∧
      next.compressedBlocks.map CompressedPayloadBlock.compressedLength = [51, 51, 18] ∧
      next.Reads levelOne bytes := by
  intro io bytes payload
  have works : ∀ block, io.readsBlock block = true ∧ io.writesBlock block = true := fun _ => ⟨rfl, rfl⟩
  have ran : ∃ written, compressBlocks levelOne io bytes 2097289 2097289 2097289 ⟨true, [], []⟩ =
      written ∧ written.success = true ∧ written.output.length = 120 ∧
        written.blocks.map CompressedPayloadBlock.compressedLength = [51, 51, 18] := by
    refine ⟨_, rfl, ?_⟩
    rw [compressBlocks_next 2097288 works (by decide : min 2097289 _ = 1048576) (by decide) rfl (by decide),
      compressBlocks_next 2097287 works (by decide : min _ _ = 1048576) (by decide) rfl (by decide),
      compressBlocks_next 2097286 works (by decide : min _ _ = 137) (by decide) rfl (by decide)]
    exact ⟨rfl, rfl, rfl⟩
  obtain ⟨written, ran, success, output, blocks⟩ := ran
  have three := congrArg List.length blocks
  rw [List.length_map] at three
  have run : payload.compressFile levelOne io = _ := compressFile_of_written rfl (by decide) ⟨rfl, rfl⟩
    ran success (by rw [output, three]; decide) rfl
  refine ⟨_, run, blocks, ?_⟩
  rcases compressFile_keeps_bytes (List.length_replicate : bytes.length = 2097289).symm rfl rfl run with
    ⟨_, reads⟩ | ⟨failed, _⟩
  · exact reads
  · cases failed

/-- A failed compression after which no byte of the payload can be read: the frame of a page cannot take
the place of the raw file, and the raw file cannot be renamed back either. -/
theorem compressFile_loses_file :
    let io : PayloadIo := ⟨true, fun _ => true, fun _ => true, true, true, false, false⟩
    let page := List.replicate 8192 65
    let payload : FilePayload := ⟨8192, some page, []⟩
    payload.Reads levelOne page ∧ ∃ next, payload.compressFile levelOne io = (next, -1) ∧
      ¬ next.Reads levelOne page := by
  intro io page payload
  have length : page.length = 8192 := List.length_replicate
  have ran : compressBlocks levelOne io page 8192 (8191 + 1) 8192 ⟨true, [], []⟩ = _ :=
    compressBlocks_next 8191 (fun _ => ⟨rfl, rfl⟩) (by decide : min 8192 _ = 8192) (by decide) rfl (by decide)
  have run : payload.compressFile levelOne io = _ := compressFile_of_written rfl (by decide) ⟨rfl, rfl⟩
    ran rfl (by decide) rfl
  refine ⟨reads_of_file _ length.symm rfl rfl, _, run, fun reads => ?_⟩
  cases reads 0 1 (by decide) (by decide) (by rw [length]; decide)

end FilePayload

end OmegaEdit

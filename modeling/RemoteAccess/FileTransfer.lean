import RemoteAccess.Basics.Overwrites
import RemoteAccess.Basics.WhileLoop
import RemoteAccess.Sha256

/-! Files in chunks: cutting one up, and writing the pieces at their offsets. What the
file system does is a parameter. Sizes and offsets are below that of a file, so that
they are numbers here; only the chunk index wraps. -/

namespace RemoteAccess.FileTransfer

open Overwrites Sha256

structure FileChunk where
  transferId : String
  chunkIndex : UInt32
  offset : Nat
  totalSize : Nat
  data : List UInt8
  sha256Hash : String
  isLastChunk : Bool
deriving DecidableEq

def calculateSha256 (data : List UInt8) : String := computeSha256 data

/-- A file by its content, if it can be opened. -/
def calculateFileSha256 (file : Option (List UInt8)) : String :=
  match file with
  | none => ""
  | some buffer => computeSha256 buffer

def verifyIntegrity (file : Option (List UInt8)) (expectedSha256 : String) : Bool :=
  calculateFileSha256 file == expectedSha256

/-! ### Reading -/

/-- What `tellg` says at the end, and the bytes that a `read` at an offset delivers. -/
structure InputFile where
  totalSize : Nat
  read : (offset count : Nat) → List UInt8

/-- Every read is complete. -/
def InputFile.complete (content : List UInt8) : InputFile where
  totalSize := content.length
  read offset count := (content.drop offset).take count

/-- The loop variables of `prepareFileChunks`. -/
structure Progress where
  offset : Nat
  chunkIndex : UInt32
  chunks : List FileChunk

/-- The buffer is zero before the bytes that were read go in. -/
def fill (currentChunkSize : Nat) (bytes : List UInt8) : List UInt8 :=
  bytes.take currentChunkSize ++ List.replicate (currentChunkSize - bytes.length) 0

def nextChunk (transferId : String) (file : InputFile) (chunkSize : Nat) (s : Progress) :
    Option Progress :=
  if s.offset < file.totalSize then
    let currentChunkSize := min chunkSize (file.totalSize - s.offset)
    let data := fill currentChunkSize (file.read s.offset currentChunkSize)
    let offset := s.offset + currentChunkSize
    let chunk : FileChunk := {
      transferId := transferId
      chunkIndex := s.chunkIndex
      offset := s.offset
      totalSize := file.totalSize
      data := data
      sha256Hash := calculateSha256 data
      isLastChunk := decide (offset ≥ file.totalSize) }
    some { offset := offset, chunkIndex := s.chunkIndex + 1, chunks := s.chunks ++ [chunk] }
  else none

def prepareFileChunks (fuel : Nat) (transferId : String) (file : Option InputFile)
    (chunkSize : Nat) : Option (List FileChunk) :=
  match file with
  | none => some []
  | some file =>
    (WhileLoop.run (nextChunk transferId file chunkSize) fuel
      { offset := 0, chunkIndex := 0, chunks := [] }).map (·.chunks)

/-! ### Writing -/

/-- How the operations of a `writeChunkToFile` go: whether the file can be opened, as far
as the mode has it there, whether the position can be set, and how many bytes get in. -/
structure WriteOutcome where
  opens : Bool
  seeks : Bool
  accepts : Nat

/-- With `out` alone the file is created or truncated, with `in` it has to be there. -/
def openForChunk (opens : Bool) (file : Option (List UInt8)) (offset : Nat) :
    Option (List UInt8) :=
  if opens then if offset = 0 then some [] else file else none

def writeChunkToFile (outcome : WriteOutcome) (file : Option (List UInt8)) (offset : Nat)
    (data : List UInt8) : Bool × Option (List UInt8) :=
  match openForChunk outcome.opens file offset with
  | none => (false, file)
  | some old =>
    (true, some (if outcome.seeks then overwrite 0 old offset (data.take outcome.accepts)
      else old))

/-- A call for a chunk, with nothing going wrong. -/
def writeChunk (file : Option (List UInt8)) (chunk : FileChunk) : Bool × Option (List UInt8) :=
  writeChunkToFile ⟨true, true, chunk.data.length⟩ file chunk.offset chunk.data

def writeAll (file : Option (List UInt8)) (chunks : List FileChunk) : Option (List UInt8) :=
  chunks.foldl (fun file chunk => (writeChunk file chunk).2) file

theorem writeChunk_zero (file : Option (List UInt8)) {chunk : FileChunk}
    (first : chunk.offset = 0) : writeChunk file chunk = (true, some chunk.data) := by
  simp [writeChunk, writeChunkToFile, openForChunk, first, overwrite_nil]

theorem writeChunk_some (old : List UInt8) {chunk : FileChunk} (later : chunk.offset ≠ 0) :
    writeChunk (some old) chunk = (true, some (overwrite 0 old chunk.offset chunk.data)) := by
  simp [writeChunk, writeChunkToFile, openForChunk, later]

/-! ### The chunks of a file -/

section Reads

variable (transferId : String) (file : InputFile) (chunkSize : Nat)

def dataAt (i : Nat) : List UInt8 :=
  fill (min chunkSize (file.totalSize - chunkSize * i))
    (file.read (chunkSize * i) (min chunkSize (file.totalSize - chunkSize * i)))

def readChunk (i : Nat) : FileChunk where
  transferId := transferId
  chunkIndex := UInt32.ofNat i
  offset := chunkSize * i
  totalSize := file.totalSize
  data := dataAt file chunkSize i
  sha256Hash := calculateSha256 (dataAt file chunkSize i)
  isLastChunk := decide (chunkSize * (i + 1) ≥ file.totalSize)

def rounds (totalSize chunkSize : Nat) : Nat := (totalSize + chunkSize - 1) / chunkSize

def progressAfter (i : Nat) : Progress where
  offset := min (chunkSize * i) file.totalSize
  chunkIndex := UInt32.ofNat i
  chunks := (List.range i).map (readChunk transferId file chunkSize)

variable {transferId file chunkSize}

theorem lt_rounds_iff {totalSize : Nat} (pos : 0 < chunkSize) (i : Nat) :
    i < rounds totalSize chunkSize ↔ chunkSize * i < totalSize := by
  rw [rounds, ← Nat.succ_le_iff, Nat.le_div_iff_mul_le pos, Nat.succ_mul, Nat.mul_comm]
  omega

theorem nextChunk_progressAfter {i : Nat} (more : chunkSize * i < file.totalSize) :
    nextChunk transferId file chunkSize (progressAfter transferId file chunkSize i) =
      some (progressAfter transferId file chunkSize (i + 1)) := by
  have here : min (chunkSize * i) file.totalSize = chunkSize * i := by omega
  have next : chunkSize * i + min chunkSize (file.totalSize - chunkSize * i) =
      min (chunkSize * (i + 1)) file.totalSize := by
    rw [Nat.mul_succ]
    omega
  have last : (min (chunkSize * (i + 1)) file.totalSize ≥ file.totalSize) ↔
      chunkSize * (i + 1) ≥ file.totalSize := by omega
  have index : UInt32.ofNat (i + 1) = UInt32.ofNat i + 1 := UInt32.ofNat_add ..
  simp only [nextChunk, progressAfter, here, more, if_true, next, last, index, List.range_succ,
    List.map_append, List.map_singleton]
  rfl

theorem prepareFileChunks_eq (pos : 0 < chunkSize) {fuel : Nat} (enough : file.totalSize < fuel) :
    prepareFileChunks fuel transferId (some file) chunkSize =
      some ((List.range (rounds file.totalSize chunkSize)).map
        (readChunk transferId file chunkSize)) := by
  have start : ({ offset := 0, chunkIndex := 0, chunks := [] } : Progress) =
      progressAfter transferId file chunkSize 0 := by
    simp [progressAfter]
  have count : rounds file.totalSize chunkSize ≤ file.totalSize := by
    by_contra more
    have := (@lt_rounds_iff _ file.totalSize pos file.totalSize).mp (by omega)
    have := Nat.le_mul_of_pos_left file.totalSize pos
    omega
  have done : nextChunk transferId file chunkSize
      (progressAfter transferId file chunkSize (rounds file.totalSize chunkSize)) = none := by
    have past := (@lt_rounds_iff _ file.totalSize pos (rounds file.totalSize chunkSize)).not.mp
      (Nat.lt_irrefl _)
    exact if_neg (by simp only [progressAfter]; omega)
  have ran := @WhileLoop.run_counted _ _ (progressAfter transferId file chunkSize) _
    (fun i inside => nextChunk_progressAfter ((lt_rounds_iff pos i).mp inside)) done fuel
    (by omega)
  rw [prepareFileChunks, start, ran]
  rfl

end Reads

/-! ### The chunks of a file that is read completely -/

section Chunks

variable (transferId : String) (content : List UInt8) (chunkSize : Nat)

def chunkAt (i : Nat) : FileChunk where
  transferId := transferId
  chunkIndex := UInt32.ofNat i
  offset := chunkSize * i
  totalSize := content.length
  data := (content.drop (chunkSize * i)).take chunkSize
  sha256Hash := calculateSha256 ((content.drop (chunkSize * i)).take chunkSize)
  isLastChunk := decide (chunkSize * (i + 1) ≥ content.length)

def chunkCount : Nat := (content.length + chunkSize - 1) / chunkSize

def chunksOf : List FileChunk :=
  (List.range (chunkCount content chunkSize)).map (chunkAt transferId content chunkSize)

variable {transferId content chunkSize}

theorem lt_chunkCount_iff (pos : 0 < chunkSize) (i : Nat) :
    i < chunkCount content chunkSize ↔ chunkSize * i < content.length :=
  lt_rounds_iff pos i

theorem fill_read (content : List UInt8) (offset chunkSize : Nat) :
    fill (min chunkSize (content.length - offset))
        ((InputFile.complete content).read offset (min chunkSize (content.length - offset))) =
      (content.drop offset).take chunkSize := by
  have length : ((content.drop offset).take chunkSize).length =
      min chunkSize (content.length - offset) := by
    rw [List.length_take, List.length_drop]
  have read : (InputFile.complete content).read offset (min chunkSize (content.length - offset)) =
      (content.drop offset).take chunkSize := by
    rw [← List.length_drop]
    exact List.take_eq_take_iff.mpr (by omega)
  rw [fill, read, length, Nat.sub_self, List.replicate_zero, List.append_nil, ← length,
    List.take_length]

theorem readChunk_complete : readChunk transferId (.complete content) chunkSize =
    chunkAt transferId content chunkSize := by
  funext i
  have data : dataAt (.complete content) chunkSize i =
      (content.drop (chunkSize * i)).take chunkSize := fill_read content (chunkSize * i) chunkSize
  rw [readChunk, data]
  rfl

theorem prepareFileChunks_complete (pos : 0 < chunkSize) {fuel : Nat}
    (enough : content.length < fuel) :
    prepareFileChunks fuel transferId (some (.complete content)) chunkSize =
      some (chunksOf transferId content chunkSize) := by
  rw [chunksOf, ← readChunk_complete]
  exact prepareFileChunks_eq pos enough

end Chunks

end RemoteAccess.FileTransfer

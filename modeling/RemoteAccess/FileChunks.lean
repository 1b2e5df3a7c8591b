import Mathlib.Tactic.Ring
import RemoteAccess.FileTransfer

/-! What the chunks of a file say about it, when cutting it up ends, and what the results
of short reads and failed writes look like to the caller. -/

namespace RemoteAccess.FileChunks

open FileTransfer Overwrites Sha256

/-! ### The chunks of a file that is read completely -/

section Complete

variable {transferId : String} {content : List UInt8} {chunkSize : Nat}

theorem length_chunksOf : (chunksOf transferId content chunkSize).length =
    chunkCount content chunkSize := by
  rw [chunksOf, List.length_map, List.length_range]

theorem getElem?_chunksOf {k : Nat} {chunk : FileChunk}
    (there : (chunksOf transferId content chunkSize)[k]? = some chunk) :
    k < chunkCount content chunkSize ∧ chunk = chunkAt transferId content chunkSize k := by
  obtain ⟨inside, rfl⟩ := List.getElem?_eq_some_iff.mp there
  rw [length_chunksOf] at inside
  exact ⟨inside, by simp [chunksOf]⟩

theorem flatten_take_chunksOf {k : Nat} (le : k ≤ chunkCount content chunkSize) :
    (((chunksOf transferId content chunkSize).take k).map (·.data)).flatten =
      content.take (chunkSize * k) := by
  have front : (chunksOf transferId content chunkSize).take k =
      (List.range k).map (chunkAt transferId content chunkSize) := by
    rw [chunksOf, ← List.map_take, List.take_range, Nat.min_eq_left le]
  rw [front, List.map_map, ← Blocks.flatten_slices]
  rfl

theorem flatten_chunksOf (pos : 0 < chunkSize) :
    ((chunksOf transferId content chunkSize).map (·.data)).flatten = content := by
  have beyond := (@lt_chunkCount_iff content _ pos (chunkCount content chunkSize)).not.mp
    (Nat.lt_irrefl _)
  have whole := @flatten_take_chunksOf transferId content chunkSize _ (Nat.le_refl _)
  rw [List.take_of_length_le (Nat.le_of_eq length_chunksOf),
    List.take_of_length_le (Nat.not_lt.mp beyond)] at whole
  exact whole

theorem sum_lengths_before {k : Nat} (inside : k < chunkCount content chunkSize)
    (more : chunkSize * k < content.length) :
    (((chunksOf transferId content chunkSize).take k).map (·.data.length)).sum =
      chunkSize * k := by
  have front := congrArg List.length
    (@flatten_take_chunksOf transferId content chunkSize _ (Nat.le_of_lt inside))
  rw [List.length_flatten, List.map_map, List.length_take, Nat.min_eq_left (Nat.le_of_lt more)]
    at front
  exact front

theorem length_data_chunkAt (k : Nat) : (chunkAt transferId content chunkSize k).data.length =
    min chunkSize (content.length - chunkSize * k) := by
  rw [chunkAt, List.length_take, List.length_drop]

/-- The chunks are the file, cut up in order. -/
theorem prepareFileChunks_partition (transferId : String) (content : List UInt8) (chunkSize : Nat)
    (pos : 1 ≤ chunkSize) (few : (content.length + chunkSize - 1) / chunkSize < 2 ^ 32) :
    ∃ chunks, (∀ fuel, content.length < fuel →
        prepareFileChunks fuel transferId (some (.complete content)) chunkSize = some chunks) ∧
      (chunks.map (·.data)).flatten = content ∧
      ∀ k chunk, chunks[k]? = some chunk →
        chunk.transferId = transferId ∧ chunk.chunkIndex.toNat = k ∧
        chunk.offset = ((chunks.take k).map (·.data.length)).sum ∧
        chunk.totalSize = content.length ∧
        (k + 1 < chunks.length → chunk.data.length = chunkSize) ∧
        (k + 1 = chunks.length → 1 ≤ chunk.data.length ∧ chunk.data.length ≤ chunkSize) ∧
        chunk.sha256Hash = calculateSha256 chunk.data ∧
        (chunk.isLastChunk = true ↔ k + 1 = chunks.length) := by
  refine ⟨chunksOf transferId content chunkSize,
    fun fuel enough => prepareFileChunks_complete pos enough, flatten_chunksOf pos, ?_⟩
  intro k chunk there
  obtain ⟨inside, rfl⟩ := getElem?_chunksOf there
  have more := (lt_chunkCount_iff pos k).mp inside
  have next := @lt_chunkCount_iff content _ pos (k + 1)
  have index : k < 2 ^ 32 := Nat.lt_trans inside few
  rw [length_chunksOf, length_data_chunkAt, sum_lengths_before inside more]
  rw [Nat.mul_succ] at next
  refine ⟨rfl, UInt32.toNat_ofNat_of_lt index, rfl, rfl, by omega, by omega, rfl, ?_⟩
  rw [chunkAt, decide_eq_true_eq, Nat.mul_succ]
  omega

theorem prepareFileChunks_partition_exact :
    ∃ chunks, prepareFileChunks 5 "tx-001" (some (.complete [1, 2, 3, 4])) 2 = some chunks ∧
      (chunks.map (·.data)).flatten = [1, 2, 3, 4] := by
  obtain ⟨chunks, prepared, whole, -⟩ :=
    prepareFileChunks_partition "tx-001" [1, 2, 3, 4] 2 (by decide) (by decide)
  exact ⟨chunks, prepared 5 (by decide), whole⟩

end Complete

/-! ### When the loop ends -/

theorem run_zero (transferId : String) (file : InputFile) (nonempty : file.totalSize ≠ 0)
    (fuel : Nat) : prepareFileChunks fuel transferId (some file) 0 = none := by
  have pass : ∀ s : Progress, s.offset = 0 →
      ∃ next, nextChunk transferId file 0 s = some next ∧ next.offset = 0 := by
    intro s start
    rw [nextChunk, if_pos (by omega)]
    exact ⟨_, rfl, by simp [start]⟩
  rw [prepareFileChunks]
  exact Option.map_eq_none_iff.mpr (WhileLoop.run_forever pass rfl fuel)

/-- The loop ends unless it is to cut a file that is not empty into chunks of size zero. -/
theorem prepareFileChunks_ends_iff (transferId : String) (file : Option InputFile)
    (chunkSize : Nat) :
    (∃ fuel chunks, prepareFileChunks fuel transferId file chunkSize = some chunks) ↔
      chunkSize ≠ 0 ∨ ∀ opened, file = some opened → opened.totalSize = 0 := by
  cases file with
  | none => exact iff_of_true ⟨0, [], rfl⟩ (.inr (by simp))
  | some file =>
    by_cases zero : chunkSize = 0
    · subst zero
      constructor
      · rintro ⟨fuel, chunks, prepared⟩
        refine .inr fun opened same => ?_
        obtain rfl := Option.some.inj same
        by_contra nonempty
        rw [run_zero transferId file nonempty fuel] at prepared
        exact nomatch prepared
      · rintro (pos | empty)
        · exact absurd rfl pos
        · refine ⟨1, [], ?_⟩
          have done : nextChunk transferId file 0 ⟨0, 0, []⟩ = none :=
            if_neg (by simp [empty file rfl])
          rw [prepareFileChunks, WhileLoop.run_exit 0 done]
          rfl
    · exact iff_of_true ⟨_, _, prepareFileChunks_eq (Nat.pos_of_ne_zero zero)
        (Nat.lt_succ_self _)⟩ (.inl zero)

/-- A file of one byte, in chunks of size zero. -/
theorem prepareFileChunks_runs_for_ever :
    ¬ ∃ fuel chunks,
      prepareFileChunks fuel "tx-001" (some (.complete [7])) 0 = some chunks := by
  rintro ⟨fuel, chunks, prepared⟩
  rw [run_zero "tx-001" (.complete [7]) (by decide) fuel] at prepared
  exact nomatch prepared

/-! ### Reads that come up short -/

/-- The data is what the read for this chunk delivered, or the beginning of it. -/
def WasRead (file : InputFile) (chunk : FileChunk) : Prop :=
  chunk.data <+: file.read chunk.offset chunk.data.length

theorem length_fill (count : Nat) (bytes : List UInt8) : (fill count bytes).length = count := by
  rw [fill, List.length_append, List.length_take, List.length_replicate]
  omega

theorem fill_prefix_iff (count : Nat) (bytes : List UInt8) :
    fill count bytes <+: bytes ↔ count ≤ bytes.length := by
  constructor
  · intro before
    have le := before.length_le
    rwa [length_fill] at le
  · intro enough
    rw [fill, Nat.sub_eq_zero_of_le enough, List.replicate_zero, List.append_nil]
    exact List.take_prefix _ _

theorem wasRead_readChunk_iff (transferId : String) (file : InputFile) (chunkSize i : Nat) :
    WasRead file (readChunk transferId file chunkSize i) ↔
      min chunkSize (file.totalSize - chunkSize * i) ≤
        (file.read (chunkSize * i) (min chunkSize (file.totalSize - chunkSize * i))).length := by
  have length : (dataAt file chunkSize i).length = min chunkSize (file.totalSize - chunkSize * i) :=
    length_fill _ _
  rw [WasRead, readChunk, length, dataAt]
  exact fill_prefix_iff _ _

theorem prepareFileChunks_unique {transferId : String} {file : InputFile} {chunkSize : Nat}
    (pos : 0 < chunkSize) {fuel : Nat} {chunks : List FileChunk}
    (prepared : prepareFileChunks fuel transferId (some file) chunkSize = some chunks) :
    chunks = (List.range (rounds file.totalSize chunkSize)).map
      (readChunk transferId file chunkSize) := by
  obtain ⟨s, ran, rfl⟩ := Option.map_eq_some_iff.mp prepared
  have more := WhileLoop.run_mono (Nat.le_add_right fuel (file.totalSize + 1)) ran
  have whole := @prepareFileChunks_eq transferId file chunkSize pos
    (fuel + (file.totalSize + 1)) (by omega)
  rw [prepareFileChunks, more] at whole
  exact Option.some.inj whole

/-- Chunks are made of bytes that were read exactly when no read comes up short. -/
theorem prepareFileChunks_wasRead_iff (transferId : String) (file : InputFile) (chunkSize : Nat) :
    (∀ fuel chunks, prepareFileChunks fuel transferId (some file) chunkSize = some chunks →
        ∀ chunk ∈ chunks, WasRead file chunk) ↔
      ∀ i, chunkSize * i < file.totalSize →
        min chunkSize (file.totalSize - chunkSize * i) ≤
          (file.read (chunkSize * i) (min chunkSize (file.totalSize - chunkSize * i))).length := by
  by_cases pos : 0 < chunkSize
  · simp only [← wasRead_readChunk_iff transferId]
    constructor
    · intro made i inside
      refine made _ _ (prepareFileChunks_eq pos (Nat.lt_succ_self _)) _ (List.mem_map_of_mem ?_)
      exact List.mem_range.mpr ((lt_rounds_iff pos i).mpr inside)
    · intro reads fuel chunks prepared chunk member
      rw [prepareFileChunks_unique pos prepared] at member
      obtain ⟨i, round, rfl⟩ := List.mem_map.mp member
      exact reads i ((lt_rounds_iff pos i).mp (List.mem_range.mp round))
  · -- Without a chunk there is nothing to read.
    obtain rfl : chunkSize = 0 := by omega
    refine iff_of_true ?_ (by simp)
    intro fuel chunks prepared chunk member
    by_cases empty : file.totalSize = 0
    · have done : nextChunk transferId file 0 ⟨0, 0, []⟩ = none := if_neg (by simp [empty])
      obtain ⟨s, ran, rfl⟩ := Option.map_eq_some_iff.mp prepared
      have leaves := WhileLoop.run_mono (Nat.le_succ_of_le (Nat.le_refl fuel)) ran
      rw [WhileLoop.run_exit fuel done] at leaves
      obtain rfl := Option.some.inj leaves
      exact absurd member List.not_mem_nil
    · rw [run_zero transferId file empty fuel] at prepared
      exact nomatch prepared

/-- A file measured at two bytes, of which the read delivers one. -/
def shrunk : InputFile where
  totalSize := 2
  read offset count := ([65].drop offset).take count

/-- The other byte is a zero that nothing read. -/
theorem prepareFileChunks_fabricates :
    ∃ chunks, prepareFileChunks 2 "tx-001" (some shrunk) 65536 = some chunks ∧
      ∃ chunk ∈ chunks, chunk.data = [65, 0] ∧
        chunk.sha256Hash = calculateSha256 [65, 0] ∧ ¬ WasRead shrunk chunk := by
  refine ⟨_, rfl, _, List.mem_singleton_self _, rfl, rfl, ?_⟩
  intro made
  exact absurd made.length_le (by decide)

/-! ### Writes that fail -/

def Holds (file : Option (List UInt8)) (offset : Nat) (data : List UInt8) : Prop :=
  ∃ content, file = some content ∧ ∀ i < data.length, content[offset + i]? = data[i]?

def TellsTruth (outcome : WriteOutcome) (file : Option (List UInt8)) (offset : Nat)
    (data : List UInt8) : Prop :=
  ((writeChunkToFile outcome file offset data).1 = true →
    Holds (writeChunkToFile outcome file offset data).2 offset data) ∧
  ((writeChunkToFile outcome file offset data).1 = false →
    (writeChunkToFile outcome file offset data).2 = file)

theorem getElem?_written (old : List UInt8) (offset accepts : Nat) {data : List UInt8} {i : Nat}
    (inside : i < data.length) :
    (overwrite 0 old offset (data.take accepts))[offset + i]? =
      if i < accepts then data[i]? else old[offset + i]? := by
  by_cases nothing : data.take accepts = []
  · have none : accepts = 0 := by
      have length := congrArg List.length nothing
      rw [List.length_take, List.length_nil] at length
      omega
    rw [nothing, none, if_neg (Nat.not_lt_zero i)]
    rfl
  · rw [getElem?_overwrite nothing, List.length_take]
    by_cases taken : i < accepts
    · rw [if_pos (by omega), if_pos taken, Nat.add_sub_cancel_left, List.getElem?_take_of_lt taken]
    · rw [if_neg (by omega), if_neg taken, if_neg (Nat.not_lt.mpr (Nat.le_add_right offset i))]
      split_ifs with there
      · rfl
      · exact (List.getElem?_eq_none (Nat.not_lt.mp there)).symm

/-- The result is true exactly when the file is not opened or each byte of the data is
either written or was there, in the file as the mode leaves it. -/
theorem writeChunkToFile_tellsTruth_iff (outcome : WriteOutcome) (file : Option (List UInt8))
    (offset : Nat) (data : List UInt8) :
    TellsTruth outcome file offset data ↔
      ∀ old, openForChunk outcome.opens file offset = some old → ∀ i < data.length,
        (outcome.seeks = true ∧ i < outcome.accepts) ∨ old[offset + i]? = data[i]? := by
  rw [TellsTruth, writeChunkToFile]
  cases opened : openForChunk outcome.opens file offset with
  | none => simp
  | some old =>
    have holds : ∀ content : List UInt8, Holds (some content) offset data ↔
        ∀ i < data.length, content[offset + i]? = data[i]? := by
      intro content
      constructor
      · rintro ⟨_, same, all⟩
        exact Option.some.inj same ▸ all
      · intro all
        exact ⟨content, rfl, all⟩
    simp only [forall_const, Bool.true_eq_false, false_implies, and_true, holds,
      Option.some.injEq, forall_eq']
    refine forall₂_congr fun i inside => ?_
    cases outcome.seeks with
    | false => simp
    | true =>
      rw [if_pos rfl, getElem?_written old offset outcome.accepts inside]
      by_cases taken : i < outcome.accepts
      · simp [taken]
      · simp [taken]

/-- A full disk: the file is opened, truncated, takes nothing, and the result is true. -/
theorem writeChunkToFile_lies :
    writeChunkToFile ⟨true, true, 0⟩ (some [1, 2, 3]) 0 [65, 66] = (true, some []) ∧
      ¬ TellsTruth ⟨true, true, 0⟩ (some [1, 2, 3]) 0 [65, 66] := by
  have run : writeChunkToFile ⟨true, true, 0⟩ (some [1, 2, 3]) 0 [65, 66] = (true, some []) := rfl
  refine ⟨run, fun truth => ?_⟩
  obtain ⟨content, same, holds⟩ := truth.1 (by rw [run])
  rw [run] at same
  obtain rfl := Option.some.inj same
  exact absurd (holds 0 (by decide)) (by decide)

end RemoteAccess.FileChunks

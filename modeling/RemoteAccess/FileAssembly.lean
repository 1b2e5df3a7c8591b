import RemoteAccess.FileTransfer

/-! Putting a file together from its chunks: in order, and in any order with
retransmissions, where only a write at offset 0 truncates what is there. -/

namespace RemoteAccess.FileAssembly

open FileTransfer Overwrites

variable {transferId : String} {content : List UInt8} {chunkSize : Nat}

theorem writeAll_append (file : Option (List UInt8)) (chunks more : List FileChunk) :
    writeAll file (chunks ++ more) = writeAll (writeAll file chunks) more :=
  List.foldl_append ..

theorem writeAll_cons (file : Option (List UInt8)) (chunk : FileChunk) (more : List FileChunk) :
    writeAll file (chunk :: more) = writeAll (writeChunk file chunk).2 more := rfl

/-! ### In order -/

theorem writeAll_range (previous : Option (List UInt8)) (pos : 0 < chunkSize) (n : Nat)
    (more : chunkSize * n < content.length) :
    writeAll previous ((List.range (n + 1)).map (chunkAt transferId content chunkSize)) =
      some (content.take (chunkSize * (n + 1))) := by
  induction n with
  | zero =>
    rw [List.range_one, List.map_singleton, writeAll_cons, writeChunk_zero _ (Nat.mul_zero _)]
    simp [writeAll, chunkAt]
  | succ n ih =>
    have reached : (content.take (chunkSize * (n + 1))).length = chunkSize * (n + 1) := by
      rw [List.length_take]
      omega
    have later : (chunkAt transferId content chunkSize (n + 1)).offset ≠ 0 :=
      Nat.ne_of_gt (Nat.mul_pos pos (Nat.succ_pos n))
    have before : chunkSize * n < content.length := by
      rw [Nat.mul_succ] at more
      omega
    rw [List.range_succ, List.map_append, writeAll_append, ih before, List.map_singleton,
      writeAll_cons, writeChunk_some _ later, chunkAt, overwrite_end reached,
      Nat.mul_succ _ (n + 1), List.take_add]
    rfl

theorem chunks_reproduce_the_file (nonempty : content ≠ []) (pos : 0 < chunkSize)
    (previous : Option (List UInt8)) {fuel : Nat} (enough : content.length < fuel) :
    ∃ chunks, prepareFileChunks fuel transferId (some (.complete content)) chunkSize =
        some chunks ∧
      writeAll previous chunks = some content ∧
      verifyIntegrity (writeAll previous chunks) (calculateFileSha256 (some content)) = true := by
  have len := List.length_pos_of_ne_nil nonempty
  have some_chunk := (@lt_chunkCount_iff content _ pos 0).mpr (by omega)
  obtain ⟨last, count⟩ := Nat.exists_eq_add_of_le' (Nat.one_le_of_lt some_chunk)
  have inside := (@lt_chunkCount_iff content _ pos last).mp (by omega)
  have beyond := (@lt_chunkCount_iff content _ pos (last + 1)).not.mp (by omega)
  have written : writeAll previous (chunksOf transferId content chunkSize) = some content := by
    rw [chunksOf, count, writeAll_range previous pos last inside,
      List.take_of_length_le (Nat.not_lt.mp beyond)]
  refine ⟨_, prepareFileChunks_complete pos enough, written, ?_⟩
  rw [written, verifyIntegrity]
  exact beq_self_eq_true _

/-- Five bytes in chunks of two, over a longer file. -/
theorem chunks_reproduce_the_file_over_a_longer_one :
    ∃ chunks, prepareFileChunks 6 "tx-001" (some (.complete [1, 2, 3, 4, 5])) 2 = some chunks ∧
      writeAll (some (List.replicate 9 7)) chunks = some [1, 2, 3, 4, 5] ∧
      verifyIntegrity (writeAll (some (List.replicate 9 7)) chunks)
        (calculateFileSha256 (some [1, 2, 3, 4, 5])) = true :=
  chunks_reproduce_the_file (by decide) (by decide) _ (by decide)

/-! ### In any order -/

structure Call where
  chunk : FileChunk
  outcome : WriteOutcome

namespace Call

variable (call : Call)

def result (file : Option (List UInt8)) : Bool × Option (List UInt8) :=
  writeChunkToFile call.outcome file call.chunk.offset call.chunk.data

/-- The file is opened with `out` alone. -/
def Truncates : Prop := call.outcome.opens = true ∧ call.chunk.offset = 0

def Writes (i : Nat) : Prop :=
  call.outcome.opens = true ∧ call.outcome.seeks = true ∧ call.chunk.offset ≤ i ∧
    i < call.chunk.offset + min call.outcome.accepts call.chunk.data.length

/-- What the call makes of a file that is there, or that it truncates. -/
def write (old : List UInt8) : List UInt8 :=
  if call.outcome.opens ∧ call.outcome.seeks then
    overwrite 0 old call.chunk.offset (call.chunk.data.take call.outcome.accepts)
  else old

theorem result_truncates {call : Call} (truncates : call.Truncates)
    (file : Option (List UInt8)) : (call.result file).2 = some (call.write []) := by
  obtain ⟨opens, start⟩ := truncates
  simp [result, writeChunkToFile, openForChunk, write, opens, start]

theorem result_some {call : Call} (keeps : ¬ call.Truncates) (old : List UInt8) :
    (call.result (some old)).2 = some (call.write old) := by
  cases opens : call.outcome.opens with
  | false => simp [result, writeChunkToFile, openForChunk, write, opens]
  | true =>
    have later : call.chunk.offset ≠ 0 := fun start => keeps ⟨opens, start⟩
    simp [result, writeChunkToFile, openForChunk, write, opens, later]

end Call

def runCalls (file : Option (List UInt8)) (schedule : List Call) : Option (List UInt8) :=
  schedule.foldl (fun file call => (call.result file).2) file

/-- Some call of the schedule for this chunk returned `true`. -/
def Acknowledged (schedule : List Call) (chunk : FileChunk) : Prop :=
  ∃ before call after, schedule = before ++ call :: after ∧ call.chunk = chunk ∧
    (call.result (runCalls none before)).1 = true

/-- Some call writes the byte at `i`, and no call after it truncates the file. -/
def Lasts (schedule : List Call) (i : Nat) : Prop :=
  ∃ before call after, schedule = before ++ call :: after ∧ call.Writes i ∧
    ∀ other ∈ after, ¬ other.Truncates

theorem truncates_of_acknowledged {schedule : List Call} {c : FileChunk}
    (acked : Acknowledged schedule c) (start : c.offset = 0) :
    ∃ call ∈ schedule, call.Truncates := by
  obtain ⟨before, call, after, rfl, rfl, returned⟩ := acked
  refine ⟨call, by simp, ?_, start⟩
  cases opens : call.outcome.opens with
  | true => rfl
  | false => simp [Call.result, writeChunkToFile, openForChunk, opens] at returned

theorem exists_last_truncation {schedule : List Call} {call : Call} (member : call ∈ schedule)
    (truncates : call.Truncates) :
    ∃ before first since, schedule = before ++ first :: since ∧ first.Truncates ∧
      ∀ other ∈ since, ¬ other.Truncates := by
  induction schedule using List.reverseRecOn with
  | nil => cases member
  | append_singleton schedule last ih =>
    by_cases here : last.Truncates
    · exact ⟨schedule, last, [], rfl, here, by simp⟩
    · have earlier : call ∈ schedule := by
        refine (List.mem_append.mp member).resolve_right fun at_end => ?_
        exact here (List.mem_singleton.mp at_end ▸ truncates)
      obtain ⟨before, first, since, rfl, truncates, others⟩ := ih earlier
      refine ⟨before, first, since ++ [last], by simp, truncates, fun other among => ?_⟩
      obtain old | new := List.mem_append.mp among
      · exact others other old
      · exact List.mem_singleton.mp new ▸ here

theorem runCalls_append (file : Option (List UInt8)) (schedule more : List Call) :
    runCalls file (schedule ++ more) = runCalls (runCalls file schedule) more :=
  List.foldl_append ..

section Since

variable {before since : List Call} {first : Call}

/-- From the last truncation on, the calls write on top of each other. -/
theorem runCalls_since (truncates : first.Truncates) (others : ∀ call ∈ since, ¬ call.Truncates)
    (file : Option (List UInt8)) :
    runCalls file (first :: since) =
      some ((first :: since).foldl (fun old call => call.write old) []) := by
  induction since using List.reverseRecOn with
  | nil => exact Call.result_truncates truncates file
  | append_singleton since call ih =>
    have keeps : ¬ call.Truncates := others call (by simp)
    rw [← List.cons_append, runCalls_append,
      ih fun other member => others other (List.mem_append_left _ member), List.foldl_append]
    exact Call.result_some keeps _

theorem lasts_iff (truncates : first.Truncates) (others : ∀ call ∈ since, ¬ call.Truncates)
    (i : Nat) : Lasts (before ++ first :: since) i ↔ ∃ call ∈ first :: since, call.Writes i := by
  constructor
  · rintro ⟨front, call, after, split, writes, keep⟩
    refine ⟨call, ?_, writes⟩
    obtain ⟨rest, rfl, tail⟩ | ⟨rest, rfl, tail⟩ := List.append_eq_append_iff.mp split
    · rw [tail]
      simp
    · cases rest with
      | nil =>
        rw [List.nil_append] at tail
        rw [← tail]
        simp
      | cons head rest =>
        obtain ⟨-, rfl⟩ := List.cons.inj tail
        exact absurd truncates (keep first (by simp))
  · rintro ⟨call, member, writes⟩
    obtain ⟨front, after, split⟩ := List.append_of_mem member
    refine ⟨before ++ front, call, after, by rw [split, List.append_assoc], writes, ?_⟩
    intro other among
    cases front with
    | nil =>
      obtain ⟨-, rfl⟩ := List.cons.inj split
      exact others other among
    | cons head front =>
      obtain ⟨-, rfl⟩ := List.cons.inj split
      exact others other (by simp [among])

end Since

theorem mem_chunksOf_iff (pos : 0 < chunkSize) (c : FileChunk) :
    c ∈ chunksOf transferId content chunkSize ↔
      ∃ i, chunkSize * i < content.length ∧ chunkAt transferId content chunkSize i = c := by
  simp only [chunksOf, List.mem_map, List.mem_range, lt_chunkCount_iff pos]

theorem data_of_mem_chunksOf {c : FileChunk} (member : c ∈ chunksOf transferId content chunkSize) :
    c.data = (content.drop c.offset).take chunkSize := by
  obtain ⟨i, -, rfl⟩ := List.mem_map.mp member
  rfl

theorem offset_lt_of_mem_chunksOf (pos : 0 < chunkSize) {c : FileChunk}
    (member : c ∈ chunksOf transferId content chunkSize) : c.offset < content.length := by
  obtain ⟨i, inside, rfl⟩ := (mem_chunksOf_iff pos c).mp member
  exact inside

def Call.slice (chunkSize : Nat) (call : Call) : Option (Nat × Nat) :=
  if call.outcome.opens ∧ call.outcome.seeks ∧ 0 < call.outcome.accepts then
    some (call.chunk.offset, min call.outcome.accepts chunkSize)
  else none

section Slices

variable {call : Call} {calls : List Call}

theorem slice_eq_some {s : Nat × Nat} (slice : call.slice chunkSize = some s) :
    call.outcome.opens = true ∧ call.outcome.seeks = true ∧ 0 < call.outcome.accepts ∧
      s = (call.chunk.offset, min call.outcome.accepts chunkSize) := by
  unfold Call.slice at slice
  split at slice
  · next written =>
    exact ⟨written.1, written.2.1, written.2.2, (Option.some.inj slice).symm⟩
  · cases slice

theorem write_of_slice (member : call.chunk ∈ chunksOf transferId content chunkSize)
    {s : Nat × Nat} (slice : call.slice chunkSize = some s) (old : List UInt8) :
    call.write old = overwrite 0 old s.1 ((content.drop s.1).take s.2) := by
  obtain ⟨opens, seeks, -, rfl⟩ := slice_eq_some slice
  rw [Call.write, if_pos ⟨opens, seeks⟩, data_of_mem_chunksOf member, List.take_take]

theorem write_of_no_slice (slice : call.slice chunkSize = none) (old : List UInt8) :
    call.write old = old := by
  unfold Call.write
  split
  · next written =>
    have nothing : call.outcome.accepts = 0 := by
      by_contra something
      rw [Call.slice, if_pos ⟨written.1, written.2, Nat.pos_of_ne_zero something⟩] at slice
      cases slice
    rw [nothing, List.take_zero, overwrite]
  · rfl

theorem foldl_write (known : ∀ call ∈ calls, call.chunk ∈ chunksOf transferId content chunkSize) :
    calls.foldl (fun old call => call.write old) [] =
      writeSlices 0 content (calls.filterMap (Call.slice chunkSize)) := by
  unfold writeSlices
  induction calls using List.reverseRecOn with
  | nil => rfl
  | append_singleton calls call ih =>
    have before := ih fun other member => known other (List.mem_append_left _ member)
    rw [List.foldl_append, List.filterMap_append, List.foldl_append, before]
    cases slice : call.slice chunkSize with
    | none => simp [slice, write_of_no_slice slice]
    | some s => simp [slice, write_of_slice (known call (by simp)) slice]

theorem covers_iff (pos : 0 < chunkSize)
    (known : ∀ call ∈ calls, call.chunk ∈ chunksOf transferId content chunkSize) {i : Nat}
    (inside : i < content.length) :
    Covers (calls.filterMap (Call.slice chunkSize)) i ↔ ∃ call ∈ calls, call.Writes i := by
  have length : ∀ call ∈ calls, call.chunk.data.length =
      min chunkSize (content.length - call.chunk.offset) := by
    intro call member
    rw [data_of_mem_chunksOf (known call member), List.length_take, List.length_drop]
  constructor
  · rintro ⟨s, among, starts, ends⟩
    obtain ⟨call, member, slice⟩ := List.mem_filterMap.mp among
    obtain ⟨opens, seeks, -, rfl⟩ := slice_eq_some slice
    refine ⟨call, member, opens, seeks, starts, ?_⟩
    have := length call member
    omega
  · rintro ⟨call, member, opens, seeks, starts, ends⟩
    have := length call member
    refine ⟨_, List.mem_filterMap.mpr ⟨call, member, if_pos ⟨opens, seeks, ?_⟩⟩, starts, ?_⟩
    · omega
    · omega

theorem slice_inside (pos : 0 < chunkSize)
    (known : ∀ call ∈ calls, call.chunk ∈ chunksOf transferId content chunkSize)
    {s : Nat × Nat} (among : s ∈ calls.filterMap (Call.slice chunkSize)) :
    s.1 < content.length ∧ 0 < s.2 := by
  obtain ⟨call, member, slice⟩ := List.mem_filterMap.mp among
  obtain ⟨-, -, accepts, rfl⟩ := slice_eq_some slice
  exact ⟨offset_lt_of_mem_chunksOf pos (known call member), Nat.lt_min.mpr ⟨accepts, pos⟩⟩

end Slices

theorem any_order_iff (pos : 0 < chunkSize) {fuel : Nat} (enough : content.length < fuel) :
    ∃ chunks, prepareFileChunks fuel transferId (some (.complete content)) chunkSize =
        some chunks ∧
      ∀ schedule : List Call, (∀ call ∈ schedule, call.chunk ∈ chunks) →
        (∀ c ∈ chunks, Acknowledged schedule c) →
        (runCalls none schedule = some content ↔
          content ≠ [] ∧ ∀ (i : Nat) (inside : i < content.length),
            Lasts schedule i ∨ (content[i] = 0 ∧ i + 1 < content.length)) := by
  refine ⟨_, prepareFileChunks_complete pos enough, fun schedule known acked => ?_⟩
  by_cases empty : content = []
  · have no_calls : schedule = [] := by
      refine List.eq_nil_iff_forall_not_mem.mpr fun call member => ?_
      have := offset_lt_of_mem_chunksOf pos (known call member)
      rw [empty] at this
      exact Nat.not_lt_zero _ this
    rw [no_calls]
    exact iff_of_false (by simp [runCalls]) fun both => both.1 empty
  have len := List.length_pos_of_ne_nil empty
  have head : chunkAt transferId content chunkSize 0 ∈ chunksOf transferId content chunkSize :=
    (mem_chunksOf_iff pos _).mpr ⟨0, by omega, rfl⟩
  obtain ⟨call, member, opened⟩ := truncates_of_acknowledged (acked _ head) (Nat.mul_zero _)
  obtain ⟨before, first, since, rfl, truncates, others⟩ := exists_last_truncation member opened
  have pieces : ∀ call ∈ first :: since, call.chunk ∈ chunksOf transferId content chunkSize :=
    fun call member => known call (List.mem_append_right _ member)
  rw [runCalls_append, runCalls_since truncates others, foldl_write pieces, Option.some.injEq]
  refine (writeSlices_eq_iff empty fun s => slice_inside pos pieces).trans ?_
  rw [and_iff_right empty, covers_iff pos pieces (by omega)]
  simp only [lasts_iff truncates others]
  constructor
  · rintro ⟨last, all⟩ i inside
    by_cases at_end : i + 1 < content.length
    · refine (all i inside).imp ?_ fun zero => ⟨zero, at_end⟩
      exact (covers_iff pos pieces inside).mp
    · have same : i = content.length - 1 := by omega
      exact .inl (same ▸ last)
  · intro all
    refine ⟨(all _ (by omega)).resolve_right fun zero => by omega, fun i inside => ?_⟩
    exact (all i inside).imp (covers_iff pos pieces inside).mpr And.left

theorem any_order_iff_three_bytes :
    ∃ chunks, prepareFileChunks 4 "tx-001" (some (.complete [1, 2, 3])) 2 = some chunks ∧
      ∀ schedule : List Call, (∀ call ∈ schedule, call.chunk ∈ chunks) →
        (∀ c ∈ chunks, Acknowledged schedule c) →
        (runCalls none schedule = some [1, 2, 3] ↔
          [1, 2, 3] ≠ ([] : List UInt8) ∧ ∀ (i : Nat) (inside : i < [1, 2, 3].length),
            Lasts schedule i ∨ ([(1 : UInt8), 2, 3][i] = 0 ∧ i + 1 < [1, 2, 3].length)) :=
  any_order_iff (by decide) (by decide)

/-- The first of two chunks is sent again, with every write complete. -/
theorem retransmission_truncates :
    ∃ chunks schedule, prepareFileChunks 4 "tx-001" (some (.complete [1, 2, 3])) 2 = some chunks ∧
      (∀ call ∈ schedule, call.chunk ∈ chunks) ∧ (∀ c ∈ chunks, Acknowledged schedule c) ∧
      (∀ call ∈ schedule, call.outcome = ⟨true, true, call.chunk.data.length⟩) ∧
      runCalls none schedule ≠ some [1, 2, 3] := by
  let head := chunkAt "tx-001" [1, 2, 3] 2 0
  let tail := chunkAt "tx-001" [1, 2, 3] 2 1
  let sendHead : Call := ⟨head, ⟨true, true, 2⟩⟩
  let sendTail : Call := ⟨tail, ⟨true, true, 1⟩⟩
  refine ⟨[head, tail], [sendHead, sendTail, sendHead],
    prepareFileChunks_complete (by decide) (by decide), ?_, ?_, ?_, ?_⟩
  · simp [sendHead, sendTail]
  · simp only [List.forall_mem_cons]
    exact ⟨⟨[], sendHead, [sendTail, sendHead], rfl, rfl, rfl⟩,
      ⟨[sendHead], sendTail, [sendHead], rfl, rfl, rfl⟩, by simp⟩
  · simp only [List.forall_mem_cons]
    exact ⟨rfl, rfl, rfl, by simp⟩
  · have left : runCalls none [sendHead, sendTail, sendHead] = some [1, 2] := rfl
    rw [left]
    decide

end RemoteAccess.FileAssembly

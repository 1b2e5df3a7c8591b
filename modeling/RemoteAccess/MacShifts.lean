import RemoteAccess.CryptoEngine

/-! The shift counts of `computePoly1305Mac`. C++ defines a shift of a 64-bit value for counts
below 64 only; the marker of a full block is shifted by exactly 64. -/

namespace RemoteAccess.MacShifts

open Blocks CryptoEngine

/-- The counts of the shifts that put `bytes` into a limb, or take it apart into them. -/
def byteShifts (bytes : List UInt8) : List Nat := bytes.zipIdx.map fun b => b.2 * 8

/-- Both limbs of a block, and its length marker. -/
def blockShifts (block : List UInt8) : List Nat :=
  byteShifts (block.take 8) ++ byteShifts (block.drop 8) ++ [markerShift block.length]

/-- Block by block, and then the two halves of the tag. -/
def shiftCounts (msg key : List UInt8) (oversized : Nat → UInt64) : List Nat :=
  let tag := computePoly1305Mac oversized msg key
  (blocks 16 msg).flatMap blockShifts ++ byteShifts (tag.take 8) ++ byteShifts (tag.drop 8)

/-- Every shift is one the language defines, and so is the tag: it does not depend on what
a target makes of other shifts. -/
structure Defined (msg : List UInt8) : Prop where
  shifts : ∀ key oversized, ∀ count ∈ shiftCounts msg key oversized, count < 64
  tag : ∀ key oversized oversized',
    computePoly1305Mac oversized msg key = computePoly1305Mac oversized' msg key

theorem byteShifts_lt {bytes : List UInt8} (fits : bytes.length ≤ 8) :
    ∀ count ∈ byteShifts bytes, count < 64 := by
  intro count member
  obtain ⟨⟨byte, i⟩, among, rfl⟩ := List.mem_map.mp member
  have inside := List.snd_lt_of_mem_zipIdx among
  simp only
  omega

theorem markerShift_lt_iff {blockLen : Nat} (fits : blockLen ≤ 16) :
    markerShift blockLen < 64 ↔ blockLen < 16 := by
  unfold markerShift
  split_ifs
  · omega
  · omega

theorem blockShifts_lt_iff {block : List UInt8} (fits : block.length ≤ 16) :
    (∀ count ∈ blockShifts block, count < 64) ↔ block.length < 16 := by
  have low := byteShifts_lt (List.length_take_le 8 block)
  have rest : (block.drop 8).length ≤ 8 := by rw [List.length_drop]; omega
  have high := byteShifts_lt rest
  simp only [blockShifts, List.forall_mem_append, List.forall_mem_singleton]
  rw [markerShift_lt_iff fits]
  exact ⟨fun all => all.2, fun short => ⟨⟨low, high⟩, short⟩⟩

theorem blocks_short_iff (msg : List UInt8) :
    (∀ block ∈ blocks 16 msg, block.length < 16) ↔ msg.length < 16 := by
  by_cases empty : msg = []
  · subst empty
    simp [blocks_nil]
  · rw [blocks_cons (by norm_num) empty, List.forall_mem_cons, List.length_take]
    constructor
    · rintro ⟨first, -⟩
      omega
    · intro short
      rw [List.drop_of_length_le (by omega)]
      exact ⟨by omega, by simp [blocks_nil]⟩

theorem macStep_of_short (oversized oversized' : Nat → UInt64) (r0 r1 : UInt64)
    (h : UInt64 × UInt64) {block : List UInt8} (short : block.length < 16) :
    macStep oversized r0 r1 h block = macStep oversized' r0 r1 h block := by
  have count := (markerShift_lt_iff short.le).mpr short
  simp only [macStep, shiftOne, if_pos count]

theorem macAccumulate_of_short (oversized oversized' : Nat → UInt64) {msg : List UInt8}
    (key : List UInt8) (short : msg.length < 16) :
    macAccumulate oversized msg key = macAccumulate oversized' msg key := by
  refine List.foldl_ext _ _ _ fun h block member => ?_
  exact macStep_of_short _ _ _ _ h ((blocks_short_iff msg).mpr short block member)

/-- The tag is defined for messages without a full block, and for no others. -/
theorem defined_iff (msg : List UInt8) : Defined msg ↔ msg.length < 16 := by
  constructor
  · intro defined
    refine (blocks_short_iff msg).mp fun block member => ?_
    refine (blockShifts_lt_iff (length_le_of_mem_blocks (by norm_num) member)).mp ?_
    intro count among
    refine defined.shifts [] (fun _ => 0) count ?_
    have here := List.mem_flatMap.mpr ⟨block, member, among⟩
    simp only [shiftCounts, List.mem_append]
    exact .inl (.inl here)
  · intro short
    refine ⟨fun key oversized => ?_, fun key oversized oversized' => ?_⟩
    · have length := length_computePoly1305Mac oversized msg key
      simp only [shiftCounts, List.forall_mem_append]
      refine ⟨⟨?_, byteShifts_lt (List.length_take_le _ _)⟩, byteShifts_lt ?_⟩
      · intro count member
        obtain ⟨block, among, here⟩ := List.mem_flatMap.mp member
        have small := (blocks_short_iff msg).mpr short block among
        exact (blockShifts_lt_iff small.le).mpr small count here
      · rw [List.length_drop, length]
        decide
    · rw [computePoly1305Mac, macAccumulate_of_short oversized oversized' key short]
      rfl

/-- The first block of any payload of 16 bytes shifts by 64. -/
theorem full_block_shifts_by_64 :
    64 ∈ shiftCounts (List.replicate 16 0) [] (fun _ => 0) ∧ ¬ Defined (List.replicate 16 0) := by
  have count : 64 ∈ shiftCounts (List.replicate 16 0) [] (fun _ => 0) := by decide
  exact ⟨count, fun defined => absurd (defined.shifts [] _ 64 count) (by decide)⟩

end RemoteAccess.MacShifts

import Mathlib.Data.List.Basic
import Mathlib.Data.List.Induction
import Mathlib.Tactic.Common

/-! Writing at an offset into a list that grows as needed, as a file does: what lies
between its end and the offset is filled. -/

namespace RemoteAccess.Overwrites

variable {α : Type*}

/-- Writing nothing does not extend the list. -/
def overwrite (fill : α) (old : List α) (offset : Nat) : List α → List α
  | [] => old
  | x :: xs =>
    (old ++ List.replicate (offset - old.length) fill).take offset ++ x :: xs ++
      old.drop (offset + (x :: xs).length)

variable {fill : α} {old data : List α} {offset : Nat}

theorem overwrite_of_ne_nil (nonempty : data ≠ []) :
    overwrite fill old offset data =
      (old ++ List.replicate (offset - old.length) fill).take offset ++ data ++
        old.drop (offset + data.length) := by
  cases data with
  | nil => exact absurd rfl nonempty
  | cons x xs => rfl

theorem overwrite_nil : overwrite fill [] 0 data = data := by
  cases data with
  | nil => rfl
  | cons x xs => simp [overwrite]

theorem overwrite_end (at_end : old.length = offset) :
    overwrite fill old offset data = old ++ data := by
  subst at_end
  cases data with
  | nil => simp [overwrite]
  | cons x xs => simp [overwrite]

theorem getElem?_overwrite (nonempty : data ≠ []) (i : Nat) :
    (overwrite fill old offset data)[i]? =
      if offset ≤ i ∧ i < offset + data.length then data[i - offset]?
      else if i < old.length then old[i]? else if i < offset then some fill else none := by
  rw [overwrite_of_ne_nil nonempty]
  have front : ((old ++ List.replicate (offset - old.length) fill).take offset).length =
      offset := by
    rw [List.length_take, List.length_append, List.length_replicate]
    omega
  rw [List.append_assoc, List.getElem?_append, front]
  by_cases before : i < offset
  · rw [if_pos before, if_neg (by omega), List.getElem?_take_of_lt before, List.getElem?_append,
      List.getElem?_replicate]
    by_cases inside : i < old.length
    · rw [if_pos inside, if_pos inside]
    · rw [if_neg inside, if_neg inside, if_pos before, if_pos (by omega)]
  · rw [if_neg before, List.getElem?_append]
    by_cases within : i - offset < data.length
    · rw [if_pos within, if_pos (by omega)]
    · rw [if_neg within, if_neg (by omega), List.getElem?_drop]
      have place : offset + data.length + (i - offset - data.length) = i := by omega
      rw [place]
      by_cases inside : i < old.length
      · rw [if_pos inside]
      · rw [if_neg inside, if_neg before, List.getElem?_eq_none (Nat.not_lt.mp inside)]

/-! ### Patches of a source -/

/-- The first `extent` places, with the source where it was written and the fill elsewhere. -/
def patched (fill : α) (source : List α) (extent : Nat) (written : Nat → Bool) : List α :=
  (List.range extent).map fun i => if written i then source.getD i fill else fill

theorem length_patched (source : List α) (extent : Nat) (written : Nat → Bool) :
    (patched fill source extent written).length = extent := by
  rw [patched, List.length_map, List.length_range]

theorem getElem?_patched (source : List α) (extent : Nat) (written : Nat → Bool) (i : Nat) :
    (patched fill source extent written)[i]? =
      if i < extent then some (if written i then source.getD i fill else fill) else none := by
  rw [patched, List.getElem?_map]
  split
  · next inside => rw [List.getElem?_range inside, Option.map_some]
  · next outside => rw [List.getElem?_eq_none (by simpa using outside), Option.map_none]

theorem overwrite_patched {source : List α} {extent : Nat} {written : Nat → Bool}
    (inside : ∀ i, written i = true → i < extent) {count : Nat} (starts : offset < source.length)
    (pos : 0 < count) :
    overwrite fill (patched fill source extent written) offset ((source.drop offset).take count) =
      patched fill source (max extent (min (offset + count) source.length))
        fun i => written i || (offset ≤ i && i < min (offset + count) source.length) := by
  have length : ((source.drop offset).take count).length =
      min (offset + count) source.length - offset := by
    rw [List.length_take, List.length_drop]
    omega
  have nonempty : (source.drop offset).take count ≠ [] := by
    rw [← List.length_pos_iff_ne_nil, length]
    omega
  refine List.ext_getElem? fun i => ?_
  have fresh : ∀ i, ¬ i < extent → written i = false := by
    intro i outside
    exact Bool.eq_false_iff.mpr fun done => outside (inside i done)
  rw [getElem?_overwrite nonempty, getElem?_patched, getElem?_patched, length]
  by_cases new : offset ≤ i ∧ i < min (offset + count) source.length
  · have slot : ((source.drop offset).take count)[i - offset]? = source[i]? := by
      rw [List.getElem?_take_of_lt (by omega), List.getElem?_drop]
      congr 1
      omega
    have there : i < source.length := by omega
    rw [if_pos (by omega), slot, if_pos (by omega)]
    simp [new, List.getElem?_eq_getElem there]
  · have same :
        (decide (offset ≤ i) && decide (i < min (offset + count) source.length)) = false := by
      simpa using new
    rw [if_neg (by omega), same, Bool.or_false]
    rw [length_patched]
    by_cases old : i < extent
    · have still : i < max extent (min (offset + count) source.length) := by omega
      rw [if_pos old, if_pos old, if_pos still]
    · rw [if_neg old, fresh i old]
      by_cases gap : i < offset
      · rw [if_pos gap, if_pos (by omega)]
        rfl
      · rw [if_neg gap, if_neg (by omega)]

theorem patched_eq_iff (source : List α) (extent : Nat) (written : Nat → Bool) :
    patched fill source extent written = source ↔ extent = source.length ∧
      ∀ (i : Nat) (inside : i < source.length), written i = true ∨ source[i] = fill := by
  constructor
  · intro same
    have length : extent = source.length := by
      rw [← same, length_patched]
    refine ⟨length, fun i inside => ?_⟩
    have here := @getElem?_patched _ fill source extent written i
    rw [same, if_pos (length ▸ inside), List.getElem?_eq_getElem inside] at here
    cases done : written i with
    | true => exact .inl rfl
    | false =>
      rw [done] at here
      exact .inr (Option.some.inj here)
  · rintro ⟨rfl, all⟩
    refine List.ext_getElem? fun i => ?_
    rw [getElem?_patched]
    by_cases inside : i < source.length
    · rw [if_pos inside, List.getElem?_eq_getElem inside, List.getD_eq_getElem?_getD,
        List.getElem?_eq_getElem inside, Option.getD_some]
      split
      · rfl
      · next other => rw [(all i inside).resolve_left other]
    · rw [if_neg inside, List.getElem?_eq_none (Nat.not_lt.mp inside)]

/-! ### Slices of a source in any order -/

def writeSlices (fill : α) (source : List α) (slices : List (Nat × Nat)) : List α :=
  slices.foldl (fun old s => overwrite fill old s.1 ((source.drop s.1).take s.2)) []

def Covers (slices : List (Nat × Nat)) (i : Nat) : Prop := ∃ s ∈ slices, s.1 ≤ i ∧ i < s.1 + s.2

theorem covers_concat (slices : List (Nat × Nat)) (s : Nat × Nat) (i : Nat) :
    Covers (slices ++ [s]) i ↔ Covers slices i ∨ s.1 ≤ i ∧ i < s.1 + s.2 := by
  unfold Covers
  simp [or_and_right, exists_or]

theorem writeSlices_patched {source : List α} {slices : List (Nat × Nat)}
    (fits : ∀ s ∈ slices, s.1 < source.length ∧ 0 < s.2) :
    ∃ extent written, writeSlices fill source slices = patched fill source extent written ∧
      (∀ i, written i = true ↔ i < source.length ∧ Covers slices i) ∧
      (∀ i, written i = true → i < extent) ∧ (extent = 0 ∨ written (extent - 1) = true) := by
  induction slices using List.reverseRecOn with
  | nil =>
    exact ⟨0, fun _ => false, rfl, by simp [Covers], by simp, .inl rfl⟩
  | append_singleton slices s ih =>
    obtain ⟨extent, written, same, covers, inside, reached⟩ :=
      ih fun other member => fits other (List.mem_append_left _ member)
    obtain ⟨starts, pos⟩ := fits s (by simp)
    refine ⟨max extent (min (s.1 + s.2) source.length),
      fun i => written i || (s.1 ≤ i && i < min (s.1 + s.2) source.length), ?_, ?_, ?_, ?_⟩
    · rw [writeSlices, List.foldl_append, ← writeSlices, same, List.foldl_cons, List.foldl_nil,
        overwrite_patched inside starts pos]
    · intro i
      rw [covers_concat, Bool.or_eq_true, covers]
      simp only [Bool.and_eq_true, decide_eq_true_eq]
      constructor
      · rintro (⟨there, old⟩ | new)
        · exact ⟨there, .inl old⟩
        · exact ⟨by omega, .inr (by omega)⟩
      · rintro ⟨there, old | new⟩
        · exact .inl ⟨there, old⟩
        · exact .inr (by omega)
    · intro i
      simp only [Bool.or_eq_true, Bool.and_eq_true, decide_eq_true_eq]
      rintro (old | new)
      · have := inside i old
        omega
      · omega
    · refine .inr ?_
      simp only [Bool.or_eq_true, Bool.and_eq_true, decide_eq_true_eq]
      by_cases further : extent ≤ min (s.1 + s.2) source.length
      · exact .inr (by omega)
      · have unchanged : max extent (min (s.1 + s.2) source.length) = extent := by omega
        rw [unchanged]
        exact .inl (reached.resolve_left (by omega))

/-- They leave the source when its last place is covered and each place that is not
holds the fill. -/
theorem writeSlices_eq_iff {source : List α} {slices : List (Nat × Nat)} (nonempty : source ≠ [])
    (fits : ∀ s ∈ slices, s.1 < source.length ∧ 0 < s.2) :
    writeSlices fill source slices = source ↔ Covers slices (source.length - 1) ∧
      ∀ (i : Nat) (inside : i < source.length), Covers slices i ∨ source[i] = fill := by
  obtain ⟨extent, written, same, covers, inside, reached⟩ := writeSlices_patched fits
  have len := List.length_pos_of_ne_nil nonempty
  rw [same, patched_eq_iff]
  constructor
  · rintro ⟨rfl, all⟩
    refine ⟨((covers _).mp (reached.resolve_left (Nat.ne_of_gt len))).2, fun i there => ?_⟩
    exact (all i there).imp_left fun done => ((covers i).mp done).2
  · rintro ⟨last, all⟩
    have past := inside _ ((covers _).mpr ⟨by omega, last⟩)
    refine ⟨?_, fun i there =>
      (all i there).imp_left fun covered => (covers i).mpr ⟨there, covered⟩⟩
    obtain none | end_ := reached
    · omega
    · have := ((covers _).mp end_).1
      omega

end RemoteAccess.Overwrites

import Mathlib.Tactic.Common
import Mathlib.Data.List.Basic

/-! Consecutive blocks of a list: what a loop sees that takes
`min (len - offset) size` elements each time round until the list is used up. -/

namespace RemoteAccess.Blocks

variable {α : Type*}

def blocksUpTo (size : Nat) : (fuel : Nat) → List α → List (List α)
  | 0, _ => []
  | _ + 1, [] => []
  | fuel + 1, x :: xs => (x :: xs).take size :: blocksUpTo size fuel ((x :: xs).drop size)

/-- The blocks of `xs`, each of `size` elements but the last, which may be shorter. -/
def blocks (size : Nat) (xs : List α) : List (List α) := blocksUpTo size xs.length xs

theorem blocksUpTo_fuel {size : Nat} (pos : 0 < size) {fuel fuel' : Nat} {xs : List α}
    (enough : xs.length ≤ fuel) (enough' : xs.length ≤ fuel') :
    blocksUpTo size fuel xs = blocksUpTo size fuel' xs := by
  induction fuel generalizing fuel' xs with
  | zero =>
    obtain rfl := List.length_eq_zero_iff.mp (Nat.le_zero.mp enough)
    cases fuel' <;> rfl
  | succ fuel ih =>
    cases xs with
    | nil => cases fuel' <;> rfl
    | cons x xs =>
      obtain ⟨fuel', rfl⟩ := Nat.exists_eq_add_of_le' (Nat.one_le_of_lt enough')
      simp only [List.length_cons] at enough enough'
      rw [blocksUpTo, blocksUpTo]
      congr 1
      apply ih <;> rw [List.length_drop, List.length_cons] <;> omega

@[simp] theorem blocks_nil (size : Nat) : blocks size ([] : List α) = [] := rfl

theorem blocks_cons {size : Nat} (pos : 0 < size) {xs : List α} (nonempty : xs ≠ []) :
    blocks size xs = xs.take size :: blocks size (xs.drop size) := by
  cases xs with
  | nil => exact absurd rfl nonempty
  | cons x xs =>
    rw [blocks, List.length_cons, blocksUpTo, blocks]
    congr 1
    apply blocksUpTo_fuel pos
    · rw [List.length_drop, List.length_cons]
      omega
    · exact Nat.le_refl _

theorem blocks_induction {size : Nat} (pos : 0 < size) {motive : List α → Prop}
    (nil : motive []) (cons : ∀ xs, xs ≠ [] → motive (xs.drop size) → motive xs)
    (xs : List α) : motive xs := by
  induction len : xs.length using Nat.strongRecOn generalizing xs with
  | ind n ih =>
    by_cases nonempty : xs = []
    · rw [nonempty]
      exact nil
    · have shorter := List.length_pos_of_ne_nil nonempty
      exact cons xs nonempty (ih _ (by rw [List.length_drop]; omega) _ rfl)

theorem length_blocks {size : Nat} (pos : 0 < size) (xs : List α) :
    (blocks size xs).length = (xs.length + size - 1) / size := by
  induction xs using blocks_induction pos with
  | nil =>
    rw [blocks_nil, List.length_nil, List.length_nil, Nat.zero_add, Nat.div_eq_of_lt (by omega)]
  | cons xs nonempty ih =>
    have len := List.length_pos_of_ne_nil nonempty
    rw [blocks_cons pos nonempty, List.length_cons, ih, List.length_drop]
    by_cases last : xs.length ≤ size
    · have one : xs.length + size - 1 = xs.length - 1 + size := by omega
      rw [Nat.sub_eq_zero_of_le last, Nat.div_eq_of_lt (by omega), one,
        Nat.add_div_right _ pos, Nat.div_eq_of_lt (by omega)]
    · have split : xs.length + size - 1 = xs.length - size + size - 1 + size := by omega
      rw [split, Nat.add_div_right _ pos]

@[elab_as_elim]
theorem whole_blocks_induction {size : Nat} (pos : 0 < size) {motive : List α → Prop}
    (nil : motive [])
    (cons : ∀ xs, xs ≠ [] → size ≤ xs.length → motive (xs.drop size) → motive xs)
    (xs : List α) (whole : size ∣ xs.length) : motive xs := by
  induction xs using blocks_induction pos with
  | nil => exact nil
  | cons xs nonempty ih =>
    have full : size ≤ xs.length := Nat.le_of_dvd (List.length_pos_of_ne_nil nonempty) whole
    refine cons xs nonempty full (ih ?_)
    rw [List.length_drop]
    exact Nat.dvd_sub whole (Nat.dvd_refl size)

theorem length_of_mem_blocks {size : Nat} (pos : 0 < size) {xs : List α}
    (whole : size ∣ xs.length) : ∀ block ∈ blocks size xs, block.length = size := by
  refine whole_blocks_induction pos (by simp) ?_ xs whole
  intro xs nonempty full ih
  rw [blocks_cons pos nonempty]
  exact List.forall_mem_cons.mpr ⟨by rw [List.length_take, Nat.min_eq_left full], ih⟩

theorem mem_of_mem_blocks {size : Nat} (pos : 0 < size) {xs : List α} :
    ∀ block ∈ blocks size xs, ∀ x ∈ block, x ∈ xs := by
  induction xs using blocks_induction pos with
  | nil => simp
  | cons xs nonempty ih =>
    rw [blocks_cons pos nonempty, List.forall_mem_cons]
    exact ⟨fun x => List.mem_of_mem_take, fun block member x here =>
      List.mem_of_mem_drop (ih block member x here)⟩

theorem map_length_blocks {size : Nat} (pos : 0 < size) (xs : List α) :
    (blocks size xs).map List.length = (List.range ((xs.length + size - 1) / size)).map
      fun i => min size (xs.length - size * i) := by
  rw [← length_blocks pos]
  induction xs using blocks_induction pos with
  | nil => rfl
  | cons xs nonempty ih =>
    rw [blocks_cons pos nonempty, List.map_cons, ih, List.length_cons, List.range_succ_eq_map,
      List.map_cons, List.map_map, List.length_take, List.length_drop, Nat.mul_zero, Nat.sub_zero]
    congr 1
    apply List.map_congr_left
    intro i _
    rw [Function.comp_apply, Nat.mul_succ, Nat.sub_sub, Nat.add_comm size]

theorem length_le_of_mem_blocks {size : Nat} (pos : 0 < size) {xs block : List α}
    (member : block ∈ blocks size xs) : block.length ≤ size := by
  have listed : block.length ∈ (blocks size xs).map List.length := List.mem_map_of_mem member
  rw [map_length_blocks pos] at listed
  obtain ⟨i, -, len⟩ := List.mem_map.mp listed
  omega

/-- Where `f` does not see a block's padding, padding a list adds blocks `f []` only. -/
theorem map_blocks_append_replicate {β : Type*} {size : Nat} (pos : 0 < size) {f : List α → β}
    {z : α} (padded : ∀ block k, f (block ++ List.replicate k z) = f block) (xs : List α)
    (k : Nat) :
    ∃ more, (blocks size (xs ++ List.replicate k z)).map f =
      (blocks size xs).map f ++ List.replicate more (f []) := by
  induction xs using blocks_induction pos generalizing k with
  | nil =>
    refine ⟨_, List.eq_replicate_iff.mpr ⟨rfl, ?_⟩⟩
    intro y member
    obtain ⟨block, inside, rfl⟩ := List.mem_map.mp member
    have pad : block = List.replicate block.length z := List.eq_replicate_iff.mpr ⟨rfl,
      fun x here => List.eq_of_mem_replicate (mem_of_mem_blocks pos block inside x here)⟩
    rw [pad]
    exact padded [] block.length
  | cons xs nonempty ih =>
    obtain ⟨more, rest⟩ := ih (k - (size - xs.length))
    refine ⟨more, ?_⟩
    rw [blocks_cons pos (by simp [nonempty]), blocks_cons pos nonempty, List.take_append,
      List.drop_append, List.take_replicate, List.drop_replicate, List.map_cons, List.map_cons,
      padded, rest, List.cons_append]

theorem blocks_append {size : Nat} (pos : 0 < size) {xs : List α} (whole : size ∣ xs.length)
    (ys : List α) : blocks size (xs ++ ys) = blocks size xs ++ blocks size ys := by
  refine whole_blocks_induction pos rfl ?_ xs whole
  intro xs nonempty full ih
  rw [blocks_cons pos (by simp [nonempty]), blocks_cons pos nonempty,
    List.take_append_of_le_length full, List.drop_append_of_le_length full, ih, List.cons_append]

theorem blocks_singleton {size : Nat} (pos : 0 < size) {xs : List α} (full : xs.length = size) :
    blocks size xs = [xs] := by
  have nonempty : xs ≠ [] := List.ne_nil_of_length_pos (full ▸ pos)
  rw [blocks_cons pos nonempty, List.take_of_length_le (Nat.le_of_eq full),
    List.drop_of_length_le (Nat.le_of_eq full),
    blocks_nil]

theorem blocks_set {size : Nat} (pos : 0 < size) (xs : List α) (i : Nat) (x : α)
    (inside : i < xs.length) :
    ∃ before block after, blocks size xs = before ++ block :: after ∧
      blocks size (xs.set i x) = before ++ block.set (i % size) x :: after ∧
      before.length = i / size ∧ block = (xs.drop (i / size * size)).take size := by
  induction xs using blocks_induction pos generalizing i with
  | nil => simp at inside
  | cons xs nonempty ih =>
    have changed : xs.set i x ≠ [] := by simpa [List.set_eq_nil_iff] using nonempty
    rw [blocks_cons pos nonempty, blocks_cons pos changed]
    by_cases first : i < size
    · refine ⟨[], xs.take size, blocks size (xs.drop size), rfl, ?_, ?_, ?_⟩
      · rw [Nat.mod_eq_of_lt first, List.take_set, List.drop_set_of_lt first, List.nil_append]
      · rw [Nat.div_eq_of_lt first, List.length_nil]
      · rw [Nat.div_eq_of_lt first, Nat.zero_mul, List.drop_zero]
    · have le : size ≤ i := by omega
      obtain ⟨before, block, after, same, other, count, here⟩ :=
        ih (i - size) (by rw [List.length_drop]; omega)
      have quotient : i / size = (i - size) / size + 1 := by
        rw [← Nat.add_div_right _ pos, Nat.sub_add_cancel le]
      refine ⟨xs.take size :: before, block, after, ?_, ?_, ?_, ?_⟩
      · rw [same, List.cons_append]
      · rw [List.take_set, List.set_eq_of_length_le (by rw [List.length_take]; omega),
          List.drop_set, if_neg first, other, ← Nat.mod_eq_sub_mod le, List.cons_append]
      · rw [List.length_cons, count, quotient]
      · rw [here, List.drop_drop, quotient, Nat.succ_mul, Nat.add_comm size]

theorem flatten_slices (size count : Nat) (xs : List α) :
    ((List.range count).map fun i => (xs.drop (size * i)).take size).flatten =
      xs.take (size * count) := by
  induction count with
  | zero => simp
  | succ count ih =>
    rw [List.range_succ, List.map_append, List.flatten_append, ih, Nat.mul_succ, List.take_add,
      List.map_singleton, List.flatten_singleton]

theorem take_eq_iff_slices (size count : Nat) (xs ys : List α) :
    xs.take (size * count) = ys.take (size * count) ↔
      ∀ i < count, (xs.drop (size * i)).take size = (ys.drop (size * i)).take size := by
  constructor
  · intro same i inside
    have fits : size * i + size ≤ size * count := by
      rw [← Nat.mul_succ]
      exact Nat.mul_le_mul_left _ inside
    have slice : ∀ zs : List α, (zs.drop (size * i)).take size =
        ((zs.take (size * count)).drop (size * i)).take size := by
      intro zs
      rw [List.drop_take, List.take_take, Nat.min_eq_left (by omega)]
    rw [slice xs, slice ys, same]
  · intro same
    rw [← flatten_slices, ← flatten_slices]
    congr 1
    exact List.map_congr_left fun i member => same i (List.mem_range.mp member)

theorem slice_eq_iff (start size : Nat) (xs ys : List α) :
    (xs.drop start).take size = (ys.drop start).take size ↔
      ∀ c < size, xs[start + c]? = ys[start + c]? := by
  rw [List.ext_getElem?_iff]
  simp only [List.getElem?_take, List.getElem?_drop]
  refine forall_congr' fun c => ?_
  split_ifs with within <;> simp [within]

section FlatMap

variable {β : Type*} {size : Nat} {xs : List α} {block : α → List β}

theorem length_flatMap (full : ∀ x ∈ xs, (block x).length = size) :
    (xs.flatMap block).length = size * xs.length := by
  induction xs with
  | nil => simp
  | cons x xs ih =>
    obtain ⟨here, later⟩ := List.forall_mem_cons.mp full
    rw [List.flatMap_cons, List.length_append, here, ih later, List.length_cons, Nat.mul_succ,
      Nat.add_comm]

theorem slice_flatMap (full : ∀ x ∈ xs, (block x).length = size) {i : Nat}
    (inside : i < xs.length) :
    ((xs.flatMap block).drop (size * i)).take size = block xs[i] := by
  induction xs generalizing i with
  | nil => simp at inside
  | cons x xs ih =>
    obtain ⟨here, later⟩ := List.forall_mem_cons.mp full
    cases i with
    | zero => simp [← here]
    | succ i =>
      rw [List.flatMap_cons, Nat.mul_succ, Nat.add_comm, ← List.drop_drop, List.drop_left' here,
        List.getElem_cons_succ]
      exact ih later (Nat.lt_of_succ_lt_succ inside)

theorem blocks_flatMap (pos : 0 < size) (whole : ∀ x ∈ xs, size ∣ (block x).length) :
    blocks size (xs.flatMap block) = xs.flatMap fun x => blocks size (block x) := by
  induction xs with
  | nil => rfl
  | cons x xs ih =>
    obtain ⟨here, later⟩ := List.forall_mem_cons.mp whole
    rw [List.flatMap_cons, blocks_append pos here, ih later, List.flatMap_cons]

end FlatMap

end RemoteAccess.Blocks

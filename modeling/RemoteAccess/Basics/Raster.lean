import Mathlib.Data.List.Basic
import Mathlib.Tactic.Common

/-! A list as a grid of cells of one size, row after row: where a cell lies, and what
painting some of them changes. -/

namespace RemoteAccess.Raster

variable {α : Type*} {width height size : Nat}

def place (width size x y : Nat) : Nat := (y * width + x) * size

theorem place_fits {x y : Nat} (left : x < width) (above : y < height) :
    place width size x y + size ≤ width * height * size := by
  have rows : (y + 1) * width ≤ height * width := Nat.mul_le_mul_right _ above
  have cell : y * width + x + 1 ≤ width * height := by
    rw [Nat.succ_mul] at rows
    rw [Nat.mul_comm width]
    omega
  rw [place, ← Nat.succ_mul]
  exact Nat.mul_le_mul_right _ cell

theorem mul_add_div {n rest : Nat} (small : rest < size) : (n * size + rest) / size = n := by
  rw [Nat.mul_comm, Nat.mul_add_div (Nat.zero_lt_of_lt small), Nat.div_eq_of_lt small,
    Nat.add_zero]

theorem place_apart {x x' y y' c c' : Nat} (left : x < width) (left' : x' < width)
    (within : c < size) (within' : c' < size)
    (same : place width size x y + c = place width size x' y' + c') :
    x = x' ∧ y = y' ∧ c = c' := by
  have cells : y * width + x = y' * width + x' := by
    have quotients := congrArg (· / size) same
    simp only [place, mul_add_div within, mul_add_div within'] at quotients
    exact quotients
  have rows : y = y' := by
    have quotients := congrArg (· / width) cells
    simp only [mul_add_div left, mul_add_div left'] at quotients
    exact quotients
  subst rows
  have columns : x = x' := Nat.add_left_cancel cells
  subst columns
  exact ⟨rfl, rfl, Nat.add_left_cancel same⟩

def stamp : List α → Nat → List α → List α
  | [], _, xs => xs
  | a :: cell, i, xs => stamp cell (i + 1) (xs.set i a)

theorem length_stamp (cell : List α) (i : Nat) (xs : List α) :
    (stamp cell i xs).length = xs.length := by
  induction cell generalizing i xs with
  | nil => rfl
  | cons a cell ih => rw [stamp, ih, List.length_set]

theorem getElem?_stamp {cell : List α} {i : Nat} {xs : List α}
    (fits : i + cell.length ≤ xs.length) (j : Nat) :
    (stamp cell i xs)[j]? = if i ≤ j ∧ j < i + cell.length then cell[j - i]? else xs[j]? := by
  induction cell generalizing i xs with
  | nil =>
    rw [stamp, if_neg]
    rw [List.length_nil]
    omega
  | cons a cell ih =>
    rw [List.length_cons] at fits
    rw [stamp, ih (by rw [List.length_set]; omega), List.length_cons, List.getElem?_set]
    by_cases first : i = j
    · subst first
      rw [if_neg (by omega), if_pos rfl, if_pos (by omega), if_pos (by omega), Nat.sub_self,
        List.getElem?_cons_zero]
    · rw [if_neg first]
      by_cases later : i + 1 ≤ j ∧ j < i + 1 + cell.length
      · have next : j - i = j - (i + 1) + 1 := by omega
        rw [if_pos later, if_pos (by omega), next, List.getElem?_cons_succ]
      · rw [if_neg later, if_neg (by omega)]

/-- `after` holds the cell at each place of `Done` and is `before` everywhere else. -/
structure Painted (width : Nat) (cell : List α) (Done : Nat → Nat → Prop)
    (before after : List α) : Prop where
  length : after.length = before.length
  inside : ∀ x y, Done x y → ∀ c < cell.length,
    after[place width cell.length x y + c]? = cell[c]?
  outside : ∀ i, (∀ x y, Done x y → ∀ c < cell.length, i ≠ place width cell.length x y + c) →
    after[i]? = before[i]?

variable {cell : List α} {Done Done' : Nat → Nat → Prop} {before after : List α}

theorem painted_nothing (none : ∀ x y, ¬ Done x y) (before : List α) :
    Painted width cell Done before before where
  length := rfl
  inside x y done := absurd done (none x y)
  outside _ _ := rfl

theorem Painted.congr (painted : Painted width cell Done before after)
    (same : ∀ x y, Done' x y ↔ Done x y) : Painted width cell Done' before after := by
  obtain rfl : Done' = Done := funext fun x => funext fun y => propext (same x y)
  exact painted

theorem Painted.stamp (painted : Painted width cell Done before after)
    (columns : ∀ x y, Done x y → x < width) {x y : Nat} (left : x < width)
    (fits : place width cell.length x y + cell.length ≤ after.length) :
    Painted width cell (fun x' y' => Done x' y' ∨ y' = y ∧ x' = x) before
      (stamp cell (place width cell.length x y) after) where
  length := (length_stamp _ _ _).trans painted.length
  inside := by
    intro x' y' done c within
    rw [getElem?_stamp fits]
    split_ifs with here
    · -- Only the cell itself reaches into the place written.
      have left' : x' < width := by
        obtain old | ⟨-, rfl⟩ := done
        · exact columns x' y' old
        · exact left
      have position : place width cell.length x' y' + c =
          place width cell.length x y +
            (place width cell.length x' y' + c - place width cell.length x y) := by omega
      obtain ⟨rfl, rfl, -⟩ := place_apart left' left within (by omega) position
      rw [Nat.add_sub_cancel_left]
    · obtain old | ⟨rfl, rfl⟩ := done
      · exact painted.inside x' y' old c within
      · omega
  outside := by
    intro i away
    rw [getElem?_stamp fits, if_neg]
    · exact painted.outside i fun x' y' done => away x' y' (.inl done)
    · intro here
      exact away x y (.inr ⟨rfl, rfl⟩) (i - place width cell.length x y) (by omega) (by omega)

end RemoteAccess.Raster

import Mathlib.Data.Int.Order.Basic
import Mathlib.Tactic.Common

/-! A loop's running minimum and maximum of the indices it has seen, kept as a
half-open interval. -/

namespace RemoteAccess.RunningBounds

/-- `[low, high)` is the smallest interval around the indices seen. Before the
first of them it is `[start, -1)`. -/
structure Spans (Seen : Nat → Prop) (start low high : Int) : Prop where
  within : ∀ i, Seen i → low ≤ i ∧ (i : Int) < high
  least : (∃ i : Nat, Seen i ∧ low = i) ∨ (∀ i, ¬ Seen i) ∧ low = start
  greatest : (∃ i : Nat, Seen i ∧ high = i + 1) ∨ (∀ i, ¬ Seen i) ∧ high = -1

variable {Seen Seen' : Nat → Prop} {start low high : Int}

theorem spans_nothing (none : ∀ i, ¬ Seen i) (start : Int) : Spans Seen start start (-1) where
  within i seen := absurd seen (none i)
  least := .inr ⟨none, rfl⟩
  greatest := .inr ⟨none, rfl⟩

theorem Spans.congr (spans : Spans Seen start low high) (same : ∀ i, Seen' i ↔ Seen i) :
    Spans Seen' start low high := by
  obtain rfl : Seen' = Seen := funext fun i => propext (same i)
  exact spans

theorem Spans.widen (spans : Spans Seen start low high) {k : Nat} (inside : (k : Int) < start) :
    Spans (fun i => Seen i ∨ i = k) start (min low k) (max high (k + 1)) where
  within := by
    rintro i (seen | rfl)
    · have old := spans.within i seen
      omega
    · omega
  least := by
    left
    obtain ⟨i, seen, rfl⟩ | ⟨-, rfl⟩ := spans.least
    · by_cases new : k < i
      · exact ⟨k, .inr rfl, by omega⟩
      · exact ⟨i, .inl seen, by omega⟩
    · exact ⟨k, .inr rfl, by omega⟩
  greatest := by
    left
    obtain ⟨i, seen, rfl⟩ | ⟨-, rfl⟩ := spans.greatest
    · by_cases new : i < k
      · exact ⟨k, .inr rfl, by omega⟩
      · exact ⟨i, .inl seen, by omega⟩
    · exact ⟨k, .inr rfl, by omega⟩

theorem Spans.le_iff (spans : Spans Seen start low high) (valid : 0 ≤ start) :
    low ≤ high ↔ ∃ i, Seen i := by
  constructor
  · intro ordered
    obtain ⟨i, seen, -⟩ | ⟨-, rfl⟩ := spans.least
    · exact ⟨i, seen⟩
    · obtain ⟨i, seen, -⟩ | ⟨-, rfl⟩ := spans.greatest
      · exact ⟨i, seen⟩
      · omega
  · rintro ⟨i, seen⟩
    obtain ⟨above, below⟩ := spans.within i seen
    omega

theorem Spans.between (spans : Spans Seen start low high) (below : ∀ i, Seen i → (i : Int) < start)
    (valid : 0 ≤ start) : (0 ≤ low ∧ low ≤ start) ∧ -1 ≤ high ∧ high ≤ start := by
  constructor
  · obtain ⟨i, seen, rfl⟩ | ⟨-, rfl⟩ := spans.least
    · have inside := below i seen
      omega
    · omega
  · obtain ⟨i, seen, rfl⟩ | ⟨-, rfl⟩ := spans.greatest
    · have inside := below i seen
      omega
    · omega

end RemoteAccess.RunningBounds

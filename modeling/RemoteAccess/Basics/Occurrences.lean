import Mathlib.Data.List.Basic

/-! Where a pattern occurs in a text made of pieces put together with a separator. -/

namespace RemoteAccess.Occurrences

variable {α : Type*} {sep : α} {pattern xs ys : List α}

theorem not_infix_of_notMem {a : α} (inside : a ∈ pattern) (outside : a ∉ xs) :
    ¬ pattern <:+: xs :=
  fun occurs => outside (occurs.subset inside)

/-- A pattern without the separator lies on one side of it. -/
theorem infix_append_cons_iff (free : sep ∉ pattern) :
    pattern <:+: xs ++ sep :: ys ↔ pattern <:+: xs ∨ pattern <:+: ys := by
  constructor
  · intro occurs
    obtain left | right | ⟨front, back, rfl, left, right⟩ := List.infix_append_iff.mp occurs
    · exact .inl left
    · obtain start | right := List.infix_cons_iff.mp right
      · obtain rfl | ⟨rest, rfl, -⟩ := List.prefix_cons_iff.mp start
        · exact .inl List.nil_infix
        · exact absurd List.mem_cons_self free
      · exact .inr right
    · obtain rfl | ⟨rest, rfl, -⟩ := List.prefix_cons_iff.mp right
      · exact .inl (by rw [List.append_nil]; exact left.isInfix)
      · exact absurd (List.mem_append_right front List.mem_cons_self) free
  · rintro (left | right)
    · exact left.trans List.infix_append_left
    · exact (List.infix_cons right).trans List.infix_append_right

theorem infix_cons_iff_of_notMem (free : sep ∉ pattern) :
    pattern <:+: sep :: ys ↔ pattern <:+: ys := by
  rw [← List.nil_append (sep :: ys), infix_append_cons_iff free, List.infix_nil]
  exact or_iff_right_of_imp fun empty => empty ▸ List.nil_infix

theorem infix_intercalate_iff (free : sep ∉ pattern) (filled : pattern ≠ [])
    (pieces : List (List α)) :
    pattern <:+: [sep].intercalate pieces ↔ ∃ piece ∈ pieces, pattern <:+: piece := by
  induction pieces with
  | nil => simp [filled]
  | cons piece pieces ih =>
    cases pieces with
    | nil => simp
    | cons next pieces =>
      rw [List.intercalate_cons_cons, List.append_assoc, List.singleton_append,
        infix_append_cons_iff free, ih]
      simp only [List.mem_cons, exists_eq_or_imp]

theorem concat_infix_append_cons_iff (free : sep ∉ pattern) (piece : sep ∉ xs) :
    pattern ++ [sep] <:+: xs ++ sep :: ys ↔ pattern <:+ xs ∨ pattern ++ [sep] <:+: ys := by
  have ends : sep ∈ pattern ++ [sep] := List.mem_append_right _ List.mem_cons_self
  constructor
  · intro occurs
    obtain left | right | ⟨front, back, split, left, right⟩ := List.infix_append_iff.mp occurs
    · exact absurd left (not_infix_of_notMem ends piece)
    · obtain start | right := List.infix_cons_iff.mp right
      · cases pattern with
        | nil => exact .inl List.nil_suffix
        | cons a pattern =>
          rw [List.cons_append, List.cons_prefix_cons] at start
          exact absurd (start.1 ▸ List.mem_cons_self) free
      · exact .inr right
    · obtain rfl | ⟨rest, rfl, -⟩ := List.prefix_cons_iff.mp right
      · rw [List.append_nil] at split
        exact absurd (left.subset (split ▸ ends)) piece
      · have same := (List.append_cons_inj_of_notMem free List.not_mem_nil).mp split
        exact .inl (same.1 ▸ left)
  · rintro (⟨before, rfl⟩ | right)
    · exact ⟨before, ys, by simp⟩
    · exact (List.infix_cons right).trans List.infix_append_right

theorem cons_infix_append_iff {a : α} (absent : a ∉ xs) :
    a :: pattern <:+: xs ++ ys ↔ a :: pattern <:+: ys := by
  induction xs with
  | nil => rw [List.nil_append]
  | cons x xs ih =>
    rw [List.mem_cons, not_or] at absent
    rw [List.cons_append, List.infix_cons_iff, List.cons_prefix_cons, ih absent.2]
    simp [absent.1]

/-! ### Doubled separators -/

structure IsPiece (sep : α) (piece : List α) : Prop where
  filled : piece ≠ []
  unsplit : sep ∉ piece

theorem exists_intercalate_cons (sep : α) (piece : List α) (pieces : List (List α)) :
    ∃ rest, [sep].intercalate (piece :: pieces) = piece ++ rest := by
  cases pieces with
  | nil => exact ⟨[], by rw [List.intercalate_singleton, List.append_nil]⟩
  | cons next pieces => exact ⟨_, by rw [List.intercalate_cons_cons, List.append_assoc]⟩

theorem IsPiece.not_start {piece : List α} (is_piece : IsPiece sep piece) (rest : List α) :
    ¬ sep :: pattern <+: piece ++ rest := by
  intro start
  cases piece with
  | nil => exact is_piece.filled rfl
  | cons a piece =>
    rw [List.cons_append, List.cons_prefix_cons] at start
    exact is_piece.unsplit (start.1 ▸ List.mem_cons_self)

variable {pieces : List (List α)}

theorem double_infix_intercalate_append_iff (pure : ∀ piece ∈ pieces, IsPiece sep piece) :
    sep :: sep :: pattern <:+: [sep].intercalate pieces ++ sep :: ys ↔
      sep :: sep :: pattern <:+: sep :: ys := by
  induction pieces with
  | nil => rw [List.intercalate_nil, List.nil_append]
  | cons piece pieces ih =>
    obtain ⟨first, others⟩ := List.forall_mem_cons.mp pure
    cases pieces with
    | nil => rw [List.intercalate_singleton, cons_infix_append_iff first.unsplit]
    | cons next pieces =>
      obtain ⟨rest, start⟩ := exists_intercalate_cons sep next pieces
      have apart : ¬ sep :: pattern <+: [sep].intercalate (next :: pieces) ++ sep :: ys := by
        rw [start, List.append_assoc]
        exact (others next List.mem_cons_self).not_start _
      rw [List.intercalate_cons_cons, List.append_assoc, List.append_assoc, List.singleton_append,
        cons_infix_append_iff first.unsplit, List.infix_cons_iff, List.cons_prefix_cons,
        ih others]
      simp [apart]

theorem not_double_infix_cons_intercalate (pure : ∀ piece ∈ pieces, IsPiece sep piece) :
    ¬ sep :: sep :: pattern <:+: sep :: [sep].intercalate pieces := by
  induction pieces with
  | nil =>
    intro occurs
    exact absurd occurs.length_le (by simp)
  | cons piece pieces ih =>
    obtain ⟨first, others⟩ := List.forall_mem_cons.mp pure
    cases pieces with
    | nil =>
      rw [List.intercalate_singleton, ← List.append_nil piece, List.infix_cons_iff,
        List.cons_prefix_cons, cons_infix_append_iff first.unsplit, not_or]
      exact ⟨fun start => first.not_start _ start.2, by simp⟩
    | cons next pieces =>
      rw [List.intercalate_cons_cons, List.append_assoc, List.infix_cons_iff,
        List.cons_prefix_cons, cons_infix_append_iff first.unsplit, not_or]
      exact ⟨fun start => first.not_start _ start.2, ih others⟩

theorem double_infix_gap_iff {after : List (List α)}
    (before_pure : ∀ piece ∈ pieces, IsPiece sep piece)
    (after_pure : ∀ piece ∈ after, IsPiece sep piece) :
    sep :: sep :: pattern <:+:
        [sep].intercalate pieces ++ sep :: sep :: [sep].intercalate after ↔
      pattern <+: [sep].intercalate after := by
  rw [double_infix_intercalate_append_iff before_pure, List.infix_cons_iff,
    List.cons_prefix_cons, List.cons_prefix_cons]
  simp [not_double_infix_cons_intercalate after_pure]

end RemoteAccess.Occurrences

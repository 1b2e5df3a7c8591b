import Mathlib.Data.List.Basic

/-! Lines that are each ended by a separator, written behind one another and read back. -/

namespace RemoteAccess.Lines

variable {α : Type*} [DecidableEq α] {sep : α}

def ended (sep : α) (xs : List α) : List (List α) := (xs.splitOn sep).dropLast

def Whole (sep : α) (xs : List α) : Prop := xs = [] ∨ ∃ before, xs = before ++ [sep]

theorem ended_concat (before : List α) : ended sep (before ++ [sep]) = before.splitOn sep := by
  rw [ended, List.splitOn_append_cons_self, List.splitOn_nil, List.dropLast_concat]

theorem Whole.line {xs line : List α} (whole : Whole sep xs) (unbroken : sep ∉ line) :
    Whole sep (xs ++ (line ++ [sep])) ∧
      ended sep (xs ++ (line ++ [sep])) = ended sep xs ++ [line] := by
  refine ⟨.inr ⟨xs ++ line, by rw [List.append_assoc]⟩, ?_⟩
  obtain rfl | ⟨before, rfl⟩ := whole
  · rw [List.nil_append, ended_concat, List.splitOn_eq_singleton unbroken]
    rfl
  · rw [← List.append_assoc, ended_concat, List.append_assoc, List.singleton_append,
      List.splitOn_append_cons_self, List.splitOn_eq_singleton unbroken, ended_concat]

end RemoteAccess.Lines

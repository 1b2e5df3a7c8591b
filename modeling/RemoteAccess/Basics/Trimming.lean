import Mathlib.Data.List.TakeWhile

/-! Taking white space off both ends of a list, and blanks out of what is left. -/

namespace RemoteAccess.Trimming

variable {α : Type*} (white : α → Bool)

def trim (text : List α) : List α :=
  ((text.dropWhile white).reverse.dropWhile white).reverse

variable {white}

theorem exists_margins (text : List α) : ∃ before after,
    text = before ++ trim white text ++ after ∧ (∀ a ∈ before, white a) ∧
      ∀ a ∈ after, white a := by
  let rest := text.dropWhile white
  refine ⟨text.takeWhile white, (rest.reverse.takeWhile white).reverse, ?_, ?_, ?_⟩
  · have ends : trim white text ++ (rest.reverse.takeWhile white).reverse = rest := by
      rw [trim, ← List.reverse_append, List.takeWhile_append_dropWhile, List.reverse_reverse]
    rw [List.append_assoc, ends, List.takeWhile_append_dropWhile]
  · exact fun a inside => List.all_eq_true.mp List.all_takeWhile a inside
  · intro a inside
    rw [List.mem_reverse] at inside
    exact List.all_eq_true.mp List.all_takeWhile a inside

theorem trim_append {before after : List α} (core : List α) (front : ∀ a ∈ before, white a)
    (back : ∀ a ∈ after, white a) : trim white (before ++ core ++ after) = trim white core := by
  have back' : ∀ a ∈ after.reverse, white a := fun a inside => back a (List.mem_reverse.mp inside)
  rw [trim, List.append_assoc, List.dropWhile_append_of_pos front, List.dropWhile_append]
  split_ifs with blank
  · rw [List.isEmpty_iff] at blank
    rw [trim, blank, List.dropWhile_eq_nil_iff.mpr back]
  · rw [List.reverse_append, List.dropWhile_append_of_pos back', trim]

/-- A text comes down to `kept`, which is nowhere white, exactly when it is white space, then
`kept` with blanks anywhere in it, then white space. -/
theorem filter_trim_eq_iff {blank : α → Bool} {kept text : List α}
    (dark : ∀ a ∈ kept, ¬ white a) :
    (trim white text).filter (fun a => !blank a) = kept ↔ ∃ before core after,
      text = before ++ core ++ after ∧ (∀ a ∈ before, white a) ∧ (∀ a ∈ after, white a) ∧
        core.filter (fun a => !blank a) = kept := by
  constructor
  · intro same
    obtain ⟨before, after, split, front, back⟩ := exists_margins text
    exact ⟨before, _, after, split, front, back, same⟩
  · rintro ⟨before, core, after, rfl, front, back, rfl⟩
    rw [trim_append core front back]
    obtain ⟨first, last, split, first_white, last_white⟩ := exists_margins core
    have dropped : ∀ margin : List α, (∀ a ∈ margin, a ∈ core ∧ white a) →
        margin.filter (fun a => !blank a) = [] := by
      intro margin inside
      rw [List.filter_eq_nil_iff]
      intro a found visible
      exact dark a (List.mem_filter.mpr ⟨(inside a found).1, visible⟩) (inside a found).2
    have first_gone := dropped first fun a found =>
      ⟨by rw [split]; simp [found], first_white a found⟩
    have last_gone := dropped last fun a found =>
      ⟨by rw [split]; simp [found], last_white a found⟩
    have whole := congrArg (List.filter fun a => !blank a) split
    rw [List.filter_append, List.filter_append, first_gone, last_gone, List.nil_append,
      List.append_nil] at whole
    exact whole.symm

end RemoteAccess.Trimming

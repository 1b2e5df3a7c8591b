import Mathlib.Data.List.Induction

/-! Histories that only grow: what holds of each entry with the entries before
it, and the latest value that entries of one kind have announced. -/

namespace RemoteAccess.History

variable {α β : Type*}

/-- `P` holds of every entry and what was there when it was written. -/
def EachAfter (P : List α → α → Prop) (log : List α) : Prop :=
  ∀ before e since, log = before ++ e :: since → P before e

theorem eachAfter_nil (P : List α → α → Prop) : EachAfter P [] := by
  intro before e since split
  simp at split

theorem EachAfter.append {P : List α → α → Prop} {log more : List α} (old : EachAfter P log)
    (new : EachAfter (fun before e => P (log ++ before) e) more) : EachAfter P (log ++ more) := by
  intro before e since split
  obtain ⟨rest, rfl, tail⟩ | ⟨rest, rfl, tail⟩ := List.append_eq_append_iff.mp split
  · exact new rest e since tail
  · cases rest with
    | nil =>
      have here := new [] e since tail.symm
      simpa using here
    | cons first rest =>
      obtain ⟨rfl, -⟩ := List.cons.inj tail
      exact old before e rest rfl

theorem EachAfter.left {P : List α → α → Prop} {log more : List α}
    (all : EachAfter P (log ++ more)) : EachAfter P log := by
  rintro before e since rfl
  exact all before e (since ++ more) (by simp)

theorem EachAfter.concat {P : List α → α → Prop} {log : List α} {e : α} (old : EachAfter P log)
    (here : P log e) : EachAfter P (log ++ [e]) := by
  refine old.append ?_
  intro before found since split
  obtain ⟨rfl, rfl, rfl⟩ : before = [] ∧ found = e ∧ since = [] := by
    simpa [List.singleton_eq_append_iff] using split
  rwa [List.append_nil]

/-! ### Announcements -/

def latest (announced : α → Option β) (log : List α) : Option β :=
  (log.filterMap announced).getLast?

variable {announced : α → Option β}

theorem latest_append (log more : List α) :
    latest announced (log ++ more) = (latest announced more).or (latest announced log) := by
  rw [latest, List.filterMap_append, List.getLast?_append, latest, latest]

theorem latest_append_quiet {log more : List α} (quiet : ∀ e ∈ more, announced e = none) :
    latest announced (log ++ more) = latest announced log := by
  rw [latest_append, latest, List.filterMap_eq_nil_iff.mpr quiet, List.getLast?_nil,
    Option.none_or]

theorem latest_append_cons {log since : List α} {e : α} {b : β} (here : announced e = some b)
    (quiet : ∀ e ∈ since, announced e = none) :
    latest announced (log ++ e :: since) = some b := by
  rw [List.append_cons, latest_append_quiet quiet, latest_append, latest,
    List.filterMap_cons_some here, List.filterMap_nil, List.getLast?_singleton, Option.some_or]

theorem latest_filter {p : α → Bool} (silent : ∀ e, p e = false → announced e = none)
    (log : List α) : latest announced (log.filter p) = latest announced log := by
  rw [latest, latest, List.filterMap_filter]
  congr 2
  funext e
  cases kept : p e with
  | true => rfl
  | false => rw [silent e kept]; rfl

theorem latest_append_of_mem {log more : List α} {e : α} {b : β} (member : e ∈ more)
    (here : announced e = some b) (only : ∀ e ∈ more, ∀ c, announced e = some c → c = b) :
    latest announced (log ++ more) = some b := by
  have found : b ∈ more.filterMap announced := List.mem_filterMap.mpr ⟨e, member, here⟩
  have last := List.getLast_mem (List.ne_nil_of_mem found)
  obtain ⟨other, among, value⟩ := List.mem_filterMap.mp last
  have same : latest announced more = some b := by
    rw [latest, List.getLast?_eq_some_getLast (List.ne_nil_of_mem found),
      only other among _ value]
  rw [latest_append, same, Option.some_or]

theorem latest_eq_some_iff (log : List α) (b : β) :
    latest announced log = some b ↔ ∃ before e since, log = before ++ e :: since ∧
      announced e = some b ∧ ∀ e ∈ since, announced e = none := by
  constructor
  · intro found
    induction log using List.reverseRecOn with
    | nil => simp [latest] at found
    | append_singleton log e ih =>
      cases here : announced e with
      | some c =>
        rw [latest_append_cons here (by simp)] at found
        exact ⟨log, e, [], rfl, here.trans found, by simp⟩
      | none =>
        rw [latest_append_quiet (by simpa using here)] at found
        obtain ⟨before, first, since, rfl, value, quiet⟩ := ih found
        refine ⟨before, first, since ++ [e], by simp, value, ?_⟩
        simp only [List.mem_append, List.mem_singleton]
        rintro other (old | rfl)
        · exact quiet other old
        · exact here
  · rintro ⟨before, e, since, rfl, here, quiet⟩
    exact latest_append_cons here quiet

end RemoteAccess.History

import RemoteAccess.Basics.PartialMap

/-! A heap whose blocks have owners. Each owner points to one block at most, and no block is
shared; a block nobody points to is leaked. Freeing a block that is not there has no result. -/

namespace RemoteAccess.Ownership

variable {ι β : Type*}

/-- Addresses from `next` on have never been handed out. -/
structure Heap (β : Type*) where
  cells : Nat → Option β
  next : Nat
  unused : ∀ a, next ≤ a → cells a = none

def Heap.empty : Heap β where
  cells _ := none
  next := 0
  unused _ _ := rfl

def Heap.alloc (h : Heap β) (block : β) : Heap β where
  cells := Function.update h.cells h.next (some block)
  next := h.next + 1
  unused a past := by
    rw [Function.update_of_ne (Nat.ne_of_gt past)]
    exact h.unused a (Nat.le_of_succ_le past)

def Heap.free (h : Heap β) (a : Nat) : Option (Heap β) :=
  match h.cells a with
  | none => none
  | some _ => some
    { cells := Function.update h.cells a none
      next := h.next
      unused := fun b past => by
        by_cases same : b = a
        · rw [same, Function.update_self]
        · rw [Function.update_of_ne same]
          exact h.unused b past }

structure Owned (h : Heap β) (pointer : ι → Option Nat) : Prop where
  live : ∀ {i a}, pointer i = some a → h.cells a ≠ none
  apart : ∀ {i j a}, pointer i = some a → pointer j = some a → i = j

def NoLeak (h : Heap β) (pointer : ι → Option Nat) : Prop :=
  ∀ a, h.cells a ≠ none → ∃ i, pointer i = some a

section Heaps

variable {h : Heap β} {a b : Nat} {block : β}

theorem alloc_new (h : Heap β) (block : β) : (h.alloc block).cells h.next = some block :=
  Function.update_self ..

theorem alloc_other (apart : a ≠ h.next) (block : β) : (h.alloc block).cells a = h.cells a :=
  Function.update_of_ne apart ..

theorem alloc_old (live : h.cells a ≠ none) (block : β) :
    (h.alloc block).cells a = h.cells a := by
  refine alloc_other ?_ block
  rintro rfl
  exact live (h.unused h.next (Nat.le_refl _))

theorem free_eq (live : h.cells a ≠ none) :
    ∃ h', h.free a = some h' ∧ h'.cells = Function.update h.cells a none ∧ h'.next = h.next := by
  obtain ⟨block, found⟩ := Option.ne_none_iff_exists'.mp live
  unfold Heap.free
  split
  · next gone => exact absurd gone live
  · exact ⟨_, rfl, rfl, rfl⟩

end Heaps

section Owners

variable {h : Heap β} {pointer : ι → Option Nat}

theorem Owned.next_unowned (owned : Owned h pointer) (i : ι) : pointer i ≠ some h.next :=
  fun found => owned.live found (h.unused h.next (Nat.le_refl _))

variable [DecidableEq ι]

theorem pointer_cases {i j : ι} {new : Option Nat} {a : Nat}
    (found : Function.update pointer i new j = some a) :
    (j = i ∧ new = some a) ∨ (j ≠ i ∧ pointer j = some a) := by
  by_cases same : j = i
  · rw [same, Function.update_self] at found
    exact .inl ⟨same, found⟩
  · rw [Function.update_of_ne same] at found
    exact .inr ⟨same, found⟩

theorem Owned.alloc (owned : Owned h pointer) (i : ι) (block : β) :
    Owned (h.alloc block) (Function.update pointer i (some h.next)) where
  live := by
    intro j a found
    obtain ⟨-, new⟩ | ⟨-, old⟩ := pointer_cases found
    · rw [← Option.some.inj new, alloc_new]
      exact Option.some_ne_none block
    · rw [alloc_old (owned.live old)]
      exact owned.live old
  apart := by
    intro j k a first second
    obtain ⟨rfl, new⟩ | ⟨-, old⟩ := pointer_cases first
    · obtain ⟨rfl, -⟩ | ⟨-, other⟩ := pointer_cases second
      · rfl
      · exact absurd (new ▸ other) (owned.next_unowned k)
    · obtain ⟨rfl, new⟩ | ⟨-, other⟩ := pointer_cases second
      · exact absurd (new ▸ old) (owned.next_unowned j)
      · exact owned.apart old other

theorem Owned.forget (owned : Owned h pointer) (i : ι) :
    Owned h (Function.update pointer i none) where
  live := by
    intro j a found
    obtain ⟨-, new⟩ | ⟨-, old⟩ := pointer_cases found
    · cases new
    · exact owned.live old
  apart := by
    intro j k a first second
    obtain ⟨-, new⟩ | ⟨-, old⟩ := pointer_cases first
    · cases new
    · obtain ⟨-, new⟩ | ⟨-, other⟩ := pointer_cases second
      · cases new
      · exact owned.apart old other

theorem Owned.free (owned : Owned h pointer) {i : ι} {a : Nat} (mine : pointer i = some a) :
    ∃ h', h.free a = some h' ∧ Owned h' (Function.update pointer i none) ∧
      ∀ j, j ≠ i → ∀ b, pointer j = some b → h'.cells b = h.cells b := by
  obtain ⟨h', freed, cells, -⟩ := free_eq (owned.live mine)
  have others : ∀ j, j ≠ i → ∀ b, pointer j = some b → h'.cells b = h.cells b := by
    intro j other b found
    rw [cells]
    refine Function.update_of_ne ?_ ..
    rintro rfl
    exact other (owned.apart found mine)
  refine ⟨h', freed, ⟨fun {j b} found => ?_, (owned.forget i).apart⟩, others⟩
  obtain ⟨-, new⟩ | ⟨other, old⟩ := pointer_cases found
  · cases new
  · rw [others j other b old]
    exact owned.live old

/-! ### Leaks -/

theorem noLeak_forget_iff (owned : Owned h pointer) (tight : NoLeak h pointer) (i : ι) :
    NoLeak h (Function.update pointer i none) ↔ pointer i = none := by
  constructor
  · intro still
    by_contra held
    obtain ⟨a, mine⟩ := Option.ne_none_iff_exists'.mp held
    obtain ⟨j, found⟩ := still a (owned.live mine)
    obtain ⟨-, new⟩ | ⟨other, old⟩ := pointer_cases found
    · cases new
    · exact other (owned.apart old mine)
  · intro free a live
    obtain ⟨j, found⟩ := tight a live
    refine ⟨j, ?_⟩
    rw [Function.update_of_ne ?_, found]
    rintro rfl
    rw [free] at found
    cases found

theorem noLeak_alloc_iff (owned : Owned h pointer) (tight : NoLeak h pointer) (i : ι) (block : β) :
    NoLeak (h.alloc block) (Function.update pointer i (some h.next)) ↔ pointer i = none := by
  constructor
  · intro still
    by_contra held
    obtain ⟨a, mine⟩ := Option.ne_none_iff_exists'.mp held
    have kept : (h.alloc block).cells a ≠ none := by
      rw [alloc_old (owned.live mine)]
      exact owned.live mine
    obtain ⟨j, found⟩ := still a kept
    obtain ⟨-, new⟩ | ⟨other, old⟩ := pointer_cases found
    · exact owned.next_unowned i (mine.trans new.symm)
    · exact other (owned.apart old mine)
  · intro free a live
    by_cases new : a = h.next
    · exact ⟨i, by rw [Function.update_self, new]⟩
    · have old : h.cells a ≠ none := by rwa [alloc_other new] at live
      obtain ⟨j, found⟩ := tight a old
      refine ⟨j, ?_⟩
      rw [Function.update_of_ne ?_, found]
      rintro rfl
      rw [free] at found
      cases found

theorem NoLeak.free (tight : NoLeak h pointer) {i : ι} {a : Nat} (mine : pointer i = some a)
    {h' : Heap β} (freed : h.free a = some h') (live : h.cells a ≠ none) :
    NoLeak h' (Function.update pointer i none) := by
  obtain ⟨_, again, cells, -⟩ := free_eq live
  obtain rfl := Option.some.inj (again.symm.trans freed)
  intro b here
  rw [cells] at here
  have apart : b ≠ a := by
    rintro rfl
    exact here (Function.update_self ..)
  rw [Function.update_of_ne apart] at here
  obtain ⟨j, found⟩ := tight b here
  refine ⟨j, ?_⟩
  rw [Function.update_of_ne ?_, found]
  rintro rfl
  exact apart (Option.some.inj (found.symm.trans mine))

end Owners

end RemoteAccess.Ownership

import Mathlib.Tactic.Ring

/-! Straight-line code over a buffer in a language that checks its indices and its
arithmetic. A `Run` keeps the indices it has read beside its outcome; `Returns m limit a` says
that `m` ends with `a`, fails nowhere and reads below `limit` only. -/

namespace RemoteAccess.CheckedReads

variable {α β : Type}

inductive Failure
  | indexOutOfRange
  | overflow
  | lengthMismatch
  | outOfFuel
deriving DecidableEq, Repr

structure Run (α : Type) where
  reads : List Nat
  outcome : Except Failure α

namespace Run

protected def pure (a : α) : Run α := ⟨[], .ok a⟩

protected def bind (m : Run α) (f : α → Run β) : Run β :=
  match m.outcome with
  | .ok a => ⟨m.reads ++ (f a).reads, (f a).outcome⟩
  | .error failure => ⟨m.reads, .error failure⟩

instance : Monad Run where
  pure := Run.pure
  bind := Run.bind

def fail (failure : Failure) : Run α := ⟨[], .error failure⟩

/-- `buffer[i]`. -/
def index (buffer : List α) (i : Nat) : Run α :=
  match buffer[i]? with
  | some a => ⟨[i], .ok a⟩
  | none => fail .indexOutOfRange

/-- `buffer[start..stop]`. -/
def slice (buffer : List α) (start stop : Nat) : Run (List α) :=
  if start ≤ stop ∧ stop ≤ buffer.length then
    ⟨List.range' start (stop - start), .ok ((buffer.drop start).take (stop - start))⟩
  else fail .indexOutOfRange

/-- An array of `width` elements filled from a slice of as many. -/
def copyFromSlice (width : Nat) (source : List α) : Run (List α) :=
  if source.length = width then Run.pure source else fail .lengthMismatch

/-- The addition of a 64-bit word. -/
def add (a b : Nat) : Run Nat := if a + b < 2 ^ 64 then Run.pure (a + b) else fail .overflow

def sub (a b : Nat) : Run Nat := if b ≤ a then Run.pure (a - b) else fail .overflow

end Run

structure Returns (m : Run α) (limit : Nat) (a : α) : Prop where
  outcome : m.outcome = .ok a
  inside : ∀ i ∈ m.reads, i < limit

theorem returns_pure (limit : Nat) (a : α) : Returns (pure a : Run α) limit a :=
  ⟨rfl, by rintro i ⟨⟩⟩

theorem Returns.bind {m : Run α} {f : α → Run β} {limit : Nat} {a : α} {b : β}
    (first : Returns m limit a) (later : Returns (f a) limit b) : Returns (m >>= f) limit b := by
  have bound : m >>= f = ⟨m.reads ++ (f a).reads, (f a).outcome⟩ := by
    change Run.bind m f = _
    rw [Run.bind, first.outcome]
  rw [bound]
  refine ⟨later.outcome, fun i read => ?_⟩
  rcases List.mem_append.mp read with read | read
  · exact first.inside i read
  · exact later.inside i read

theorem Returns.mono {m : Run α} {limit limit' : Nat} {a : α} (le : limit ≤ limit')
    (returns : Returns m limit a) : Returns m limit' a :=
  ⟨returns.outcome, fun i read => Nat.lt_of_lt_of_le (returns.inside i read) le⟩

theorem returns_index {buffer : List α} {i limit : Nat} {a : α} (inside : buffer[i]? = some a)
    (below : i < limit) : Returns (Run.index buffer i) limit a := by
  rw [Run.index, inside]
  exact ⟨rfl, by simpa using below⟩

theorem returns_slice {buffer : List α} {start stop limit : Nat} (order : start ≤ stop)
    (inside : stop ≤ buffer.length) (below : stop ≤ limit) :
    Returns (Run.slice buffer start stop) limit ((buffer.drop start).take (stop - start)) := by
  rw [Run.slice, if_pos ⟨order, inside⟩]
  refine ⟨rfl, fun i read => ?_⟩
  have := (List.mem_range'_1.mp read).2
  omega

theorem returns_copyFromSlice {width : Nat} {source : List α} (limit : Nat)
    (exact_ : source.length = width) : Returns (Run.copyFromSlice width source) limit source := by
  rw [Run.copyFromSlice, if_pos exact_]
  exact returns_pure limit source

theorem returns_add {a b : Nat} (limit : Nat) (room : a + b < 2 ^ 64) :
    Returns (Run.add a b) limit (a + b) := by
  rw [Run.add, if_pos room]
  exact returns_pure limit (a + b)

theorem Returns.index_add {buffer : List α} {i k limit : Nat} {f : α → Run β} {b : β}
    (room : i + k < 2 ^ 64) (inside : i + k < buffer.length) (below : i + k < limit)
    (later : Returns (f buffer[i + k]) limit b) :
    Returns (Run.add i k >>= fun j => Run.index buffer j >>= f) limit b := by
  have read := returns_index (List.getElem?_eq_getElem inside) below
  exact (returns_add limit room).bind (read.bind later)

theorem returns_sub {a b : Nat} (limit : Nat) (le : b ≤ a) :
    Returns (Run.sub a b) limit (a - b) := by
  rw [Run.sub, if_pos le]
  exact returns_pure limit (a - b)

theorem pure_outcome {a b : α} (ended : (pure a : Run α).outcome = .ok b) : a = b :=
  Except.ok.inj ended

theorem add_outcome {a b c : Nat} (ended : (Run.add a b).outcome = .ok c) : c = a + b := by
  rw [Run.add] at ended
  split_ifs at ended with room
  · exact (Except.ok.inj ended).symm
  · cases ended

theorem bind_outcome {m : Run α} {f : α → Run β} {b : β} (ended : (m >>= f).outcome = .ok b) :
    ∃ a, m.outcome = .ok a ∧ (f a).outcome = .ok b := by
  change (Run.bind m f).outcome = _ at ended
  rw [Run.bind] at ended
  cases first : m.outcome with
  | ok a => exact ⟨a, rfl, by rwa [first] at ended⟩
  | error failure => rw [first] at ended; cases ended

end RemoteAccess.CheckedReads

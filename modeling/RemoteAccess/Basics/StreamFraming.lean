import Mathlib.Data.List.Basic
import RemoteAccess.Basics.WhileLoop

/-! Framing of a byte stream that arrives in arbitrary pieces. A `Reader` looks
at the unread elements and either waits, drops one element, or takes an item
off the front; what it decides on a partial buffer it must also decide on every
extension. `Drains` is one emptying of the buffer and `Feeds` a sequence of
arrivals. The central fact is `Drains.append`: draining twice around an arrival
is draining once after it. `Follows` ties a `while` loop to a reader. -/

namespace RemoteAccess.StreamFraming

variable {α ι σ S : Type*}

inductive Verdict (ι : Type*)
  | wait
  | skip
  | item (value : ι)

structure Reader (α ι : Type*) where
  inspect : List α → Verdict ι
  /-- How many elements an item occupies. -/
  size : ι → Nat
  skip_nonempty : ∀ {buffer}, inspect buffer = .skip → buffer ≠ []
  item_bounds : ∀ {buffer value}, inspect buffer = .item value →
    0 < size value ∧ size value ≤ buffer.length
  stable : ∀ {buffer} (more : List α), inspect buffer ≠ .wait →
    inspect (buffer ++ more) = inspect buffer

variable (R : Reader α ι)

/-- Emptying `buffer` hands over `items` and leaves `rest` unread. -/
inductive Drains : List α → List ι → List α → Prop
  | wait {buffer} : R.inspect buffer = .wait → Drains buffer [] buffer
  | skip {buffer items rest} : R.inspect buffer = .skip →
      Drains (buffer.drop 1) items rest → Drains buffer items rest
  | item {buffer value items rest} : R.inspect buffer = .item value →
      Drains (buffer.drop (R.size value)) items rest → Drains buffer (value :: items) rest

/-- Each arrival is appended to what is pending and the whole is drained. -/
def Feeds : List α → List (List α) → List ι → List α → Prop
  | pending, [], items, rest => items = [] ∧ rest = pending
  | pending, arrival :: arrivals, items, rest => ∃ now left later,
      Drains R (pending ++ arrival) now left ∧ Feeds left arrivals later rest ∧
      items = now ++ later

variable {R}

theorem Drains.unique {buffer rest rest' : List α} {items items' : List ι}
    (first : Drains R buffer items rest) (second : Drains R buffer items' rest') :
    items = items' ∧ rest = rest' := by
  induction first generalizing items' rest' with
  | wait h =>
    cases second with
    | wait => exact ⟨rfl, rfl⟩
    | skip h' => simp [h] at h'
    | item h' => simp [h] at h'
  | skip h _ ih =>
    cases second with
    | wait h' => simp [h] at h'
    | skip _ d' => exact ih d'
    | item h' => simp [h] at h'
  | item h _ ih =>
    cases second with
    | wait h' => simp [h] at h'
    | skip h' => simp [h] at h'
    | item h' d' =>
      obtain rfl := Verdict.item.inj (h.symm.trans h')
      obtain ⟨rfl, rfl⟩ := ih d'
      exact ⟨rfl, rfl⟩

variable (R) in
theorem exists_drains (buffer : List α) : ∃ items rest, Drains R buffer items rest := by
  induction len : buffer.length using Nat.strongRecOn generalizing buffer with
  | ind n ih =>
    cases h : R.inspect buffer with
    | wait => exact ⟨[], buffer, .wait h⟩
    | skip =>
      have pos := List.length_pos_of_ne_nil (R.skip_nonempty h)
      obtain ⟨items, rest, d⟩ := ih _ (by rw [List.length_drop]; omega) (buffer.drop 1) rfl
      exact ⟨items, rest, .skip h d⟩
    | item value =>
      have bounds := R.item_bounds h
      obtain ⟨items, rest, d⟩ :=
        ih _ (by rw [List.length_drop]; omega) (buffer.drop (R.size value)) rfl
      exact ⟨value :: items, rest, .item h d⟩

theorem Drains.rest_waits {buffer rest : List α} {items : List ι}
    (d : Drains R buffer items rest) : R.inspect rest = .wait := by
  induction d with
  | wait h => exact h
  | skip _ _ ih => exact ih
  | item _ _ ih => exact ih

theorem Drains.length_le {buffer rest : List α} {items : List ι}
    (d : Drains R buffer items rest) : rest.length ≤ buffer.length := by
  induction d with
  | wait => exact Nat.le_refl _
  | skip _ _ ih => exact Nat.le_trans ih (by rw [List.length_drop]; omega)
  | item _ _ ih => exact Nat.le_trans ih (by rw [List.length_drop]; omega)

theorem Drains.append {buffer more rest final : List α} {items later : List ι}
    (first : Drains R buffer items rest) (second : Drains R (rest ++ more) later final) :
    Drains R (buffer ++ more) (items ++ later) final := by
  induction first with
  | wait => exact second
  | @skip buffer items rest h _ ih =>
    have pos := List.length_pos_of_ne_nil (R.skip_nonempty h)
    refine .skip ((R.stable more (by simp [h])).trans h) ?_
    rw [List.drop_append_of_le_length (by omega)]
    exact ih second
  | @item buffer value items rest h _ ih =>
    refine .item ((R.stable more (by simp [h])).trans h) ?_
    rw [List.drop_append_of_le_length (R.item_bounds h).2]
    exact ih second

/-- However a stream is cut into arrivals, it drains as one arrival would. -/
theorem feeds_iff_drains {pending : List α} (waits : R.inspect pending = .wait)
    (arrivals : List (List α)) (items : List ι) (rest : List α) :
    Feeds R pending arrivals items rest ↔ Drains R (pending ++ arrivals.flatten) items rest := by
  induction arrivals generalizing pending items with
  | nil =>
    rw [List.flatten_nil, List.append_nil]
    constructor
    · rintro ⟨rfl, rfl⟩
      exact .wait waits
    · intro d
      obtain ⟨rfl, rfl⟩ := d.unique (.wait waits)
      exact ⟨rfl, rfl⟩
  | cons arrival arrivals ih =>
    rw [List.flatten_cons, ← List.append_assoc]
    constructor
    · rintro ⟨now, left, later, d, f, rfl⟩
      exact d.append ((ih d.rest_waits later).mp f)
    · intro d
      obtain ⟨now, left, first⟩ := exists_drains R (pending ++ arrival)
      obtain ⟨later, final, second⟩ := exists_drains R (left ++ arrivals.flatten)
      obtain ⟨rfl, rfl⟩ := d.unique (first.append second)
      exact ⟨now, left, later, first, (ih first.rest_waits later).mpr second, rfl⟩

section Encoding

/-! A reader that takes exactly the encodings off the front of a buffer. -/

theorem drains_encodings {μ : Type*} {encode : μ → List α} {item : μ → ι}
    (reads : ∀ m more, R.inspect (encode m ++ more) = .item (item m))
    (sizes : ∀ m, (encode m).length = R.size (item m))
    (ms : List μ) {tail : List α} (waits : R.inspect tail = .wait) :
    Drains R ((ms.map encode).flatten ++ tail) (ms.map item) tail := by
  induction ms with
  | nil => exact .wait waits
  | cons m ms ih =>
    rw [List.map_cons, List.map_cons, List.flatten_cons, List.append_assoc]
    refine .item (reads m _) ?_
    rw [← sizes, List.drop_left]
    exact ih

theorem Drains.behind_skipped {garbage buffer rest : List α} {items : List ι}
    (skipped : ∀ i < garbage.length, R.inspect ((garbage ++ buffer).drop i) = .skip)
    (d : Drains R buffer items rest) : Drains R (garbage ++ buffer) items rest := by
  induction garbage with
  | nil => exact d
  | cons element garbage ih =>
    refine .skip (skipped 0 (Nat.succ_pos _)) ?_
    exact ih fun i inside => skipped (i + 1) (Nat.succ_lt_succ inside)

/-- A reader that never skips accounts for every element: what it hands over,
encoded again, is what it consumed. -/
theorem Drains.consumed {encode : ι → List α} {buffer rest : List α} {items : List ι}
    (noSkip : ∀ buffer, R.inspect buffer ≠ .skip)
    (exact : ∀ {buffer value}, R.inspect buffer = .item value →
      buffer.take (R.size value) = encode value)
    (d : Drains R buffer items rest) : buffer = (items.map encode).flatten ++ rest := by
  induction d with
  | wait => rfl
  | skip h => exact absurd h (noSkip _)
  | @item buffer value items rest h _ ih =>
    rw [List.map_cons, List.flatten_cons, List.append_assoc, ← ih, ← exact h,
      List.take_append_drop]

end Encoding

/-! ### Boundaries -/

variable (R) in
/-- Reading `buffer` comes to `rest`: what follows some of its items and skipped
elements. -/
inductive Reaches : List α → List α → Prop
  | refl {buffer} : Reaches buffer buffer
  | skip {buffer rest} : R.inspect buffer = .skip → Reaches (buffer.drop 1) rest →
      Reaches buffer rest
  | item {buffer value rest} : R.inspect buffer = .item value →
      Reaches (buffer.drop (R.size value)) rest → Reaches buffer rest

theorem Reaches.length_le {buffer rest : List α} (reached : Reaches R buffer rest) :
    rest.length ≤ buffer.length := by
  induction reached with
  | refl => exact Nat.le_refl _
  | skip _ _ ih => exact Nat.le_trans ih (by rw [List.length_drop]; omega)
  | item _ _ ih => exact Nat.le_trans ih (by rw [List.length_drop]; omega)

variable (R) in
/-- Reading comes to `rest` past items of which `ok` holds. -/
inductive ReachesBy (ok : ι → Prop) : List α → List α → Prop
  | refl {buffer} : ReachesBy ok buffer buffer
  | skip {buffer rest} : R.inspect buffer = .skip → ReachesBy ok (buffer.drop 1) rest →
      ReachesBy ok buffer rest
  | item {buffer value rest} : R.inspect buffer = .item value → ok value →
      ReachesBy ok (buffer.drop (R.size value)) rest → ReachesBy ok buffer rest

/-! ### Loops -/

theorem Drains.size_le {buffer rest : List α} {items : List ι} (d : Drains R buffer items rest) :
    ∀ value ∈ items, R.size value ≤ buffer.length := by
  induction d with
  | wait => simp
  | skip _ _ ih =>
    intro value mem
    have le := ih value mem
    rw [List.length_drop] at le
    omega
  | item h _ ih =>
    refine List.forall_mem_cons.mpr ⟨(R.item_bounds h).2, fun value mem => ?_⟩
    have le := ih value mem
    rw [List.length_drop] at le
    omega

/-- One pass of a loop over `mk state buffer` does what the reader says. Items
of `limit` elements and more are handed over as well, but what the pass then
removes from the buffer is left open. -/
structure Follows (R : Reader α ι) (limit : Nat) (mk : σ → List α → S) (hand : σ → ι → σ)
    (body : S → Option S) : Prop where
  wait : ∀ state {buffer}, R.inspect buffer = .wait → body (mk state buffer) = none
  skip : ∀ state {buffer}, R.inspect buffer = .skip →
    body (mk state buffer) = some (mk state (buffer.drop 1))
  item : ∀ state {buffer value}, R.inspect buffer = .item value →
    ∃ left, body (mk state buffer) = some (mk (hand state value) left) ∧
      (R.size value < limit → left = buffer.drop (R.size value))

/-- One pass does what the reader says on the items `ok` holds of. -/
structure FollowsOn (R : Reader α ι) (ok : ι → Prop) (mk : σ → List α → S) (hand : σ → ι → σ)
    (body : S → Option S) : Prop where
  wait : ∀ state {buffer}, R.inspect buffer = .wait → body (mk state buffer) = none
  skip : ∀ state {buffer}, R.inspect buffer = .skip →
    body (mk state buffer) = some (mk state (buffer.drop 1))
  item : ∀ state {buffer value}, R.inspect buffer = .item value → ok value →
    body (mk state buffer) = some (mk (hand state value) (buffer.drop (R.size value)))

section Loop

variable {limit : Nat} {ok : ι → Prop} {mk : σ → List α → S} {hand : σ → ι → σ}
  {body : S → Option S}

theorem Follows.followsOn (loop : Follows R limit mk hand body) :
    FollowsOn R (R.size · < limit) mk hand body where
  wait := loop.wait
  skip := loop.skip
  item := by
    intro state buffer value item size
    obtain ⟨left, pass, exact_size⟩ := loop.item state item
    rw [pass, exact_size size]

theorem FollowsOn.run_of_drains (loop : FollowsOn R ok mk hand body) {buffer rest : List α}
    {items : List ι} (d : Drains R buffer items rest) (all : ∀ value ∈ items, ok value)
    {fuel : Nat} (enough : buffer.length < fuel) (state : σ) :
    WhileLoop.run body fuel (mk state buffer) = some (mk (items.foldl hand state) rest) := by
  induction d generalizing fuel state with
  | wait h =>
    obtain ⟨fuel, rfl⟩ := Nat.exists_eq_add_of_le' (Nat.one_le_of_lt enough)
    exact WhileLoop.run_exit _ (loop.wait state h)
  | skip h _ ih =>
    obtain ⟨fuel, rfl⟩ := Nat.exists_eq_add_of_le' (Nat.one_le_of_lt enough)
    have pos := List.length_pos_of_ne_nil (R.skip_nonempty h)
    rw [WhileLoop.run_pass _ (loop.skip state h)]
    exact ih all (by rw [List.length_drop]; omega) state
  | item h _ ih =>
    obtain ⟨fuel, rfl⟩ := Nat.exists_eq_add_of_le' (Nat.one_le_of_lt enough)
    obtain ⟨first, others⟩ := List.forall_mem_cons.mp all
    have bounds := R.item_bounds h
    rw [WhileLoop.run_pass _ (loop.item state h first)]
    exact ih others (by rw [List.length_drop]; omega) _

theorem Follows.drains_of_run (loop : Follows R limit mk hand body) {fuel : Nat} {state : σ}
    {buffer : List α} {t : S} (done : WhileLoop.run body fuel (mk state buffer) = some t) :
    ∃ items rest, t = mk (items.foldl hand state) rest ∧
      ((∀ value ∈ items, R.size value < limit) → Drains R buffer items rest) := by
  induction fuel generalizing state buffer with
  | zero => simp [WhileLoop.run] at done
  | succ fuel ih =>
    cases h : R.inspect buffer with
    | wait =>
      rw [WhileLoop.run_exit _ (loop.wait state h)] at done
      exact ⟨[], buffer, (Option.some.inj done).symm, fun _ => .wait h⟩
    | skip =>
      rw [WhileLoop.run_pass _ (loop.skip state h)] at done
      obtain ⟨items, rest, same, drains⟩ := ih done
      exact ⟨items, rest, same, fun sizes => .skip h (drains sizes)⟩
    | item value =>
      obtain ⟨left, pass, exact_size⟩ := loop.item state h
      rw [WhileLoop.run_pass _ pass] at done
      obtain ⟨items, rest, same, drains⟩ := ih done
      refine ⟨value :: items, rest, same, fun sizes => ?_⟩
      obtain ⟨size, others⟩ := List.forall_mem_cons.mp sizes
      exact .item h (exact_size size ▸ drains others)

end Loop

end RemoteAccess.StreamFraming

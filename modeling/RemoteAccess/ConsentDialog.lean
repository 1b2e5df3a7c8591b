import Mathlib.Data.Fintype.Basic
import Mathlib.Logic.Function.Basic
import RemoteAccess.Basics.Transitions

/-! `IncomingConnectionDialog`: the host's user grants or denies a connection. The dialog is
opened and closed any number of times and keeps its properties in between. -/

namespace RemoteAccess.ConsentDialog

inductive Box
  | input
  | clipboard
  | fileTransfer
  | systemControl
deriving DecidableEq

def boxes : List Box := [.input, .clipboard, .fileTransfer, .systemControl]

theorem mem_boxes (box : Box) : box ∈ boxes := by cases box <;> decide

instance : Fintype Box := ⟨boxes.toFinset, fun box => List.mem_toFinset.mpr (mem_boxes box)⟩

def Box.bit : Box → Nat
  | input => 1
  | clipboard => 2
  | fileTransfer => 4
  | systemControl => 8

inductive Profile
  | full
  | standard
  | screenOnly
deriving DecidableEq

def Profile.index : Profile → Nat
  | full => 0
  | standard => 1
  | screenOnly => 2

/-- What the handler of the button assigns to the boxes. -/
def Profile.checked : Profile → Box → Bool
  | full, _ => true
  | standard, .input | standard, .clipboard => true
  | standard, _ => false
  | screenOnly, _ => false

structure Dialog where
  visible : Bool
  remainingSeconds : Int
  accessProfileIndex : Nat
  checked : Box → Bool

/-- `notified` is whether the boxes report the ticks that they are created with. -/
def initial (notified : Bool) : Dialog where
  visible := false
  remainingSeconds := 30
  accessProfileIndex := if notified then 3 else 0
  checked _ := true

/-- An assignment to `checked`, with the box's `onCheckedChanged`. -/
def Dialog.setChecked (d : Dialog) (box : Box) (value : Bool) : Dialog :=
  if d.checked box = value then d
  else { d with checked := Function.update d.checked box value, accessProfileIndex := 3 }

def Dialog.select (d : Dialog) (profile : Profile) : Dialog :=
  boxes.foldl (fun d box => d.setChecked box (profile.checked box))
    { d with accessProfileIndex := profile.index }

def Dialog.mask (d : Dialog) : Nat :=
  (boxes.map fun box => if d.checked box then box.bit else 0).foldl (· ||| ·) 0

inductive Signal
  | acceptedWithPermissions (accessMask : Nat)
  | connectionDenied
deriving DecidableEq

inductive Event
  | opened
  /-- The countdown timer, which runs while the dialog is visible. -/
  | triggered
  | select (profile : Profile)
  | toggle (box : Box)
  | deny
  | accept
deriving DecidableEq

/-- `none` is an event that cannot happen: what is below a modal dialog cannot be pressed, nor
what is in a closed one. -/
def step (d : Dialog) : Event → Option Dialog
  | .opened => if d.visible then none else some { d with visible := true }
  | .triggered =>
    if ¬ d.visible then none
    else if d.remainingSeconds > 1 then some { d with remainingSeconds := d.remainingSeconds - 1 }
    else some { d with visible := false }
  | .select profile => if d.visible then some (d.select profile) else none
  | .toggle box => if d.visible then some (d.setChecked box !d.checked box) else none
  | .deny | .accept => if d.visible then some { d with visible := false } else none

def signals (d : Dialog) : Event → List Signal
  | .triggered => if d.remainingSeconds > 1 then [] else [.connectionDenied]
  | .deny => [.connectionDenied]
  | .accept => [.acceptedWithPermissions d.mask]
  | _ => []

variable (notified : Bool)

def run (events : List Event) : Option Dialog := Transitions.run step (initial notified) events

def sent (events : List Event) : List Signal :=
  Transitions.outputs step signals (initial notified) events

/-! ### The presets -/

theorem Dialog.setChecked_checked (d : Dialog) (box : Box) (value : Bool) :
    (d.setChecked box value).checked = Function.update d.checked box value := by
  unfold setChecked
  split_ifs with same
  · rw [← same, Function.update_eq_self]
  · rfl

def Dialog.setAll (d : Dialog) (values : Box → Bool) (assigned : List Box) : Dialog :=
  assigned.foldl (fun d box => d.setChecked box (values box)) d

theorem Dialog.setAll_checked (d : Dialog) (values : Box → Bool) (assigned : List Box)
    (box : Box) : (d.setAll values assigned).checked box =
      if box ∈ assigned then values box else d.checked box := by
  induction assigned generalizing d with
  | nil => rfl
  | cons first assigned ih =>
    rw [setAll, List.foldl_cons]
    refine (ih _).trans ?_
    rw [setChecked_checked]
    by_cases same : box = first
    · simp [same]
    · simp [same]

theorem Dialog.setAll_index (d : Dialog) (values : Box → Bool) (assigned : List Box) :
    (d.setAll values assigned).accessProfileIndex =
      if ∀ box ∈ assigned, d.checked box = values box then d.accessProfileIndex else 3 := by
  induction assigned generalizing d with
  | nil => rfl
  | cons first assigned ih =>
    rw [setAll, List.foldl_cons]
    refine (ih _).trans ?_
    by_cases same : d.checked first = values first
    · have kept : d.setChecked first (values first) = d := if_pos same
      simp [kept, same]
    · have changed : (d.setChecked first (values first)).accessProfileIndex = 3 := by
        rw [setChecked, if_neg same]
      simp [changed, same]

theorem Dialog.setAll_others (d : Dialog) (values : Box → Bool) (assigned : List Box) :
    (d.setAll values assigned).visible = d.visible ∧
      (d.setAll values assigned).remainingSeconds = d.remainingSeconds := by
  induction assigned generalizing d with
  | nil => exact ⟨rfl, rfl⟩
  | cons first assigned ih =>
    have kept : (d.setChecked first (values first)).visible = d.visible ∧
        (d.setChecked first (values first)).remainingSeconds = d.remainingSeconds := by
      unfold setChecked
      split_ifs <;> exact ⟨rfl, rfl⟩
    exact ⟨(ih _).1.trans kept.1, (ih _).2.trans kept.2⟩

theorem Dialog.select_eq (d : Dialog) (profile : Profile) :
    d.select profile = { d with
      checked := profile.checked
      accessProfileIndex := if d.checked = profile.checked then profile.index else 3 } := by
  have same : d.select profile =
      { d with accessProfileIndex := profile.index }.setAll profile.checked boxes := rfl
  obtain ⟨visible, remaining⟩ :=
    setAll_others { d with accessProfileIndex := profile.index } profile.checked boxes
  have checked := funext
    (setAll_checked { d with accessProfileIndex := profile.index } profile.checked boxes)
  have index := setAll_index { d with accessProfileIndex := profile.index } profile.checked boxes
  simp only [mem_boxes, if_true, forall_const, ← funext_iff] at checked index
  rw [same]
  cases after : { d with accessProfileIndex := profile.index }.setAll profile.checked boxes
  rw [after] at visible remaining checked index
  simp only at visible remaining checked index
  rw [visible, remaining, checked, index]

/-! ### Runs -/

/-- The boxes after a press, which the other events leave as they are. -/
def ticks (now : Box → Bool) : Event → Box → Bool
  | .select profile => profile.checked
  | .toggle box => Function.update now box !now box
  | .opened | .triggered | .deny | .accept => now

/-- All boxes are ticked at first. -/
def ticked (events : List Event) : Box → Bool := events.foldl ticks fun _ => true

theorem ticked_concat (events : List Event) (event : Event) :
    ticked (events ++ [event]) = ticks (ticked events) event := by
  rw [ticked, List.foldl_append]
  rfl

structure Answers (before : List Event) (event : Event) : Prop where
  accept : event = .accept → ∃ accessMask < 16,
    sent notified (before ++ [event]) =
      sent notified before ++ [.acceptedWithPermissions accessMask] ∧
    ∀ box, accessMask &&& box.bit ≠ 0 ↔ ticked before box = true
  other : event ≠ .accept → sent notified (before ++ [event]) = sent notified before ∨
    sent notified (before ++ [event]) = sent notified before ++ [.connectionDenied]

structure Consistent (events : List Event) (d : Dialog) : Prop where
  /-- A preset that is highlighted is what would be granted. -/
  highlighted : ∀ profile : Profile, d.accessProfileIndex = profile.index →
    d.checked = profile.checked
  index : d.accessProfileIndex ≤ 3
  /-- Each opening but the present one has been answered, once. -/
  answered : (sent notified events).length + (if d.visible then 1 else 0) = events.count .opened
  /-- No opening sets the countdown back. -/
  countdown : (events.count .triggered + events.count .deny : Int) + d.remainingSeconds =
    30 + (sent notified events).count .connectionDenied
  remaining : 1 ≤ d.remainingSeconds
  checked : d.checked = ticked events

theorem Dialog.mask_iff (d : Dialog) (box : Box) :
    d.mask &&& box.bit ≠ 0 ↔ d.checked box = true := by
  have all : ∀ input clipboard fileTransfer systemControl : Bool,
      let checked : Box → Bool
        | .input => input
        | .clipboard => clipboard
        | .fileTransfer => fileTransfer
        | .systemControl => systemControl
      ({ initial false with checked := checked }.mask &&& box.bit ≠ 0 ↔ checked box = true) := by
    cases box <;> decide
  have here := all (d.checked .input) (d.checked .clipboard) (d.checked .fileTransfer)
    (d.checked .systemControl)
  cases box <;> exact here

theorem Dialog.mask_lt (d : Dialog) : d.mask < 16 := by
  have bit : ∀ box, (if d.checked box then box.bit else 0) < 2 ^ 4 := by
    intro box
    cases box <;> split <;> decide
  simp only [mask, boxes, List.map_cons, List.map_nil, List.foldl_cons, List.foldl_nil]
  exact Nat.or_lt_two_pow (Nat.or_lt_two_pow (Nat.or_lt_two_pow (Nat.or_lt_two_pow (by decide)
    (bit _)) (bit _)) (bit _)) (bit _)

theorem Consistent.answers {notified : Bool} {events : List Event} {d : Dialog}
    (now : Consistent notified events d) (ran : run notified events = some d) (event : Event) :
    Answers notified events event where
  accept := by
    rintro rfl
    refine ⟨d.mask, d.mask_lt, Transitions.outputs_concat signals ran .accept, fun box => ?_⟩
    rw [← now.checked]
    exact d.mask_iff box
  other := by
    intro other
    have more : sent notified (events ++ [event]) = sent notified events ++ signals d event :=
      Transitions.outputs_concat signals ran event
    rw [more]
    cases event with
    | accept => exact absurd rfl other
    | deny => exact .inr rfl
    | triggered =>
      unfold signals
      split_ifs
      · exact .inl (List.append_nil _)
      · exact .inr rfl
    | opened | select | toggle => exact .inl (List.append_nil _)

theorem Profile.index_injective {p q : Profile} (same : p.index = q.index) : p = q := by
  cases p <;> cases q <;> first | rfl | cases same

theorem Profile.index_lt (p : Profile) : p.index < 3 := by cases p <;> decide

theorem Dialog.toggle_eq (d : Dialog) (box : Box) :
    d.setChecked box (!d.checked box) = { d with
      checked := Function.update d.checked box !d.checked box
      accessProfileIndex := 3 } :=
  if_neg (by simp)

theorem consistent_initial : Consistent notified [] (initial notified) where
  highlighted := by
    intro profile highlighted
    cases notified <;> cases profile <;> cases highlighted
    rfl
  index := by cases notified <;> decide
  answered := rfl
  countdown := rfl
  remaining := by
    change (1 : Int) ≤ 30
    decide
  checked := rfl

theorem step_checked {d e : Dialog} {event : Event} (stepped : step d event = some e) :
    e.checked = ticks d.checked event := by
  cases event with
  | select profile =>
    simp only [ConsentDialog.step] at stepped
    split_ifs at stepped
    obtain rfl := Option.some.inj stepped
    rw [Dialog.select_eq]
    rfl
  | toggle box =>
    simp only [ConsentDialog.step] at stepped
    split_ifs at stepped
    obtain rfl := Option.some.inj stepped
    exact d.setChecked_checked box _
  | opened | triggered | deny | accept =>
    simp only [ConsentDialog.step] at stepped
    split_ifs at stepped
    all_goals
      obtain rfl := Option.some.inj stepped
      rfl

theorem Consistent.step {notified : Bool} {events : List Event} {d e : Dialog} {event : Event}
    (old : Consistent notified events d) (ran : run notified events = some d)
    (stepped : step d event = some e) : Consistent notified (events ++ [event]) e := by
  have more : sent notified (events ++ [event]) = sent notified events ++ signals d event :=
    Transitions.outputs_concat signals ran event
  have now : e.checked = ticked (events ++ [event]) := by
    rw [ticked_concat, ← old.checked]
    exact step_checked stepped
  obtain ⟨highlighted, index, answered, countdown, remaining, -⟩ := old
  cases event with
  | opened =>
    simp only [ConsentDialog.step] at stepped
    split_ifs at stepped with shown
    obtain rfl := Option.some.inj stepped
    refine ⟨highlighted, index, ?_, ?_, remaining, now⟩
    · simp [more, signals, shown] at answered ⊢
      omega
    · simpa [more, signals] using countdown
  | triggered =>
    simp only [ConsentDialog.step] at stepped
    split_ifs at stepped with hidden later
    · obtain rfl := Option.some.inj stepped
      refine ⟨highlighted, index, ?_, ?_, ?_, now⟩
      · simpa [more, signals, later] using answered
      · simp only [more, signals, later, if_true, List.append_nil, List.count_append,
          List.count_singleton_self, List.count_singleton] at countdown ⊢
        simp
        omega
      · dsimp only
        omega
    · obtain rfl := Option.some.inj stepped
      refine ⟨highlighted, index, ?_, ?_, remaining, now⟩
      · simp [more, signals, later, hidden] at answered ⊢
        omega
      · simp [more, signals, later] at countdown ⊢
        omega
  | select profile =>
    simp only [ConsentDialog.step] at stepped
    split_ifs at stepped with shown
    obtain rfl := Option.some.inj stepped
    rw [Dialog.select_eq] at now ⊢
    refine ⟨?_, ?_, ?_, ?_, remaining, now⟩
    · intro other highlighted
      dsimp only at highlighted ⊢
      split_ifs at highlighted with already
      · rw [Profile.index_injective highlighted]
      · exact absurd highlighted.symm (Nat.ne_of_lt other.index_lt)
    · dsimp only
      split_ifs
      · exact Nat.le_of_lt profile.index_lt
      · exact Nat.le_refl _
    · simpa [more, signals] using answered
    · simpa [more, signals] using countdown
  | toggle box =>
    simp only [ConsentDialog.step] at stepped
    split_ifs at stepped with shown
    obtain rfl := Option.some.inj stepped
    rw [Dialog.toggle_eq] at now ⊢
    refine ⟨?_, Nat.le_refl _, ?_, ?_, remaining, now⟩
    · intro other highlighted
      exact absurd highlighted.symm (Nat.ne_of_lt other.index_lt)
    · simpa [more, signals] using answered
    · simpa [more, signals] using countdown
  | deny =>
    simp only [ConsentDialog.step] at stepped
    split_ifs at stepped with shown
    obtain rfl := Option.some.inj stepped
    refine ⟨highlighted, index, ?_, ?_, remaining, now⟩
    · simp [more, signals, shown] at answered ⊢
      omega
    · simp [more, signals] at countdown ⊢
      omega
  | accept =>
    simp only [ConsentDialog.step] at stepped
    split_ifs at stepped with shown
    obtain rfl := Option.some.inj stepped
    refine ⟨highlighted, index, ?_, ?_, remaining, now⟩
    · simp [more, signals, shown] at answered ⊢
      omega
    · simp [more, signals] at countdown ⊢
      omega

theorem run_consistent {notified : Bool} {events : List Event} {d : Dialog}
    (ran : run notified events = some d) : Consistent notified events d := by
  induction events using List.reverseRecOn generalizing d with
  | nil =>
    obtain rfl := Option.some.inj ran
    exact consistent_initial notified
  | append_singleton events event ih =>
    rw [run, Transitions.run_concat, Option.bind_eq_some_iff] at ran
    obtain ⟨between, ran, stepped⟩ := ran
    exact (ih ran).step ran stepped

/-- In every run the dialog answers each opening once and highlights a preset only where it is
what would be granted; each acceptance sends the boxes that are ticked then. -/
theorem dialog_is_consistent (events : List Event) (d : Dialog)
    (ran : run notified events = some d) :
    Consistent notified events d ∧
      ∀ before event after, events = before ++ event :: after →
        Answers notified before event := by
  refine ⟨run_consistent ran, ?_⟩
  rintro before event after rfl
  obtain ⟨shown, reached, -⟩ := Transitions.exists_run_left ran
  exact (run_consistent reached).answers reached event

def twice : List Event :=
  [.opened, .toggle .input, .accept, .opened, .select .standard, .select .standard, .accept]

theorem dialog_is_consistent_standard : ∃ d, run false twice = some d ∧
    d.accessProfileIndex = 1 ∧ d.checked = Profile.standard.checked ∧
    ∃ first second, sent false twice =
        [.acceptedWithPermissions first, .acceptedWithPermissions second] ∧
      first &&& Box.input.bit = 0 ∧ second &&& Box.input.bit ≠ 0 := by
  obtain ⟨d, ran, index⟩ : ∃ d, run false twice = some d ∧ d.accessProfileIndex = 1 :=
    ⟨_, rfl, by decide⟩
  obtain ⟨consistent, answers⟩ := dialog_is_consistent false twice d ran
  obtain ⟨first, -, granted, bits⟩ := (answers [.opened, .toggle .input] .accept _ rfl).accept rfl
  obtain ⟨second, -, regranted, newBits⟩ := (answers [.opened, .toggle .input, .accept, .opened,
    .select .standard, .select .standard] .accept _ rfl).accept rfl
  refine ⟨d, ran, index, consistent.highlighted .standard index, first, second, ?_, ?_, ?_⟩
  · have kept : sent false [.opened, .toggle .input, .accept, .opened, .select .standard,
        .select .standard] = sent false [.opened, .toggle .input, .accept] := by decide
    rw [kept] at regranted
    exact regranted.trans (congrArg (· ++ [Signal.acceptedWithPermissions second]) granted)
  · rw [← not_ne_iff, bits]
    decide
  · rw [newBits]
    decide

end RemoteAccess.ConsentDialog

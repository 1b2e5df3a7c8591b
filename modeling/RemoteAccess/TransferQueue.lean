import Mathlib.Data.List.Nodup
import RemoteAccess.TransferStatus

/-! The client's queue of transfers: an item that is put into an empty queue is started
there and then, and nothing starts an item afterwards. -/

namespace RemoteAccess.TransferQueue

open TransferStatus (fileName)

structure QueueItem where
  fileName : String
  localPath : String
  remotePath : String
  isUpload : Bool
  status : String := "Queued"
deriving DecidableEq, Repr

/-- The calls that start a transfer. Each returns when the transfer has ended. -/
inductive Start where
  | startFileUpload (localPath remotePath : String)
  | startFileDownload (remotePath localPath : String)
deriving DecidableEq, Repr

def queueItem (localPath remotePath : String) (isUpload : Bool) : QueueItem where
  fileName := fileName (if isUpload then localPath else remotePath)
  localPath := localPath
  remotePath := remotePath
  isUpload := isUpload

def enQueueTransfer (transferQueue : List QueueItem) (localPath remotePath : String)
    (isUpload : Bool) : List QueueItem × Option Start :=
  let transferQueue := transferQueue ++ [queueItem localPath remotePath isUpload]
  (transferQueue,
    if transferQueue.length = 1 then
      some (if isUpload then .startFileUpload localPath remotePath
        else .startFileDownload remotePath localPath)
    else none)

def cancelQueueItem (transferQueue : List QueueItem) (index : Int) : List QueueItem :=
  if index ≥ 0 ∧ index < transferQueue.length then transferQueue.eraseIdx index.toNat
  else transferQueue

def clearQueue (_transferQueue : List QueueItem) : List QueueItem := []

inductive Call where
  | enQueueTransfer (localPath remotePath : String) (isUpload : Bool)
  | cancelQueueItem (index : Int)
  | clearQueue
deriving DecidableEq, Repr

/-- The queue after a call, and what the call starts. -/
def step (transferQueue : List QueueItem) : Call → List QueueItem × Option Start
  | .enQueueTransfer localPath remotePath isUpload =>
    enQueueTransfer transferQueue localPath remotePath isUpload
  | .cancelQueueItem index => (cancelQueueItem transferQueue index, none)
  | .clearQueue => (clearQueue transferQueue, none)

/-! ### The history of a queue -/

structure Entry where
  ticket : Nat
  item : QueueItem

structure Ledger where
  queue : List Entry := []
  /-- How many items were enqueued. -/
  enqueued : Nat := 0
  /-- The transfers started, in order. -/
  started : List (Nat × Start) := []
  /-- The items cancelled or cleared before they were started. -/
  withdrawn : List Nat := []

namespace Ledger

def starts (l : Ledger) : List Nat := l.started.map (·.1)

def tickets (l : Ledger) : List Nat := l.queue.map (·.ticket)

def waiting (l : Ledger) (entries : List Entry) : List Nat :=
  (entries.map (·.ticket)).filter (· ∉ l.starts)

def step (l : Ledger) : Call → Ledger
  | .enQueueTransfer localPath remotePath isUpload =>
    { l with
      queue := l.queue ++ [⟨l.enqueued, queueItem localPath remotePath isUpload⟩]
      enqueued := l.enqueued + 1
      started := l.started ++ ((enQueueTransfer (l.queue.map (·.item)) localPath remotePath
        isUpload).2.toList.map (l.enqueued, ·)) }
  | .cancelQueueItem index =>
    if index ≥ 0 ∧ index < l.queue.length then
      { l with
        queue := l.queue.eraseIdx index.toNat
        withdrawn := l.withdrawn ++ l.waiting l.queue[index.toNat]?.toList }
    else l
  | .clearQueue =>
    { l with
      queue := []
      withdrawn := l.withdrawn ++ l.waiting l.queue }

def run (calls : List Call) : Ledger := calls.foldl step {}

theorem step_queue (l : Ledger) (call : Call) :
    (l.step call).queue.map (·.item) = (TransferQueue.step (l.queue.map (·.item)) call).1 := by
  cases call with
  | enQueueTransfer localPath remotePath isUpload =>
    simp [step, TransferQueue.step, enQueueTransfer]
  | cancelQueueItem index =>
    simp only [step, TransferQueue.step, cancelQueueItem, List.length_map]
    split
    · rw [List.eraseIdx_eq_take_drop_succ, List.eraseIdx_eq_take_drop_succ, List.map_append,
        List.map_take, List.map_drop]
    · rfl
  | clearQueue => rfl

/-- No item is forgotten: each that was not withdrawn has been started once, and the items
have been started in the order in which they came. -/
def Settled (l : Ledger) : Prop :=
  (∀ ticket < l.enqueued, ticket ∉ l.withdrawn → l.starts.count ticket = 1) ∧
    l.starts.Pairwise (· < ·)

/-! ### What a call does to the ledger -/

section Calls

variable {l : Ledger} {localPath remotePath : String} {isUpload : Bool}

theorem tickets_enqueue :
    (l.step (.enQueueTransfer localPath remotePath isUpload)).tickets =
      l.tickets ++ [l.enqueued] := by
  simp [step, tickets]

theorem starts_enqueue :
    (l.step (.enQueueTransfer localPath remotePath isUpload)).starts =
      l.starts ++ if l.tickets = [] then [l.enqueued] else [] := by
  by_cases empty : l.queue = []
  · simp [step, starts, tickets, enQueueTransfer, empty]
  · simp [step, starts, tickets, enQueueTransfer, empty]

theorem step_cancel_out {index : Int} (outside : ¬ (index ≥ 0 ∧ index < l.queue.length)) :
    l.step (.cancelQueueItem index) = l := if_neg outside

theorem step_cancel_in {i : Nat} {ticket : Nat} (there : l.tickets[i]? = some ticket) :
    (l.step (.cancelQueueItem i)).tickets = l.tickets.eraseIdx i ∧
    (l.step (.cancelQueueItem i)).withdrawn =
      l.withdrawn ++ [ticket].filter (· ∉ l.starts) ∧
    (l.step (.cancelQueueItem i)).started = l.started ∧
    (l.step (.cancelQueueItem i)).enqueued = l.enqueued := by
  obtain ⟨entry, found, rfl⟩ : ∃ entry, l.queue[i]? = some entry ∧ entry.ticket = ticket := by
    simpa [tickets] using there
  have inside : (i : Int) ≥ 0 ∧ (i : Int) < l.queue.length := by
    have := (List.getElem?_eq_some_iff.mp found).1
    omega
  rw [step, if_pos inside]
  refine ⟨?_, ?_, rfl, rfl⟩
  · simp only [tickets, Int.toNat_natCast, List.eraseIdx_eq_take_drop_succ, List.map_append,
      List.map_take, List.map_drop]
  · simp [waiting, found]

end Calls

structure Sound (l : Ledger) : Prop where
  order : l.starts.Pairwise (· < ·)
  line : l.tickets.Pairwise (· < ·)
  startedBefore : ∀ t ∈ l.starts, t < l.enqueued
  queuedBefore : ∀ t ∈ l.tickets, t < l.enqueued ∧ t ∉ l.withdrawn
  withdrawnBefore : ∀ t ∈ l.withdrawn, t < l.enqueued
  known : ∀ t < l.enqueued, t ∈ l.starts ∨ t ∈ l.withdrawn ∨ t ∈ l.tickets

theorem Sound.enqueue {l : Ledger} (sound : l.Sound) (localPath remotePath : String)
    (isUpload : Bool) : (l.step (.enQueueTransfer localPath remotePath isUpload)).Sound := by
  have withdrawn : (l.step (.enQueueTransfer localPath remotePath isUpload)).withdrawn =
    l.withdrawn := rfl
  have enqueued : (l.step (.enQueueTransfer localPath remotePath isUpload)).enqueued =
    l.enqueued + 1 := rfl
  constructor
  · rw [starts_enqueue]
    split
    · exact List.pairwise_append.mpr ⟨sound.order, List.pairwise_singleton .., by
        simpa using sound.startedBefore⟩
    · simpa using sound.order
  · rw [tickets_enqueue]
    exact List.pairwise_append.mpr ⟨sound.line, List.pairwise_singleton .., by
      simpa using fun t member => (sound.queuedBefore t member).1⟩
  · rw [starts_enqueue, enqueued]
    intro t member
    have old := sound.startedBefore t
    grind
  · rw [tickets_enqueue, enqueued, withdrawn]
    intro t member
    have old := sound.queuedBefore t
    have gone := sound.withdrawnBefore t
    grind
  · rw [withdrawn, enqueued]
    exact fun t member => Nat.lt_succ_of_lt (sound.withdrawnBefore t member)
  · rw [starts_enqueue, enqueued, withdrawn, tickets_enqueue]
    intro t new
    have old := sound.known t
    grind

theorem mem_eraseIdx {xs : List Nat} (nodup : xs.Nodup) {i x : Nat} (there : xs[i]? = some x)
    (y : Nat) : y ∈ xs.eraseIdx i ↔ y ∈ xs ∧ y ≠ x := by
  rw [List.mem_eraseIdx_iff_getElem?]
  constructor
  · rintro ⟨j, other, found⟩
    refine ⟨List.mem_of_getElem? found, ?_⟩
    rintro rfl
    have inside := (List.getElem?_eq_some_iff.mp there).1
    exact other ((List.getElem?_inj inside nodup).mp (there.trans found.symm)).symm
  · rintro ⟨member, other⟩
    obtain ⟨j, found⟩ := List.mem_iff_getElem?.mp member
    refine ⟨j, ?_, found⟩
    rintro rfl
    exact other (Option.some.inj (found.symm.trans there))

theorem exists_place {l : Ledger} {index : Int} (inside : index ≥ 0 ∧ index < l.queue.length) :
    ∃ (i t : Nat), index = i ∧ l.tickets[i]? = some t := by
  obtain ⟨i, rfl⟩ := Int.eq_ofNat_of_zero_le inside.1
  have place : i < l.tickets.length := by
    rw [tickets, List.length_map]
    omega
  exact ⟨i, _, rfl, List.getElem?_eq_getElem place⟩

theorem Sound.cancel {l : Ledger} (sound : l.Sound) (index : Int) :
    (l.step (.cancelQueueItem index)).Sound := by
  by_cases inside : index ≥ 0 ∧ index < l.queue.length
  · obtain ⟨i, gone, rfl, found⟩ := exists_place inside
    obtain ⟨tickets, withdrawn, started, enqueued⟩ := step_cancel_in found
    have starts : (l.step (.cancelQueueItem i)).starts = l.starts := congrArg (·.map (·.1)) started
    have nodup : l.tickets.Nodup := sound.line.imp fun {a b} => Nat.ne_of_lt
    have left := mem_eraseIdx nodup found
    have there := List.mem_of_getElem? found
    constructor
    · rw [starts]
      exact sound.order
    · rw [tickets]
      exact sound.line.eraseIdx i
    · rw [starts, enqueued]
      exact sound.startedBefore
    · rw [tickets, withdrawn, enqueued]
      intro t member
      have old := sound.queuedBefore t
      grind
    · rw [withdrawn, enqueued]
      intro t member
      have old := sound.withdrawnBefore t
      have queued := sound.queuedBefore gone there
      grind
    · rw [starts, tickets, withdrawn, enqueued]
      intro t new
      have old := sound.known t new
      grind
  · rw [step_cancel_out inside]
    exact sound

theorem Sound.clear {l : Ledger} (sound : l.Sound) : (l.step .clearQueue).Sound where
  order := sound.order
  line := .nil
  startedBefore := sound.startedBefore
  queuedBefore := by simp [step, tickets]
  withdrawnBefore := by
    simp only [step, waiting, List.mem_append, List.mem_filter]
    rintro t (old | ⟨queued, -⟩)
    · exact sound.withdrawnBefore t old
    · exact (sound.queuedBefore t queued).1
  known := by
    intro t new
    have old := sound.known t new
    simp only [step, waiting, starts, tickets] at old ⊢
    grind

theorem run_concat (calls : List Call) (call : Call) :
    run (calls ++ [call]) = (run calls).step call := List.foldl_concat ..

theorem run_sound (calls : List Call) : (run calls).Sound := by
  induction calls using List.reverseRecOn with
  | nil =>
    exact ⟨.nil, .nil, by simp [run, starts], by simp [run, tickets], by simp [run],
      by simp [run]⟩
  | append_singleton calls call ih =>
    rw [run_concat]
    cases call with
    | enQueueTransfer localPath remotePath isUpload =>
      exact ih.enqueue localPath remotePath isUpload
    | cancelQueueItem index => exact ih.cancel index
    | clearQueue => exact ih.clear

/-- Nothing is forgotten when nothing in the queue is still to be started. -/
theorem Sound.settled_iff_started {l : Ledger} (sound : l.Sound) :
    l.Settled ↔ ∀ t ∈ l.tickets, t ∈ l.starts := by
  have once : l.starts.Nodup := sound.order.imp fun {a b} => Nat.ne_of_lt
  constructor
  · rintro ⟨all, -⟩ t queued
    obtain ⟨new, kept⟩ := sound.queuedBefore t queued
    exact List.one_le_count_iff.mp (Nat.le_of_eq (all t new kept).symm)
  · intro all
    refine ⟨fun t new kept => ?_, sound.order⟩
    refine List.count_eq_one_of_mem once ?_
    obtain started | gone | queued := sound.known t new
    · exact started
    · exact absurd gone kept
    · exact all t queued

end Ledger

/-! ### Which calls take an item out of the queue -/

def survives (place : Nat) : List Call → Bool
  | [] => true
  | .enQueueTransfer .. :: later => survives place later
  | .cancelQueueItem index :: later =>
    if index = place then false
    else if index ≥ 0 ∧ index < place then survives (place - 1) later
    else survives place later
  | .clearQueue :: _ => false

namespace Ledger

theorem step_old {l : Ledger} {t : Nat} (old : t < l.enqueued) (call : Call) :
    t < (l.step call).enqueued ∧ (t ∉ l.tickets → t ∉ (l.step call).tickets) ∧
      (t ∈ (l.step call).starts ↔ t ∈ l.starts) := by
  cases call with
  | enQueueTransfer localPath remotePath isUpload =>
    rw [tickets_enqueue, starts_enqueue]
    refine ⟨Nat.lt_succ_of_lt old, ?_, ?_⟩ <;> grind
  | cancelQueueItem index =>
    by_cases inside : index ≥ 0 ∧ index < l.queue.length
    · obtain ⟨i, gone, rfl, there⟩ := exists_place inside
      obtain ⟨tickets, -, started, enqueued⟩ := step_cancel_in there
      rw [enqueued, tickets, starts, started]
      exact ⟨old, fun away member => away (List.mem_of_mem_eraseIdx member), Iff.rfl⟩
    · rw [step_cancel_out inside]
      exact ⟨old, id, Iff.rfl⟩
  | clearQueue => exact ⟨old, fun _ => List.not_mem_nil, Iff.rfl⟩

theorem foldl_old {l : Ledger} {t : Nat} (old : t < l.enqueued) (later : List Call) :
    (t ∉ l.tickets → t ∉ (later.foldl step l).tickets) ∧
      (t ∈ (later.foldl step l).starts ↔ t ∈ l.starts) := by
  induction later generalizing l with
  | nil => exact ⟨id, Iff.rfl⟩
  | cons call later ih =>
    obtain ⟨still, away, starts⟩ := step_old old call
    obtain ⟨rest, kept⟩ := ih still
    exact ⟨fun out => rest (away out), kept.trans starts⟩

theorem survives_iff {l : Ledger} (sound : l.Sound) {place t : Nat}
    (there : l.tickets[place]? = some t) (later : List Call) :
    t ∈ (later.foldl step l).tickets ↔ survives place later = true := by
  induction later generalizing l place with
  | nil => exact iff_of_true (List.mem_of_getElem? there) rfl
  | cons call later ih =>
    have inside := (List.getElem?_eq_some_iff.mp there).1
    have old := (sound.queuedBefore t (List.mem_of_getElem? there)).1
    rw [List.foldl_cons]
    cases call with
    | enQueueTransfer localPath remotePath isUpload =>
      refine ih (sound.enqueue localPath remotePath isUpload) ?_
      rw [tickets_enqueue, List.getElem?_append_left inside, there]
    | cancelQueueItem index =>
      have next := sound.cancel index
      by_cases hits : index ≥ 0 ∧ index < l.queue.length
      · obtain ⟨i, gone, rfl, found⟩ := exists_place hits
        obtain ⟨tickets, -, -, -⟩ := step_cancel_in found
        obtain before | rfl | after := Nat.lt_trichotomy i place
        · rw [survives, if_neg (by omega), if_pos (by omega)]
          refine ih next ?_
          rw [tickets, List.getElem?_eraseIdx_of_ge (by omega), Nat.sub_add_cancel (by omega),
            there]
        · obtain rfl := Option.some.inj (found.symm.trans there)
          have nodup : l.tickets.Nodup := sound.line.imp fun {a b} => Nat.ne_of_lt
          have away : gone ∉ (l.step (.cancelQueueItem i)).tickets := by
            rw [tickets, mem_eraseIdx nodup found]
            exact fun member => member.2 rfl
          rw [survives, if_pos rfl]
          exact iff_of_false ((foldl_old (step_old old _).1 later).1 away) Bool.false_ne_true
        · rw [survives, if_neg (by omega), if_neg (by omega)]
          refine ih next ?_
          rw [tickets, List.getElem?_eraseIdx_of_lt after, there]
      · have length : l.tickets.length = l.queue.length := List.length_map _
        rw [survives, if_neg (by omega), if_neg (by omega), step_cancel_out hits]
        exact ih sound there
    | clearQueue =>
      exact iff_of_false ((foldl_old (step_old old _).1 later).1 List.not_mem_nil)
        Bool.false_ne_true

theorem exists_call {calls : List Call} {t : Nat} (old : t < (run calls).enqueued) :
    ∃ before localPath remotePath isUpload after,
      calls = before ++ .enQueueTransfer localPath remotePath isUpload :: after ∧
      (run before).enqueued = t := by
  induction calls using List.reverseRecOn with
  | nil => exact absurd old (Nat.not_lt_zero t)
  | append_singleton calls call ih =>
    by_cases earlier : t < (run calls).enqueued
    · obtain ⟨before, localPath, remotePath, isUpload, after, rfl, same⟩ := ih earlier
      exact ⟨before, localPath, remotePath, isUpload, after ++ [call], by simp, same⟩
    · rw [run_concat] at old
      cases call with
      | enQueueTransfer localPath remotePath isUpload =>
        have same : (run calls).enqueued = t := by
          have : t < (run calls).enqueued + 1 := old
          omega
        exact ⟨calls, localPath, remotePath, isUpload, [], rfl, same⟩
      | cancelQueueItem index =>
        by_cases inside : index ≥ 0 ∧ index < (run calls).queue.length
        · obtain ⟨i, gone, rfl, found⟩ := exists_place inside
          rw [(step_cancel_in found).2.2.2] at old
          exact absurd old earlier
        · rw [step_cancel_out inside] at old
          exact absurd old earlier
      | clearQueue => exact absurd old earlier

end Ledger

/-! ### When no item is forgotten -/

def queueAfter (calls : List Call) : List QueueItem :=
  calls.foldl (fun transferQueue call => (step transferQueue call).1) []

theorem queueAfter_eq (calls : List Call) :
    queueAfter calls = (Ledger.run calls).queue.map (·.item) := by
  induction calls using List.reverseRecOn with
  | nil => rfl
  | append_singleton calls call ih =>
    rw [Ledger.run_concat, Ledger.step_queue, ← ih, queueAfter, List.foldl_append]
    rfl

theorem length_queueAfter (calls : List Call) :
    (queueAfter calls).length = (Ledger.run calls).tickets.length := by
  rw [queueAfter_eq, Ledger.tickets, List.length_map, List.length_map]

theorem enqueued_item {before after : List Call} {localPath remotePath : String}
    {isUpload : Bool} {calls : List Call}
    (split : calls = before ++ .enQueueTransfer localPath remotePath isUpload :: after) :
    ((Ledger.run before).enqueued ∈ (Ledger.run calls).starts ↔ queueAfter before = []) ∧
      ((Ledger.run before).enqueued ∈ (Ledger.run calls).tickets ↔
        survives (queueAfter before).length after = true) := by
  subst split
  have sound := Ledger.run_sound before
  have ran : Ledger.run (before ++ .enQueueTransfer localPath remotePath isUpload :: after) =
      after.foldl Ledger.step
        ((Ledger.run before).step (.enQueueTransfer localPath remotePath isUpload)) := by
    rw [Ledger.run, List.foldl_append, List.foldl_cons]
    rfl
  have old : (Ledger.run before).enqueued <
      ((Ledger.run before).step (.enQueueTransfer localPath remotePath isUpload)).enqueued :=
    Nat.lt_succ_self _
  have empty : queueAfter before = [] ↔ (Ledger.run before).tickets = [] := by
    rw [← List.length_eq_zero_iff, length_queueAfter, List.length_eq_zero_iff]
  constructor
  · rw [ran, (Ledger.foldl_old old after).2, Ledger.starts_enqueue, empty]
    have fresh : (Ledger.run before).enqueued ∉ (Ledger.run before).starts :=
      fun member => Nat.lt_irrefl _ (sound.startedBefore _ member)
    grind
  · rw [ran, length_queueAfter]
    refine Ledger.survives_iff (sound.enqueue localPath remotePath isUpload) ?_ after
    rw [Ledger.tickets_enqueue, List.getElem?_append_right (Nat.le_refl _), Nat.sub_self,
      List.getElem?_cons_zero]

/-- No item is forgotten exactly when each that is enqueued behind another one is taken
out of the queue by a later call. -/
theorem settled_iff (calls : List Call) :
    (Ledger.run calls).Settled ↔
      ∀ before localPath remotePath isUpload after,
        calls = before ++ .enQueueTransfer localPath remotePath isUpload :: after →
        queueAfter before ≠ [] → survives (queueAfter before).length after = false := by
  have sound := Ledger.run_sound calls
  rw [sound.settled_iff_started]
  constructor
  · intro all before localPath remotePath isUpload after split behind
    obtain ⟨starts, stays⟩ := enqueued_item split
    refine Bool.eq_false_iff.mpr fun survived => ?_
    exact behind (starts.mp (all _ (stays.mpr survived)))
  · intro taken t queued
    obtain ⟨before, localPath, remotePath, isUpload, after, split, rfl⟩ :=
      Ledger.exists_call (sound.queuedBefore t queued).1
    obtain ⟨starts, stays⟩ := enqueued_item split
    refine starts.mpr (Decidable.byContradiction fun behind => ?_)
    have out := taken before localPath remotePath isUpload after split behind
    exact Bool.false_ne_true (out.symm.trans (stays.mp queued))

/-- Two uploads, one behind the other: the second is never started. -/
theorem second_upload_forgotten :
    ∃ calls, calls = [Call.enQueueTransfer "/home/a" "/srv" true,
        .enQueueTransfer "/home/b" "/srv" true] ∧
      (Ledger.run calls).started = [(0, .startFileUpload "/home/a" "/srv")] ∧
      (Ledger.run calls).withdrawn = [] ∧ ¬ (Ledger.run calls).Settled := by
  refine ⟨_, rfl, by decide, rfl, fun settled => ?_⟩
  exact absurd (settled.1 1 (by decide) (by decide)) (by decide)

end RemoteAccess.TransferQueue

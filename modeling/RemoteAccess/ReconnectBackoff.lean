import RemoteAccess.SessionConnection

/-! The delays between the retries. Slots and calls come here in any order, also in orders in
which no socket emits its signals. -/

namespace RemoteAccess.ReconnectBackoff

open QtText SessionConnection

/-- One thing that happens to the client. What a call does to the socket, and the slots that
the socket then calls, are callbacks of their own. -/
inductive Callback
  /-- The socket is in another state, and no slot was called. -/
  | socketMoves (socket : SocketState)
  | attempt (host : QString) (port : UInt16)
  | onConnected (out : Outside)
  | onDisconnected (out : Outside)
  | onErrorOccurred (errorString : QString)
  /-- The members that `connectToHost` sets. -/
  | setLastHost (host : QString) (port : UInt16) (password : QString)
  | setTarget (target : QString)
  | stopReconnecting
  | cancelReconnect
  | timerFired (out : Outside)

def setLastHost (host : QString) (port : UInt16) (password : QString) (c : Client) : Client :=
  let label := if c.lastConnectedTarget = [] then directLabel host port else c.lastConnectedTarget
  { c with
    requestedPassword := password
    lastHost := host
    lastPort := port
    userInitiatedDisconnect := false
    lastConnectedTarget := label
    statusText := .connecting label }

def beginAttempt (host : QString) (port : UInt16) (c : Client) : Client :=
  { c with socket := .connecting false, effects := c.effects ++ [.attempt host port] }

def handle (c : Client) : Callback → Client
  | .socketMoves socket => c.setSocket socket
  | .attempt host port => beginAttempt host port c
  | .onConnected out => onConnected out c
  | .onDisconnected out => onDisconnected out c
  | .onErrorOccurred errorString => onErrorOccurred errorString c
  | .setLastHost host port password => setLastHost host port password c
  | .setTarget target => c.setTarget target
  | .stopReconnecting => c.stopReconnecting
  | .cancelReconnect => cancelReconnect c
  | .timerFired out => attemptReconnect out { c with reconnectTimer := none }

def after (history : List HistoryRecord) (callbacks : List Callback) : Client :=
  callbacks.foldl handle (start history)

variable {c d e : Client} {callback : Callback}

/-! ### The runs of the connection are among these -/

def Reaches (c d : Client) : Prop := ∃ callbacks : List Callback, callbacks.foldl handle c = d

theorem Reaches.refl (c : Client) : Reaches c c := ⟨[], rfl⟩

theorem Reaches.handle (reached : Reaches c d) (callback : Callback) :
    Reaches c (ReconnectBackoff.handle d callback) := by
  obtain ⟨callbacks, rfl⟩ := reached
  exact ⟨callbacks ++ [callback], by rw [List.foldl_append, List.foldl_cons, List.foldl_nil]⟩

theorem reaches_socketAbort (reached : Reaches c d) (out : Outside) :
    Reaches c (socketAbort out d) := by
  have moved := reached.handle (.socketMoves .unconnected)
  by_cases up : d.Established
  · rw [socketAbort_established up]
    exact moved.handle (.onDisconnected out)
  · rw [socketAbort_down up]
    exact moved

theorem reaches_connectToHost (reached : Reaches c d) (out : Outside) (host : QString)
    (port : UInt16) (password : QString) : Reaches c (connectToHost out host port password d) := by
  have named := (reaches_socketAbort reached out).handle (.setLastHost host port password)
  have begun := named.handle (.attempt host port)
  rw [connectToHost_eq]
  exact begun

theorem reaches_socketDisconnectFromHost (reached : Reaches c d) (out : Outside) :
    Reaches c (socketDisconnectFromHost out d) := by
  obtain ⟨-, same⟩ | ⟨-, same⟩ | ⟨-, same | same⟩ := socketDisconnectFromHost_cases out d <;>
    rw [same]
  · exact reached
  · exact reached.handle (.socketMoves (.connecting true))
  · exact reached.handle (.socketMoves .closing)
  · exact (reached.handle (.socketMoves .unconnected)).handle (.onDisconnected out)

theorem reaches_step {event : Event} (reached : Reaches c d) (stepped : step d event = some e) :
    Reaches c e := by
  obtain ⟨action, out⟩ := event
  have moved : ∀ socket, Reaches c (d.setSocket socket) := fun socket =>
    reached.handle (.socketMoves socket)
  cases action with
  | connectToHost host port password =>
    obtain rfl := Option.some.inj stepped
    exact reaches_connectToHost reached out host port password
  | connectByP2PId id password =>
    obtain rfl := Option.some.inj stepped
    have named := reached.handle (.setTarget (deskLabel id))
    exact reaches_connectToHost named out localHost 18443 password
  | disconnectFromHost =>
    obtain rfl := Option.some.inj stepped
    exact reaches_socketDisconnectFromHost (reached.handle .stopReconnecting) out
  | cancelReconnect =>
    obtain rfl := Option.some.inj stepped
    exact reached.handle .cancelReconnect
  | connected =>
    have connected := (moved .connected).handle (.onConnected out)
    obtain ⟨-, rfl | rfl⟩ := step_connected stepped
    · exact connected
    · exact reaches_socketDisconnectFromHost connected out
  | attemptFailed =>
    obtain ⟨-, rfl⟩ := step_attemptFailed stepped
    exact (moved .unconnected).handle (.onErrorOccurred out.errorString)
  | connectionLost =>
    obtain ⟨-, rfl⟩ := step_connectionLost stepped
    exact ((moved .unconnected).handle (.onErrorOccurred out.errorString)).handle
      (.onDisconnected out)
  | closed =>
    obtain ⟨-, rfl⟩ := step_closed stepped
    exact (moved .unconnected).handle (.onDisconnected out)
  | timerFired =>
    obtain ⟨-, rfl⟩ := step_timerFired stepped
    exact reached.handle (.timerFired out)

/-- Every state that the events of the connection lead to is the state after some callbacks. -/
theorem exists_after_of_run {history : List HistoryRecord} {events : List Event}
    (ran : run (start history) events = some c) : ∃ callbacks, after history callbacks = c :=
  Transitions.run_invariant (Reaches (start history)) (.refl _)
    (fun stepped reached => reaches_step reached stepped) ran

/-! ### The counter -/

def Callback.Resets : Callback → Prop
  | .onConnected _ | .cancelReconnect => True
  | _ => False

/-- `onDisconnected` is called, and schedules a retry. -/
def Schedules (c : Client) : Callback → Prop
  | .onDisconnected _ => c.Retries
  | _ => False

theorem handle_of_resets (resets : callback.Resets) :
    (handle c callback).reconnectAttempts = 0 := by
  cases callback with
  | onConnected out => rfl
  | cancelReconnect => rfl
  | _ => exact resets.elim

theorem handle_of_schedules (schedules : Schedules c callback) :
    c.reconnectAttempts < maxReconnectAttempts ∧
      (handle c callback).reconnectAttempts = c.reconnectAttempts + 1 ∧
      (handle c callback).reconnectTimer = some (delayMs (c.reconnectAttempts + 1)) := by
  cases callback with
  | onDisconnected out =>
    have retries : c.Retries := schedules
    rw [handle, onDisconnected, if_pos retries]
    exact ⟨retries.2.2, rfl, rfl⟩
  | _ => exact schedules.elim

theorem handle_of_others (keeps : ¬ callback.Resets) (silent : ¬ Schedules c callback) :
    (handle c callback).reconnectAttempts = c.reconnectAttempts ∧
      ((handle c callback).reconnectTimer = c.reconnectTimer ∨
        (handle c callback).reconnectTimer = none) := by
  cases callback with
  | onConnected out => exact absurd trivial keeps
  | cancelReconnect => exact absurd trivial keeps
  | onDisconnected out =>
    have stays : ¬ c.Retries := silent
    rw [handle, onDisconnected, if_neg stays]
    exact ⟨rfl, .inl rfl⟩
  | stopReconnecting => exact ⟨rfl, .inr rfl⟩
  | timerFired out =>
    obtain ⟨-, same⟩ | ⟨-, -, ⟨-, same⟩ | ⟨-, same⟩⟩ :=
      attemptReconnect_cases out { c with reconnectTimer := none } <;>
      rw [handle, same] <;> exact ⟨rfl, .inr rfl⟩
  | _ => exact ⟨rfl, .inl rfl⟩

theorem handle_reconnectTimer (resets : callback.Resets) :
    (handle c callback).reconnectTimer = c.reconnectTimer ∨
      (handle c callback).reconnectTimer = none := by
  cases callback with
  | onConnected out => exact .inl rfl
  | cancelReconnect => exact .inr rfl
  | _ => exact resets.elim

theorem delayMs_bounds (attempts : Nat) :
    1000 ≤ delayMs attempts ∧ delayMs attempts ≤ 30000 := by
  have power : 0 < 1 <<< (attempts - 1) := by
    rw [Nat.one_shiftLeft]
    exact Nat.two_pow_pos _
  unfold delayMs
  omega

theorem delayMs_succ {attempts : Nat} (pos : 0 < attempts)
    (few : attempts < maxReconnectAttempts) :
    delayMs (attempts + 1) = 2 * delayMs attempts := by
  have uncapped : ∀ n < 5, 0 < n → delayMs (n + 1) = 2 * delayMs n := by decide
  exact uncapped attempts few pos

/-- The counter, and what the timer was armed with. -/
structure Bounded (c : Client) : Prop where
  attempts : c.reconnectAttempts ≤ maxReconnectAttempts
  timer : ∀ delay, c.reconnectTimer = some delay → 1000 ≤ delay ∧ delay ≤ 30000

theorem Bounded.handle (ok : Bounded c) (callback : Callback) : Bounded (handle c callback) := by
  have kept : ((ReconnectBackoff.handle c callback).reconnectTimer = c.reconnectTimer ∨
      (ReconnectBackoff.handle c callback).reconnectTimer = none) → ∀ delay,
        (ReconnectBackoff.handle c callback).reconnectTimer = some delay →
          1000 ≤ delay ∧ delay ≤ 30000 := by
    rintro (same | stopped) delay armed
    · exact ok.timer delay (same ▸ armed)
    · rw [stopped] at armed
      cases armed
  by_cases resets : callback.Resets
  · refine ⟨?_, kept (handle_reconnectTimer resets)⟩
    rw [handle_of_resets resets]
    exact Nat.zero_le _
  · by_cases schedules : Schedules c callback
    · obtain ⟨few, count, armed⟩ := handle_of_schedules schedules
      refine ⟨by rwa [count], fun delay held => ?_⟩
      obtain rfl := Option.some.inj (armed.symm.trans held)
      exact delayMs_bounds _
    · obtain ⟨same, timer⟩ := handle_of_others resets schedules
      exact ⟨same ▸ ok.attempts, kept timer⟩

theorem bounded_after (history : List HistoryRecord) (callbacks : List Callback) :
    Bounded (after history callbacks) :=
  List.foldlRecOn callbacks handle ⟨Nat.zero_le _, by simp [start]⟩
    fun _ ok callback _ => ok.handle callback

/-! ### Two retries, one after the other -/

def Between : Client → List Callback → Prop
  | _, [] => True
  | c, callback :: later =>
    (¬ callback.Resets ∧ ¬ Schedules c callback) ∧ Between (handle c callback) later

theorem Between.same_attempts {between : List Callback} (silent : Between c between) :
    (between.foldl handle c).reconnectAttempts = c.reconnectAttempts := by
  induction between generalizing c with
  | nil => rfl
  | cons callback later ih =>
    obtain ⟨⟨keeps, unscheduled⟩, silent⟩ := silent
    rw [List.foldl_cons, ih silent]
    exact (handle_of_others keeps unscheduled).1

/-- What the code computes when it schedules a retry in state `c`, and what it arms the timer
with. `reconnectAttempts_` has been counted up before. -/
structure WellDefined (c : Client) (callback : Callback) : Prop where
  count : 0 ≤ ((handle c callback).reconnectAttempts - 1 : Int) ∧
    ((handle c callback).reconnectAttempts - 1 : Int) ≤ 4
  shift : (1 <<< ((handle c callback).reconnectAttempts - 1)) < 2 ^ 31
  product : 1000 * (1 <<< ((handle c callback).reconnectAttempts - 1)) < 2 ^ 31
  delay : ∃ delay, (handle c callback).reconnectTimer = some delay ∧ 1000 ≤ delay ∧ delay ≤ 30000

theorem wellDefined_of_schedules (schedules : Schedules c callback) : WellDefined c callback := by
  obtain ⟨few, count, armed⟩ := handle_of_schedules schedules
  unfold maxReconnectAttempts at few
  have power : 1 <<< c.reconnectAttempts ≤ 2 ^ 4 := by
    rw [Nat.one_shiftLeft]
    exact Nat.pow_le_pow_right (by decide) (by omega)
  refine ⟨?_, ?_, ?_, _, armed, delayMs_bounds _⟩ <;> rw [count]
  · omega
  · rw [Nat.add_sub_cancel]
    omega
  · rw [Nat.add_sub_cancel]
    omega

theorem doubles {between : List Callback} {second : Callback} {delay next : Nat}
    (schedules : Schedules c callback) (armed : (handle c callback).reconnectTimer = some delay)
    (silent : Between (handle c callback) between)
    (again : Schedules (between.foldl handle (handle c callback)) second)
    (rearmed : (handle (between.foldl handle (handle c callback)) second).reconnectTimer =
      some next) : next = 2 * delay := by
  obtain ⟨-, count, first⟩ := handle_of_schedules schedules
  obtain ⟨few, -, last⟩ := handle_of_schedules again
  rw [silent.same_attempts, count] at few last
  obtain rfl := Option.some.inj (first.symm.trans armed)
  obtain rfl := Option.some.inj (last.symm.trans rearmed)
  exact delayMs_succ (Nat.succ_pos _) few

theorem backoff_bounded (history : List HistoryRecord) (callbacks : List Callback) :
    (after history callbacks).reconnectAttempts ≤ maxReconnectAttempts ∧
    (∀ delay, (after history callbacks).reconnectTimer = some delay →
      1000 ≤ delay ∧ delay ≤ 30000) ∧
    (∀ callback, Schedules (after history callbacks) callback →
      WellDefined (after history callbacks) callback) ∧
    ∀ before first between second delay next, callbacks = before ++ first :: between →
      Schedules (after history before) first →
      (after history (before ++ [first])).reconnectTimer = some delay →
      Between (after history (before ++ [first])) between →
      Schedules (after history callbacks) second →
      (after history (callbacks ++ [second])).reconnectTimer = some next → next = 2 * delay := by
  have bounded := bounded_after history callbacks
  refine ⟨bounded.attempts, bounded.timer, fun _ => wellDefined_of_schedules, ?_⟩
  rintro before first between second delay next rfl schedules armed silent again rearmed
  simp only [after, List.foldl_append, List.foldl_cons, List.foldl_nil] at *
  exact doubles schedules armed silent again rearmed

theorem backoff_bounded_two_losses :
    (after [] [.setLastHost localHost 18443 [], .onDisconnected calm]).reconnectTimer =
        some 1000 ∧
      (after [] [.setLastHost localHost 18443 [], .onDisconnected calm, .timerFired calm,
        .onErrorOccurred [], .onDisconnected calm]).reconnectTimer = some (2 * 1000) := by
  have armed : (after [] [.setLastHost localHost 18443 [], .onDisconnected calm]).reconnectTimer =
      some 1000 := rfl
  obtain ⟨next, rearmed⟩ : ∃ next, (after [] [.setLastHost localHost 18443 [],
      .onDisconnected calm, .timerFired calm, .onErrorOccurred [],
      .onDisconnected calm]).reconnectTimer = some next := ⟨_, rfl⟩
  obtain ⟨-, -, -, double⟩ := backoff_bounded [] [.setLastHost localHost 18443 [],
    .onDisconnected calm, .timerFired calm, .onErrorOccurred []]
  obtain rfl := double [.setLastHost localHost 18443 []] (.onDisconnected calm)
    [.timerFired calm, .onErrorOccurred []] (.onDisconnected calm) 1000 next rfl
    ⟨rfl, by decide, by decide⟩ armed ⟨⟨id, id⟩, ⟨id, id⟩, trivial⟩ ⟨rfl, by decide, by decide⟩
    rearmed
  exact ⟨armed, rearmed⟩

end RemoteAccess.ReconnectBackoff

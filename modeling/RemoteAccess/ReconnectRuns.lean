import RemoteAccess.SessionConnection

/-! What the flags of the reconnection, its timer and the socket have to do with each
other along every run of the client. -/

namespace RemoteAccess.ReconnectRuns

open QtText SessionConnection

variable {c d : Client} {out : Outside}

/-! ### What always holds -/

structure Sound (c : Client) : Prop where
  connected : c.isConnected = true → c.Established
  fresh : c.Established → c.isReconnecting = false ∧ c.reconnectAttempts = 0
  stopped : c.userInitiatedDisconnect = true → c.isReconnecting = false ∧ c.reconnectTimer = none

theorem not_established_unconnected (c : Client) :
    ¬ (c.setSocket .unconnected).Established := by
  simp [Client.Established]

theorem Sound.start (history : List HistoryRecord) : Sound (start history) where
  connected := by simp [SessionConnection.start]
  fresh := by simp [SessionConnection.start]
  stopped := by simp [SessionConnection.start]

theorem Sound.onDisconnected (ok : Sound c) (out : Outside) :
    Sound (onDisconnected out (c.setSocket .unconnected)) where
  connected := by simp
  fresh up := by simp [Client.Established] at up
  stopped user := by
    rw [onDisconnected_userInitiatedDisconnect, setSocket_userInitiatedDisconnect] at user
    have stays : ¬ c.Retries := by simp [Client.Retries, user]
    simp [stays, ok.stopped user]

theorem Sound.onErrorOccurred (ok : Sound c) (errorString : QString) :
    Sound (onErrorOccurred errorString c) where
  connected := by simp [SessionConnection.onErrorOccurred]
  fresh := ok.fresh
  stopped := ok.stopped

theorem Sound.unconnected (ok : Sound c) (down : ¬ c.Established) :
    Sound (c.setSocket .unconnected) where
  connected up := absurd (ok.connected up) down
  fresh up := absurd up (not_established_unconnected c)
  stopped := ok.stopped

theorem Sound.socketAbort (ok : Sound c) (out : Outside) : Sound (socketAbort out c) := by
  by_cases up : c.Established
  · rw [socketAbort_established up]
    exact ok.onDisconnected out
  · rw [socketAbort_down up]
    exact ok.unconnected up

theorem Sound.connectToHost (ok : Sound c) (out : Outside) (host : QString) (port : UInt16)
    (password : QString) : Sound (connectToHost out host port password c) := by
  have dropped := ok.socketAbort out
  have idle : ¬ (SessionConnection.socketAbort out c).Established := by
    simp [Client.Established]
  rw [connectToHost_eq]
  exact {
    connected := fun up => absurd (dropped.connected up) idle
    fresh := by simp [Client.Established]
    stopped := by simp }

theorem Sound.stopReconnecting (ok : Sound c) : Sound c.stopReconnecting where
  connected := ok.connected
  fresh up := ⟨rfl, (ok.fresh up).2⟩
  stopped _ := ⟨rfl, rfl⟩

theorem Sound.socketDisconnectFromHost (ok : Sound c) (out : Outside) :
    Sound (socketDisconnectFromHost out c) := by
  obtain ⟨-, same⟩ | ⟨connecting, same⟩ | ⟨up, same | same⟩ :=
    socketDisconnectFromHost_cases out c <;> rw [same]
  · exact ok
  · have down := not_established_of_connecting connecting
    exact {
      connected := fun up => absurd (ok.connected up) down
      fresh := by simp [Client.Established]
      stopped := ok.stopped }
  · exact ⟨fun _ => .inr rfl, fun _ => ok.fresh up, ok.stopped⟩
  · exact ok.onDisconnected out

theorem Sound.onConnected (ok : Sound c) (out : Outside) :
    Sound (onConnected out (c.setSocket .connected)) where
  connected _ := .inl rfl
  fresh _ := ⟨rfl, rfl⟩
  stopped user := ⟨rfl, (ok.stopped user).2⟩

theorem Sound.attemptReconnect (ok : Sound c) (out : Outside) :
    Sound (attemptReconnect out c) := by
  obtain ⟨-, same⟩ | ⟨-, -, ⟨idle, same⟩ | ⟨-, same⟩⟩ := attemptReconnect_cases out c <;> rw [same]
  · exact ok
  · have down : ¬ c.Established := by simp [Client.Established, idle]
    exact {
      connected := fun up => absurd (ok.connected up) down
      fresh := by simp [Client.Established]
      stopped := ok.stopped }
  · refine Sound.onErrorOccurred ?_ _
    exact ⟨ok.connected, ok.fresh, ok.stopped⟩

theorem Sound.step {e : Event} (ok : Sound c) (stepped : step c e = some d) : Sound d := by
  obtain ⟨action, out⟩ := e
  cases action with
  | connectToHost host port password =>
    exact Option.some.inj stepped ▸ ok.connectToHost out host port password
  | connectByP2PId id password =>
    have named : Sound (c.setTarget (deskLabel id)) :=
      ⟨ok.connected, ok.fresh, ok.stopped⟩
    exact Option.some.inj stepped ▸ named.connectToHost out localHost 18443 password
  | disconnectFromHost =>
    exact Option.some.inj stepped ▸ ok.stopReconnecting.socketDisconnectFromHost out
  | cancelReconnect =>
    have stopped := ok.stopReconnecting
    exact Option.some.inj stepped ▸
      ⟨stopped.connected, fun _ => ⟨rfl, rfl⟩, fun _ => ⟨rfl, rfl⟩⟩
  | connected =>
    obtain ⟨-, rfl | rfl⟩ := step_connected stepped
    · exact ok.onConnected out
    · exact (ok.onConnected out).socketDisconnectFromHost out
  | attemptFailed =>
    obtain ⟨connecting, rfl⟩ := step_attemptFailed stepped
    exact (ok.unconnected (not_established_of_connecting connecting)).onErrorOccurred _
  | connectionLost =>
    obtain ⟨-, rfl⟩ := step_connectionLost stepped
    exact (ok.onErrorOccurred _).onDisconnected out
  | closed =>
    obtain ⟨-, rfl⟩ := step_closed stepped
    exact ok.onDisconnected out
  | timerFired =>
    obtain ⟨-, rfl⟩ := step_timerFired stepped
    have fired : Sound { c with reconnectTimer := none } :=
      ⟨ok.connected, ok.fresh, fun user => ⟨(ok.stopped user).1, rfl⟩⟩
    exact fired.attemptReconnect out

/-! ### Retries go on -/

/-- While the client says that it is reconnecting, something is going to happen. -/
def Alive (c : Client) : Prop :=
  c.isReconnecting = true → c.reconnectTimer ≠ none ∨ c.Connecting

/-- A failure of an attempt finds the timer armed, or no retries going on; and the timer,
when it fires, a host or an attempt still under way. -/
def RetrySurvives (c : Client) (e : Event) : Prop :=
  match e.action with
  | .attemptFailed => c.isReconnecting = false ∨ c.reconnectTimer ≠ none
  | .timerFired => c.isReconnecting = false ∨ c.lastHost ≠ [] ∨ c.Connecting
  | _ => True

theorem alive_onDisconnected (out : Outside) (c : Client) : Alive (onDisconnected out c) := by
  intro going
  rw [onDisconnected_isReconnecting, decide_eq_true_eq] at going
  simp [going]

theorem alive_of_connecting {pendingClose : Bool} (here : c.socket = .connecting pendingClose) :
    Alive c := fun _ => .inr ⟨pendingClose, here⟩

theorem alive_of_idle (idle : c.isReconnecting = false) : Alive c := by
  simp [Alive, idle]

theorem alive_socketDisconnectFromHost (alive : Alive c) (out : Outside) :
    Alive (socketDisconnectFromHost out c) := by
  obtain ⟨-, same⟩ | ⟨-, same⟩ | ⟨up, same | same⟩ :=
    socketDisconnectFromHost_cases out c <;> rw [same]
  · exact alive
  · exact alive_of_connecting rfl
  · intro going
    refine (alive going).imp_right fun connecting => ?_
    exact absurd up (not_established_of_connecting connecting)
  · exact alive_onDisconnected out _

theorem alive_attemptReconnect_iff (not_user : c.userInitiatedDisconnect = false)
    (fresh : c.Established → c.isReconnecting = false ∧ c.reconnectAttempts = 0) :
    Alive (attemptReconnect out { c with reconnectTimer := none }) ↔
      c.isReconnecting = false ∨ c.lastHost ≠ [] ∨ c.Connecting := by
  obtain ⟨stays, same⟩ | ⟨-, host, ⟨-, same⟩ | ⟨busy, same⟩⟩ :=
    attemptReconnect_cases out { c with reconnectTimer := none } <;> rw [same]
  · have no_host : c.lastHost = [] := stays.resolve_left (by simp [not_user])
    cases h : c.isReconnecting <;> simp [Alive, Client.Connecting, no_host]
  · exact iff_of_true (alive_of_connecting rfl) (.inr (.inl host))
  · refine iff_of_true (fun going => .inr ?_) (.inr (.inl host))
    obtain idle | connecting | up := socket_cases c
    · exact absurd idle busy
    · exact connecting
    · exact absurd going (by simp [onErrorOccurred, (fresh up).1])

theorem alive_step_iff {e : Event} (stepped : step c e = some d) (ok : Sound c) :
    Alive d ↔ RetrySurvives c e := by
  obtain ⟨action, out⟩ := e
  cases action with
  | connectToHost host port password =>
    refine iff_of_true ?_ trivial
    obtain rfl := Option.some.inj stepped
    rw [connectToHost_eq]
    exact alive_of_connecting rfl
  | connectByP2PId id password =>
    refine iff_of_true ?_ trivial
    obtain rfl := Option.some.inj stepped
    rw [connectByP2PId, connectToHost_eq]
    exact alive_of_connecting rfl
  | disconnectFromHost =>
    refine iff_of_true (alive_of_idle ((ok.step stepped).stopped ?_).1) trivial
    obtain rfl := Option.some.inj stepped
    simp [disconnectFromHost]
  | cancelReconnect =>
    obtain rfl := Option.some.inj stepped
    exact iff_of_true (alive_of_idle rfl) trivial
  | connected =>
    refine iff_of_true ?_ trivial
    obtain ⟨-, rfl | rfl⟩ := step_connected stepped
    · exact alive_of_idle rfl
    · exact alive_socketDisconnectFromHost (alive_of_idle rfl) out
  | attemptFailed =>
    obtain ⟨-, rfl⟩ := step_attemptFailed stepped
    cases h : c.isReconnecting <;>
      simp [Alive, RetrySurvives, onErrorOccurred, Client.Connecting, h]
  | connectionLost =>
    obtain ⟨-, rfl⟩ := step_connectionLost stepped
    exact iff_of_true (alive_onDisconnected out _) trivial
  | closed =>
    obtain ⟨-, rfl⟩ := step_closed stepped
    exact iff_of_true (alive_onDisconnected out _) trivial
  | timerFired =>
    obtain ⟨armed, rfl⟩ := step_timerFired stepped
    have not_user : c.userInitiatedDisconnect = false :=
      Bool.eq_false_iff.mpr fun user => armed (ok.stopped user).2
    exact alive_attemptReconnect_iff not_user ok.fresh

theorem reconnect_stays_alive_iff {history : List HistoryRecord} {events : List Event}
    (ran : run (start history) events = some c) :
    (∀ before after s, events = before ++ after → run (start history) before = some s → Alive s) ↔
      Transitions.Throughout step RetrySurvives (start history) events :=
  Transitions.always_iff_throughout Sound Alive (.start history) (alive_of_idle rfl)
    (fun stepped ok => ok.step stepped) (fun stepped ok _ => alive_step_iff stepped ok) ran

theorem reconnect_stays_alive_iff_lost :
    ∃ c, run (start []) (localRetry ++ [⟨.attemptFailed, calm⟩]) = some c ∧
      ((∀ before after s, localRetry ++ [⟨.attemptFailed, calm⟩] = before ++ after →
        run (start []) before = some s → Alive s) ↔
      Transitions.Throughout step RetrySurvives (start [])
        (localRetry ++ [⟨.attemptFailed, calm⟩])) :=
  ⟨_, rfl, reconnect_stays_alive_iff rfl⟩

/-- The host is still down at the first retry. -/
theorem failed_retry_stalls :
    ∃ c, run (start []) (localRetry ++ [⟨.attemptFailed, calm⟩]) = some c ∧ ¬ Alive c := by
  obtain ⟨c, ran, going, timer, socket⟩ : ∃ c,
      run (start []) (localRetry ++ [⟨.attemptFailed, calm⟩]) = some c ∧
        c.isReconnecting = true ∧ c.reconnectTimer = none ∧ c.socket = .unconnected :=
    ⟨_, rfl, rfl, rfl, rfl⟩
  refine ⟨c, ran, fun alive => ?_⟩
  obtain armed | ⟨pendingClose, here⟩ := alive going
  · exact armed timer
  · rw [socket] at here
    cases here

/-! ### Cancelling -/

/-- A step that opens nothing: no attempt, no `AuthRequest`, and `isConnected_` does not
become true. -/
def Quiet (c d : Client) : Prop :=
  (d.isConnected = true → c.isConnected = true) ∧ ∃ more, d.effects = c.effects ++ more ∧
    ∀ effect ∈ more, (∀ host port, effect ≠ .attempt host port) ∧
      ∀ packet, effect = .write packet → packet.type ≠ .authRequest

theorem Quiet.of_same_effects (connected : d.isConnected = true → c.isConnected = true)
    (same : d.effects = c.effects) : Quiet c d :=
  ⟨connected, [], by rw [same, List.append_nil], by simp⟩

/-- After these events a cancellation is final: until the next call that connects, every
step is quiet. -/
def CancelFinal (history : List HistoryRecord) (before : List Event) : Prop :=
  ∀ out since e u v, (∀ other ∈ since, ¬ other.action.IsConnectCall) →
    ¬ e.action.IsConnectCall →
    run (start history) (before ++ ⟨.cancelReconnect, out⟩ :: since) = some u →
    step u e = some v → Quiet u v

structure Cancelled (c : Client) : Prop where
  user : c.userInitiatedDisconnect = true
  timer : c.reconnectTimer = none
  idle : ¬ c.Connecting

theorem Cancelled.not_retries (done : Cancelled c) : ¬ c.Retries := by
  simp [Client.Retries, done.user]

theorem Cancelled.onDisconnected (done : Cancelled c) (out : Outside) :
    Cancelled (onDisconnected out (c.setSocket .unconnected)) where
  user := by simp [done.user]
  timer := by simp [done.not_retries, done.timer]
  idle := by simp [Client.Connecting]

theorem quiet_onDisconnected (out : Outside) (same : d.effects = c.effects) :
    Quiet c (onDisconnected out d) :=
  .of_same_effects (by simp) (by simp [same])

theorem Cancelled.step {e : Event} (done : Cancelled c) (other : ¬ e.action.IsConnectCall)
    (stepped : step c e = some d) : Cancelled d ∧ Quiet c d := by
  obtain ⟨action, out⟩ := e
  cases action with
  | connectToHost host port password => exact absurd trivial other
  | connectByP2PId id password => exact absurd trivial other
  | disconnectFromHost =>
    obtain rfl := Option.some.inj stepped
    have stopped : Cancelled c.stopReconnecting := ⟨rfl, rfl, done.idle⟩
    rw [disconnectFromHost]
    obtain ⟨-, same⟩ | ⟨connecting, -⟩ | ⟨-, same | same⟩ :=
      socketDisconnectFromHost_cases out c.stopReconnecting
    · rw [same]
      exact ⟨stopped, .of_same_effects (fun up => up) rfl⟩
    · exact absurd connecting done.idle
    · rw [same]
      exact ⟨⟨rfl, rfl, by simp [Client.Connecting]⟩, .of_same_effects (fun up => up) rfl⟩
    · rw [same]
      exact ⟨stopped.onDisconnected out, quiet_onDisconnected out rfl⟩
  | cancelReconnect =>
    obtain rfl := Option.some.inj stepped
    exact ⟨⟨rfl, rfl, done.idle⟩, .of_same_effects (fun up => up) rfl⟩
  | connected =>
    exact absurd (step_connected stepped).1 done.idle
  | attemptFailed =>
    exact absurd (step_attemptFailed stepped).1 done.idle
  | connectionLost =>
    have lost : Cancelled (onErrorOccurred out.errorString c) := ⟨done.user, done.timer, done.idle⟩
    obtain ⟨-, rfl⟩ := step_connectionLost stepped
    exact ⟨lost.onDisconnected out, quiet_onDisconnected out rfl⟩
  | closed =>
    obtain ⟨-, rfl⟩ := step_closed stepped
    exact ⟨done.onDisconnected out, quiet_onDisconnected out rfl⟩
  | timerFired =>
    exact absurd done.timer (step_timerFired stepped).1

theorem Cancelled.run {since : List Event} (done : Cancelled c)
    (others : ∀ e ∈ since, ¬ e.action.IsConnectCall) (ran : run c since = some d) :
    Cancelled d := by
  have silent : Transitions.Throughout SessionConnection.step
      (fun _ e => ¬ e.action.IsConnectCall) c since := by
    rintro before e after s rfl -
    exact others e (by simp)
  exact silent.invariant Cancelled ran done fun other stepped done => (done.step other stepped).1

/-- An attempt that succeeds sends the password, whoever has cancelled. -/
theorem connected_sends {pendingClose : Bool} (here : c.socket = .connecting pendingClose)
    (out : Outside) :
    ∃ d packet, step c ⟨.connected, out⟩ = some d ∧ packet.type = .authRequest ∧
      d.effects = c.effects ++ [.write packet] := by
  obtain ⟨packet, password, written⟩ : ∃ packet, packet.type = .authRequest ∧
      (onConnected out (c.setSocket .connected)).effects = c.effects ++ [.write packet] :=
    ⟨_, rfl, rfl⟩
  cases pendingClose with
  | false => exact ⟨_, packet, by rw [step, here], password, written⟩
  | true =>
    exact ⟨_, packet, by rw [step, here], password,
      (socketDisconnectFromHost_effects ..).trans written⟩

theorem cancel_is_final_iff {history : List HistoryRecord} {before : List Event}
    (ran : run (start history) before = some c) :
    CancelFinal history before ↔ ¬ c.Connecting := by
  have resume : ∀ out since, SessionConnection.run (SessionConnection.start history)
      (before ++ ⟨.cancelReconnect, out⟩ :: since) =
        SessionConnection.run (cancelReconnect c) since := by
    intro out since
    rw [SessionConnection.run, Transitions.run_append, ← SessionConnection.run, ran]
    rfl
  constructor
  · rintro final ⟨pendingClose, here⟩
    have still : (cancelReconnect c).socket = .connecting pendingClose := here
    let out : Outside := ⟨0, [], [], false⟩
    obtain ⟨d, packet, stepped, password, written⟩ := connected_sends still out
    obtain ⟨-, more, effects, silent⟩ :=
      final out [] ⟨.connected, out⟩ _ d (by simp) (fun call => call) (resume out []) stepped
    obtain rfl := List.append_cancel_left (effects.symm.trans written)
    exact (silent _ (List.mem_singleton_self _)).2 packet rfl password
  · intro idle out since e u v others other ran stepped
    rw [resume] at ran
    have done : Cancelled (cancelReconnect c) := ⟨rfl, rfl, idle⟩
    exact ((done.run others ran).step other stepped).2

theorem cancel_is_final_iff_waiting :
    CancelFinal [] (localSession ++ [⟨.connectionLost, calm⟩]) := by
  refine (cancel_is_final_iff rfl).mpr ?_
  rintro ⟨pendingClose, here⟩
  cases here

/-- A cancellation comes while the retry is under way, which then succeeds. -/
theorem cancelled_retry_connects : ¬ CancelFinal [] localRetry := by
  intro final
  obtain ⟨u, v, ran, stepped, down, up⟩ : ∃ u v,
      run (start []) (localRetry ++ [⟨.cancelReconnect, calm⟩]) = some u ∧
        step u ⟨.connected, calm⟩ = some v ∧ u.isConnected = false ∧ v.isConnected = true :=
    ⟨_, _, rfl, rfl, rfl, rfl⟩
  obtain ⟨stays, -⟩ :=
    final calm [] ⟨.connected, calm⟩ u v (by simp) (fun call => call) ran stepped
  rw [stays up] at down
  cases down

/-! ### Established sessions -/

/-- No retry is pending: the timer has no event. -/
structure NothingPending (c : Client) : Prop where
  timer : c.reconnectTimer = none
  idle : c.isReconnecting = false
  never_fires : ∀ out, step c ⟨.timerFired, out⟩ = none

/-- A call that connects comes when no retry is pending, and drops no connection for which
one would be scheduled. -/
def ConnectsClear (c : Client) (e : Event) : Prop :=
  e.action.IsConnectCall → c.reconnectTimer = none ∧ ¬ (c.Established ∧ c.Retries)

/-- The timer is armed only without an attempt and without a connection. -/
def Clear (c : Client) : Prop := c.socket ≠ .unconnected → c.reconnectTimer = none

theorem clear_of_unconnected (idle : c.socket = .unconnected) : Clear c :=
  fun busy => absurd idle busy

theorem clear_onDisconnected (out : Outside) (idle : c.socket = .unconnected) :
    Clear (onDisconnected out c) := clear_of_unconnected (by simp [idle])

theorem clear_connectToHost (timer : c.reconnectTimer = none)
    (drops : ¬ (c.Established ∧ c.Retries)) (host : QString) (port : UInt16) (password : QString) :
    Clear (connectToHost out host port password c) := by
  intro _
  rw [connectToHost_eq]
  by_cases up : c.Established
  · have stays : ¬ c.Retries := fun retries => drops ⟨up, retries⟩
    simp [socketAbort_established up, stays, timer]
  · simp [socketAbort_down up, timer]

theorem clear_step {e : Event} (stepped : step c e = some d) (ok : Sound c) (clear : Clear c)
    (connects : ConnectsClear c e) : Clear d := by
  obtain ⟨action, out⟩ := e
  cases action with
  | connectToHost host port password =>
    obtain ⟨timer, drops⟩ := connects trivial
    exact Option.some.inj stepped ▸ clear_connectToHost timer drops host port password
  | connectByP2PId id password =>
    obtain ⟨timer, drops⟩ := connects trivial
    obtain rfl := Option.some.inj stepped
    exact @clear_connectToHost (c.setTarget (deskLabel id)) out timer drops localHost 18443 password
  | disconnectFromHost =>
    refine fun _ => ((ok.step stepped).stopped ?_).2
    obtain rfl := Option.some.inj stepped
    simp [disconnectFromHost]
  | cancelReconnect =>
    obtain rfl := Option.some.inj stepped
    exact fun _ => rfl
  | connected =>
    obtain ⟨⟨pendingClose, here⟩, rfl | rfl⟩ := step_connected stepped
    · exact fun _ => clear (by simp [here])
    · have timer : (onConnected out (c.setSocket .connected)).reconnectTimer = none :=
        clear (by simp [here])
      obtain ⟨-, same⟩ | ⟨-, same⟩ | ⟨-, same | same⟩ := socketDisconnectFromHost_cases out
        (onConnected out (c.setSocket .connected)) <;> simp only [same]
      · exact fun _ => timer
      · exact fun _ => timer
      · exact fun _ => timer
      · exact clear_onDisconnected out rfl
  | attemptFailed =>
    obtain ⟨-, rfl⟩ := step_attemptFailed stepped
    exact clear_of_unconnected rfl
  | connectionLost =>
    obtain ⟨-, rfl⟩ := step_connectionLost stepped
    exact clear_onDisconnected out rfl
  | closed =>
    obtain ⟨-, rfl⟩ := step_closed stepped
    exact clear_onDisconnected out rfl
  | timerFired =>
    obtain ⟨-, rfl⟩ := step_timerFired stepped
    obtain ⟨-, same⟩ | ⟨-, -, ⟨-, same⟩ | ⟨-, same⟩⟩ :=
      attemptReconnect_cases out { c with reconnectTimer := none } <;>
      simp only [same] <;> exact fun _ => rfl

theorem established_has_nothing_pending {history : List HistoryRecord} {events : List Event}
    (clear : Transitions.Throughout step ConnectsClear (start history) events)
    (ran : run (start history) events = some c) (connected : c.isConnected = true) :
    NothingPending c := by
  obtain ⟨ok, quiet⟩ : Sound c ∧ Clear c := by
    refine clear.invariant (fun c => Sound c ∧ Clear c) ran ⟨.start history, fun _ => rfl⟩ ?_
    rintro c d e connects stepped ⟨ok, quiet⟩
    exact ⟨ok.step stepped, clear_step stepped ok quiet connects⟩
  have up := ok.connected connected
  have timer : c.reconnectTimer = none := by
    refine quiet fun idle => ?_
    simp [Client.Established, idle] at up
  exact ⟨timer, (ok.fresh up).1, fun out => by simp [step, timer]⟩

theorem established_has_nothing_pending_local :
    ∃ c, run (start []) localSession = some c ∧ NothingPending c := by
  obtain ⟨c, ran, connected⟩ : ∃ c, run (start []) localSession = some c ∧ c.isConnected = true :=
    ⟨_, rfl, rfl⟩
  refine ⟨c, ran, established_has_nothing_pending ?_ ran connected⟩
  refine Transitions.throughout_cons (fun _ => ⟨rfl, ?_⟩) fun s _ =>
    Transitions.throughout_cons (fun call => call.elim) fun s _ => Transitions.throughout_nil
  rintro ⟨here | here, -⟩ <;> cases here

/-- The user connects somewhere else while a connection is up. -/
theorem switching_leaves_the_timer_armed :
    ∃ c, run (start []) (localSession ++ [⟨.connectToHost localHost 18444 [], calm⟩,
        ⟨.connected, calm⟩]) = some c ∧
      c.isConnected = true ∧ ¬ NothingPending c := by
  obtain ⟨c, ran, connected, timer⟩ : ∃ c,
      run (start []) (localSession ++ [⟨.connectToHost localHost 18444 [], calm⟩,
        ⟨.connected, calm⟩]) = some c ∧ c.isConnected = true ∧ c.reconnectTimer = some 1000 :=
    ⟨_, rfl, rfl, rfl⟩
  refine ⟨c, ran, connected, fun pending => ?_⟩
  rw [pending.timer] at timer
  cases timer

end RemoteAccess.ReconnectRuns

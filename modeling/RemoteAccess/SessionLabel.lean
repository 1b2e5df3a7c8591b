import RemoteAccess.Basics.History
import RemoteAccess.ReconnectRuns

/-! Which host the client names: in `lastConnectedTarget_` and in the records of its
connection history, against the call that opened the connection. -/

namespace RemoteAccess.SessionLabel

open QtText SessionConnection ReconnectRuns

variable {c d : Client} {out : Outside} {called : Option QString}

def label : Action → Option QString
  | .connectToHost host port _ => some (directLabel host port)
  | .connectByP2PId p2pIdInput _ => some (deskLabel p2pIdInput)
  | _ => none

/-- The latest such call; retries go to the same host. -/
def calledLabel (events : List Event) : Option QString :=
  History.latest (fun e => label e.action) events

theorem calledLabel_concat (events : List Event) (e : Event) :
    calledLabel (events ++ [e]) = (label e.action).or (calledLabel events) := by
  rw [calledLabel, History.latest_append, calledLabel]
  congr 1
  cases h : label e.action <;> simp [History.latest, h]

/-- The label of the latest call is there whenever a connection is up or on its way, or a
retry is going to open one. -/
structure Named (called : Option QString) (c : Client) : Prop where
  known : c.lastConnectedTarget = [] ∨ called = some c.lastConnectedTarget
  opened : c.Connecting ∨ c.isConnected = true ∨
    (c.Established ∧ c.userInitiatedDisconnect = false) → called = some c.lastConnectedTarget
  armed : c.reconnectTimer ≠ none → c.lastHost ≠ [] → called = some c.lastConnectedTarget

theorem Named.while_up (named : Named called c) (connected : c.isConnected = true) :
    called = some c.lastConnectedTarget :=
  named.opened (.inr (.inl connected))

theorem Named.of_eq (same : called = some c.lastConnectedTarget) : Named called c :=
  ⟨.inr same, fun _ => same, fun _ _ => same⟩

/-- What a step adds to the history names the host of the latest call. -/
def Recorded (called : Option QString) (c d : Client) : Prop :=
  d.connectionHistory = c.connectionHistory ∨
    ∃ record, d.connectionHistory = (record :: c.connectionHistory).take 50 ∧
      called = some record.target

/-- The calls after which the label is that of the call: a direct one when there is none or
the same, or a connection is dropped for good; one by id when no connection is up, or the
one that is dropped had the same label; and a cancellation without a connection. -/
def LabelFits (c : Client) (e : Event) : Prop :=
  match e.action with
  | .connectToHost host port _ => c.lastConnectedTarget = [] ∨
      c.lastConnectedTarget = directLabel host port ∨ (c.Established ∧ ¬ c.Retries)
  | .connectByP2PId p2pIdInput _ => ¬ c.Established ∨
      (c.Retries ∧ (c.isConnected = false ∨ c.lastConnectedTarget = deskLabel p2pIdInput))
  | .cancelReconnect => c.socket = .unconnected ∨ (c.Established ∧ c.isConnected = false)
  | _ => True

/-! ### One step -/

theorem recorded_onDisconnected (out : Outside)
    (named : c.isConnected = true → called = some c.lastConnectedTarget) :
    Recorded called c (onDisconnected out (c.setSocket .unconnected)) := by
  unfold Recorded
  rw [onDisconnected_connectionHistory]
  split
  · next both => exact .inr ⟨_, rfl, named both.1⟩
  · exact .inl rfl

theorem named_onDisconnected (ok : Sound c) (up : c.Established) (named : Named called c)
    (out : Outside) : Named called (onDisconnected out (c.setSocket .unconnected)) := by
  by_cases retries : c.Retries
  · have kept : (onDisconnected out (c.setSocket .unconnected)).lastConnectedTarget =
        c.lastConnectedTarget := by
      simp [retries]
    exact .of_eq (kept.symm ▸ named.opened (.inr (.inr ⟨up, retries.1⟩)))
  · have gone : (onDisconnected out (c.setSocket .unconnected)).lastConnectedTarget = [] := by
      simp [retries]
    refine ⟨.inl gone, ?_, ?_⟩
    · simp [Client.Connecting, Client.Established]
    · intro armed host
      simp only [onDisconnected_lastHost, setSocket_lastHost] at host
      simp only [onDisconnected_reconnectTimer, setSocket_retries, retries, if_false,
        setSocket_reconnectTimer] at armed
      refine absurd ⟨?_, host, by simp [(ok.fresh up).2, maxReconnectAttempts]⟩ retries
      exact Bool.eq_false_iff.mpr fun user => armed (ok.stopped user).2

theorem recorded_socketAbort (out : Outside)
    (named : c.isConnected = true → called = some c.lastConnectedTarget) :
    Recorded called c (socketAbort out c) := by
  by_cases up : c.Established
  · rw [socketAbort_established up]
    exact recorded_onDisconnected out named
  · rw [socketAbort_down up]
    exact .inl rfl

theorem connectToHost_lastConnectedTarget (host : QString) (port : UInt16) (password : QString) :
    (connectToHost out host port password c).lastConnectedTarget =
      if c.lastConnectedTarget = [] ∨ (c.Established ∧ ¬ c.Retries) then directLabel host port
      else c.lastConnectedTarget := by
  rw [connectToHost_eq]
  by_cases up : c.Established
  · by_cases retries : c.Retries <;> simp [socketAbort_established up, up, retries]
  · simp [socketAbort_down up, up]

theorem named_connectToHost {host : QString} {port : UInt16} {label : QString}
    (fits : label = if c.lastConnectedTarget = [] ∨ (c.Established ∧ ¬ c.Retries) then
      directLabel host port else c.lastConnectedTarget) (out : Outside) (password : QString) :
    Named (some label) (connectToHost out host port password c) :=
  .of_eq (by rw [connectToHost_lastConnectedTarget, fits])

theorem named_stopReconnecting (named : Named called c) : Named called c.stopReconnecting where
  known := named.known
  opened := by
    rintro (connecting | connected | ⟨-, user⟩)
    · exact named.opened (.inl connecting)
    · exact named.while_up connected
    · cases user
  armed armed := absurd rfl armed

theorem named_socketDisconnectFromHost (ok : Sound c) (named : Named called c) (out : Outside) :
    Named called (socketDisconnectFromHost out c) ∧
      Recorded called c (socketDisconnectFromHost out c) := by
  obtain ⟨-, same⟩ | ⟨connecting, same⟩ | ⟨up, same | same⟩ :=
    socketDisconnectFromHost_cases out c <;> rw [same]
  · exact ⟨named, .inl rfl⟩
  · exact ⟨.of_eq (named.opened (.inl connecting)), .inl rfl⟩
  · refine ⟨⟨named.known, ?_, named.armed⟩, .inl rfl⟩
    rintro (⟨pendingClose, here⟩ | connected | ⟨-, user⟩)
    · cases here
    · exact named.while_up connected
    · exact named.opened (.inr (.inr ⟨up, user⟩))
  · exact ⟨named_onDisconnected ok up named out,
      recorded_onDisconnected out named.while_up⟩

theorem named_onErrorOccurred (named : Named called c) (errorString : QString) :
    Named called (onErrorOccurred errorString c) where
  known := named.known
  opened := by
    rintro (connecting | connected | up)
    · exact named.opened (.inl connecting)
    · cases connected
    · exact named.opened (.inr (.inr up))
  armed := named.armed

theorem named_cancelReconnect (ok : Sound c)
    (fits : c.socket = .unconnected ∨ (c.Established ∧ c.isConnected = false)) :
    Named called (cancelReconnect c) := by
  refine ⟨.inl rfl, ?_, fun armed => absurd rfl armed⟩
  rintro (connecting | connected | ⟨-, user⟩)
  · obtain idle | ⟨up, -⟩ := fits
    · obtain ⟨pendingClose, here⟩ := connecting
      cases idle.symm.trans here
    · exact absurd up (not_established_of_connecting connecting)
  · obtain idle | ⟨-, down⟩ := fits
    · have up := ok.connected connected
      simp [Client.Established, idle] at up
    · cases down.symm.trans connected
  · cases user

theorem named_connectByP2PId {id : QString} (ok : Sound c) (named : Named called c)
    (fits : ¬ c.Established ∨
      (c.Retries ∧ (c.isConnected = false ∨ c.lastConnectedTarget = deskLabel id)))
    (out : Outside) (password : QString) :
    Named (some (deskLabel id)) (connectByP2PId out id password c) ∧
      Recorded called c (connectByP2PId out id password c) := by
  constructor
  · refine named_connectToHost ?_ out password
    rw [if_neg]
    · rfl
    · rintro (empty | ⟨up, drops⟩)
      · exact deskLabel_ne_nil id empty
      · exact fits.elim (fun down => down up) fun ⟨retries, _⟩ => drops retries
  · rw [Recorded, connectByP2PId, connectToHost_connectionHistory]
    refine @recorded_socketAbort (c.setTarget (deskLabel id)) called out fun connected => ?_
    obtain down | ⟨-, closing | same⟩ := fits
    · exact absurd (ok.connected connected) down
    · cases closing.symm.trans connected
    · exact same ▸ named.while_up connected

theorem named_step {e : Event} (stepped : step c e = some d) (ok : Sound c)
    (named : Named called c) (fits : LabelFits c e) :
    Named ((label e.action).or called) d ∧ Recorded called c d := by
  obtain ⟨action, out⟩ := e
  cases action with
  | connectToHost host port password =>
    obtain rfl := Option.some.inj stepped
    constructor
    · refine named_connectToHost ?_ out password
      split
      · rfl
      · next kept =>
        obtain ⟨some_label, stays⟩ := not_or.mp kept
        exact (fits.resolve_left some_label).elim Eq.symm fun drops => absurd drops stays
    · rw [Recorded, connectToHost_connectionHistory]
      exact recorded_socketAbort out named.while_up
  | connectByP2PId id password =>
    obtain rfl := Option.some.inj stepped
    exact named_connectByP2PId ok named fits out password
  | disconnectFromHost =>
    obtain rfl := Option.some.inj stepped
    exact named_socketDisconnectFromHost ok.stopReconnecting (named_stopReconnecting named) out
  | cancelReconnect =>
    obtain rfl := Option.some.inj stepped
    exact ⟨named_cancelReconnect ok fits, .inl rfl⟩
  | connected =>
    obtain ⟨connecting, ended⟩ := step_connected stepped
    have opened : Named called (onConnected out (c.setSocket .connected)) :=
      .of_eq (named.opened (.inl connecting))
    obtain rfl | rfl := ended
    · exact ⟨opened, .inl rfl⟩
    · exact named_socketDisconnectFromHost (ok.onConnected out) opened out
  | attemptFailed =>
    obtain ⟨connecting, rfl⟩ := step_attemptFailed stepped
    exact ⟨.of_eq (named.opened (.inl connecting)), .inl rfl⟩
  | connectionLost =>
    obtain ⟨up, rfl⟩ := step_connectionLost stepped
    have failed := named_onErrorOccurred named out.errorString
    refine ⟨named_onDisconnected (ok.onErrorOccurred out.errorString) up failed out, ?_⟩
    exact @recorded_onDisconnected (onErrorOccurred out.errorString c) called out failed.while_up
  | closed =>
    obtain ⟨up, rfl⟩ := step_closed stepped
    exact ⟨named_onDisconnected ok up named out, recorded_onDisconnected out named.while_up⟩
  | timerFired =>
    obtain ⟨armed, rfl⟩ := step_timerFired stepped
    obtain ⟨-, same⟩ | ⟨-, host, ⟨-, same⟩ | ⟨-, same⟩⟩ :=
      attemptReconnect_cases out { c with reconnectTimer := none } <;> simp only [same]
    · exact ⟨⟨named.known, named.opened, fun again => absurd rfl again⟩, .inl rfl⟩
    · exact ⟨.of_eq (named.armed armed host), .inl rfl⟩
    · exact ⟨.of_eq (named.armed armed host), .inl rfl⟩

/-! ### Every run -/

theorem session_is_labelled {history : List HistoryRecord} {events : List Event}
    (fits : Transitions.Throughout step LabelFits (start history) events)
    (ran : run (start history) events = some c) :
    (c.isConnected = true → calledLabel events = some c.lastConnectedTarget) ∧
    ∀ before e after s d, events = before ++ e :: after →
      run (start history) before = some s → step s e = some d →
      Recorded (calledLabel before) s d := by
  have always : ∀ {events : List Event} {c : Client},
      Transitions.Throughout step LabelFits (start history) events →
      run (start history) events = some c → Sound c ∧ Named (calledLabel events) c := by
    intro events c fits ran
    refine fits.history_invariant (fun events c => Sound c ∧ Named (calledLabel events) c) ran
      ⟨.start history, ⟨.inl rfl, ?_, fun armed => absurd rfl armed⟩⟩ ?_
    · rintro (⟨pendingClose, here⟩ | connected | ⟨here | here, -⟩)
      · cases here
      · cases connected
      · cases here
      · cases here
    · rintro before s d e fits stepped ⟨ok, named⟩
      rw [calledLabel_concat]
      exact ⟨ok.step stepped, (named_step stepped ok named fits).1⟩
  refine ⟨(always fits ran).2.while_up, ?_⟩
  rintro before e after s d rfl reached stepped
  obtain ⟨ok, named⟩ := always fits.left reached
  exact (named_step stepped ok named (fits before e after s rfl reached)).2

/-- The user hangs up, and the session is recorded under its label. -/
theorem session_is_labelled_ended :
    ∃ c record, run (start []) (localSession ++ [⟨.disconnectFromHost, calm⟩]) = some c ∧
      c.connectionHistory = [record] ∧ record.target = directLabel localHost 18443 ∧
      (c.isConnected = true → calledLabel (localSession ++ [⟨.disconnectFromHost, calm⟩]) =
        some c.lastConnectedTarget) ∧
      ∀ before e after s d, localSession ++ [⟨.disconnectFromHost, calm⟩] = before ++ e :: after →
        run (start []) before = some s → step s e = some d →
        Recorded (calledLabel before) s d := by
  obtain ⟨c, record, ran, recorded, label⟩ : ∃ c record,
      run (start []) (localSession ++ [⟨.disconnectFromHost, calm⟩]) = some c ∧
        c.connectionHistory = [record] ∧ record.target = directLabel localHost 18443 :=
    ⟨_, _, rfl, rfl, rfl⟩
  refine ⟨c, record, ran, recorded, label, session_is_labelled ?_ ran⟩
  exact Transitions.throughout_cons (.inl rfl) fun s _ =>
    Transitions.throughout_cons trivial fun s _ =>
      Transitions.throughout_cons trivial fun s _ => Transitions.throughout_nil

/-- The user tries another port after a failed attempt. -/
theorem second_attempt_keeps_the_first_label :
    ∃ c, run (start []) [⟨.connectToHost localHost 18443 [], calm⟩, ⟨.attemptFailed, calm⟩,
        ⟨.connectToHost localHost 18444 [], calm⟩, ⟨.connected, calm⟩] = some c ∧
      c.isConnected = true ∧
      calledLabel [⟨.connectToHost localHost 18443 [], calm⟩, ⟨.attemptFailed, calm⟩,
        ⟨.connectToHost localHost 18444 [], calm⟩, ⟨.connected, calm⟩] ≠
          some c.lastConnectedTarget := by
  obtain ⟨c, ran, connected, label⟩ : ∃ c,
      run (start []) [⟨.connectToHost localHost 18443 [], calm⟩, ⟨.attemptFailed, calm⟩,
        ⟨.connectToHost localHost 18444 [], calm⟩, ⟨.connected, calm⟩] = some c ∧
      c.isConnected = true ∧ c.lastConnectedTarget = directLabel localHost 18443 :=
    ⟨_, rfl, rfl, rfl⟩
  refine ⟨c, ran, connected, ?_⟩
  rw [label]
  decide

end RemoteAccess.SessionLabel

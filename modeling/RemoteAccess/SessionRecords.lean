import RemoteAccess.ClientActivity

/-! The records of the connection history: whether each established connection that ends is
recorded once, who ended it, and how long it was there. -/

namespace RemoteAccess.SessionRecords

open QtText ReconnectRuns ClientActivity
open SessionConnection hiding start step run

variable {a b : Activity} {c d : Client} {out : Outside} {before : List Input} {input : Input}

/-! ### What a run says about its sessions -/

/-- When the connection that is there was established, by the clock. -/
def establishedAt (inputs : List Input) : Option Int :=
  History.latest (fun input =>
    match input with
    | .connection ⟨.connected, out⟩ => some out.nowMs
    | _ => none) inputs

def userCommand : Input → Option Bool
  | .connection ⟨.disconnectFromHost, _⟩ => some true
  | .connection ⟨.connectToHost .., _⟩ | .connection ⟨.connectByP2PId .., _⟩ => some false
  | _ => none

/-- The user has disconnected since the latest call that connects. -/
def UserDisconnected (inputs : List Input) : Prop := History.latest userCommand inputs = some true

/-- The user ends a connection by disconnecting, now or before, and by connecting elsewhere. -/
def UserEnds (before : List Input) (input : Input) : Prop :=
  (userCommand input).isSome ∨ UserDisconnected before

def Ends (input : Input) (c d : Client) : Prop :=
  ¬ d.Established ∧ (c.Established ∨ ∃ out, input = .connection ⟨.connected, out⟩)

def nowMs : Input → Option Int
  | .connection e => some e.out.nowMs
  | .passwordRejected out => some out.nowMs
  | _ => none

def userInitiated : QString :=
  literal ['U', 's', 'e', 'r', ' ', 'I', 'n', 'i', 't', 'i', 'a', 't', 'e', 'd']

/-- The record of the connection that an input ends. -/
def IsRecordOf (before : List Input) (input : Input) (record : HistoryRecord) : Prop :=
  (record.reason = userInitiated ↔ UserEnds before input) ∧
    ∃ established now, establishedAt (before ++ [input]) = some established ∧
      nowMs input = some now ∧
      record.duration = durationText (max 0 ((now - established).tdiv 1000))

/-- One record more if a connection ends, and none otherwise. -/
structure RecordedOnce (before : List Input) (input : Input) (c d : Client) : Prop where
  ended : Ends input c d → ∃ record, IsRecordOf before input record ∧
    d.connectionHistory = (record :: c.connectionHistory).take 50
  otherwise : ¬ Ends input c d → d.connectionHistory = c.connectionHistory ∨
    (input = .clearConnectionHistory ∧ d.connectionHistory = [])

/-- The client still counts as connected, and has a label for the record. -/
def Recordable (c : Client) : Prop := c.isConnected = true ∧ c.lastConnectedTarget ≠ []

/-- No connection is lost or refused; the user disconnects before connecting elsewhere; and
a connection that ends is recordable then. The clock is past its epoch. -/
def EndsRecorded (a : Activity) : Input → Prop
  | .connection e =>
    match e.action with
    | .connectToHost .. => a.client.Established →
        Recordable a.client ∧ a.client.userInitiatedDisconnect = true
    | .connectByP2PId .. => a.client.Established →
        a.client.isConnected = true ∧ a.client.userInitiatedDisconnect = true
    | .disconnectFromHost => a.client.Established → e.out.dataPending = true ∨ Recordable a.client
    | .connected => 0 < e.out.nowMs ∧ (a.client.socket = .connecting true →
        e.out.dataPending = true ∨ a.client.lastConnectedTarget ≠ [])
    | .connectionLost => False
    | .closed => Recordable a.client
    | _ => True
  | .passwordRejected out => a.client.socket = .closing ∧
      (out.dataPending = true ∨ Recordable a.client)
  | _ => True

/-! ### What the runs keep -/

structure Kept (before : List Input) (c : Client) : Prop extends Sound c where
  told : c.socket = .closing ∨ c.socket = .connecting true →
    c.userInitiatedDisconnect = true ∧ UserDisconnected before
  began : c.Established → establishedAt before = some c.sessionStartTimeMs ∧
    0 < c.sessionStartTimeMs

theorem establishedAt_concat (before : List Input) (input : Input)
    (other : ∀ out, input ≠ .connection ⟨.connected, out⟩) :
    establishedAt (before ++ [input]) = establishedAt before := by
  refine History.latest_append_quiet fun found member => ?_
  rw [List.mem_singleton.mp member]
  split
  · next out => exact absurd rfl (other out)
  · rfl

theorem establishedAt_connected (before : List Input) (out : Outside) :
    establishedAt (before ++ [.connection ⟨.connected, out⟩]) = some out.nowMs :=
  History.latest_append_cons rfl (by simp)

theorem userDisconnected_concat (disconnected : UserDisconnected before)
    (other : userCommand input = none) : UserDisconnected (before ++ [input]) := by
  rw [UserDisconnected, History.latest_append_quiet]
  · exact disconnected
  · simpa using other

theorem reason_of_user (user : c.userInitiatedDisconnect = true) : c.reason = userInitiated :=
  if_pos user

theorem recorded_onDisconnected (ready : Recordable c) (user : c.userInitiatedDisconnect = true)
    (began : 0 < c.sessionStartTimeMs) (out : Outside) :
    ∃ record : HistoryRecord, record.reason = userInitiated ∧
      record.duration = durationText (max 0 ((out.nowMs - c.sessionStartTimeMs).tdiv 1000)) ∧
      (onDisconnected out (c.setSocket .unconnected)).connectionHistory =
        (record :: c.connectionHistory).take 50 := by
  have both : (c.setSocket .unconnected).isConnected = true ∧
      (c.setSocket .unconnected).lastConnectedTarget ≠ [] := ready
  have duration : (c.setSocket .unconnected).durationSec out =
      max 0 ((out.nowMs - c.sessionStartTimeMs).tdiv 1000) := if_pos began
  rw [onDisconnected_connectionHistory, if_pos both, duration]
  exact ⟨_, reason_of_user user, rfl, rfl⟩

theorem recorded_ending {c₀ : Client} (same : c₀.connectionHistory = c.connectionHistory)
    (was : c.Established ∨ ∃ out, input = .connection ⟨.connected, out⟩)
    (since : establishedAt (before ++ [input]) = some c₀.sessionStartTimeMs)
    (positive : 0 < c₀.sessionStartTimeMs) (now : nowMs input = some out.nowMs)
    (user : c₀.userInitiatedDisconnect = true) (ends : UserEnds before input)
    (ready : Recordable c₀) (gone : ¬ d.Established)
    (history : d.connectionHistory =
      (onDisconnected out (c₀.setSocket .unconnected)).connectionHistory) :
    RecordedOnce before input c d where
  ended _ := by
    obtain ⟨record, reason, duration, added⟩ := recorded_onDisconnected ready user positive out
    refine ⟨record, ⟨iff_of_true reason ends, _, _, since, now, duration⟩, ?_⟩
    rw [history, added, same]
  otherwise goes_on := absurd ⟨gone, was⟩ goes_on

theorem recorded_same (goes_on : c.Established → d.Established)
    (other : ∀ out, input ≠ .connection ⟨.connected, out⟩)
    (same : d.connectionHistory = c.connectionHistory) : RecordedOnce before input c d where
  ended finished := by
    obtain ⟨gone, up | ⟨out, connected⟩⟩ := finished
    · exact absurd (goes_on up) gone
    · exact absurd connected (other out)
  otherwise _ := .inl same

/-! ### One step -/

theorem kept_closing {c₀ : Client} (ok : Sound c₀) (up : c₀.Established)
    (same : c₀.connectionHistory = c.connectionHistory)
    (was : c.Established ∨ ∃ out, input = .connection ⟨.connected, out⟩)
    (since : establishedAt (before ++ [input]) = some c₀.sessionStartTimeMs)
    (positive : 0 < c₀.sessionStartTimeMs) (now : nowMs input = some out.nowMs)
    (user : c₀.userInitiatedDisconnect = true) (ends : UserEnds before input)
    (told : UserDisconnected (before ++ [input]))
    (fits : out.dataPending = true ∨ Recordable c₀) :
    Kept (before ++ [input]) (socketDisconnectFromHost out c₀) ∧
      RecordedOnce before input c (socketDisconnectFromHost out c₀) := by
  have sound := ok.socketDisconnectFromHost out
  rw [socketDisconnectFromHost_established up] at sound ⊢
  split_ifs at sound ⊢ with pending
  · have closing : (c₀.setSocket .closing).Established := .inr rfl
    exact ⟨⟨sound, fun _ => ⟨user, told⟩, fun _ => ⟨since, positive⟩⟩,
      fun finished => absurd closing finished.1, fun _ => .inl same⟩
  · have gone : ¬ (onDisconnected out (c₀.setSocket .unconnected)).Established := by
      simp [Client.Established]
    have ready := fits.resolve_left pending
    exact ⟨⟨sound, by simp, fun up => absurd up gone⟩,
      recorded_ending same was since positive now user ends ready gone rfl⟩

theorem kept_connectToHost (kept : Kept before c) (host : QString) (port : UInt16)
    (password : QString) (call : userCommand input = some false)
    (now : nowMs input = some out.nowMs)
    (fits : c.Established → Recordable c ∧ c.userInitiatedDisconnect = true) :
    Kept (before ++ [input]) (connectToHost out host port password c) ∧
      RecordedOnce before input c (connectToHost out host port password c) := by
  have idle : (connectToHost out host port password c).socket = .connecting false := by
    rw [connectToHost_eq]
  have gone := not_established_of_connecting_eq idle
  have other : ∀ out, input ≠ .connection ⟨.connected, out⟩ := by
    rintro out rfl
    cases call
  refine ⟨⟨kept.toSound.connectToHost out host port password, ?_, fun up => absurd up gone⟩, ?_⟩
  · simp [idle]
  · by_cases up : c.Established
    · obtain ⟨ready, user⟩ := fits up
      obtain ⟨since, positive⟩ := kept.began up
      rw [← establishedAt_concat before input other] at since
      refine recorded_ending rfl (.inl up) since positive now user (.inl (by simp [call])) ready
        gone ?_
      rw [connectToHost_connectionHistory, socketAbort_established up]
    · refine recorded_same (fun up' => absurd up' up) other ?_
      rw [connectToHost_connectionHistory, socketAbort_down up]
      rfl

theorem kept_of_same (kept : Kept before c) (sound : Sound d)
    (other : ∀ out, input ≠ .connection ⟨.connected, out⟩) (silent : userCommand input = none)
    (socket : d.socket = c.socket)
    (user : c.userInitiatedDisconnect = true → d.userInitiatedDisconnect = true)
    (time : d.sessionStartTimeMs = c.sessionStartTimeMs)
    (history : d.connectionHistory = c.connectionHistory) :
    Kept (before ++ [input]) d ∧ RecordedOnce before input c d := by
  have up_iff : d.Established ↔ c.Established := by
    rw [Client.Established, socket]
    rfl
  refine ⟨⟨sound, fun closing => ?_, ?_⟩, recorded_same up_iff.mpr other history⟩
  · obtain ⟨flag, told⟩ := kept.told (socket ▸ closing)
    exact ⟨user flag, userDisconnected_concat told silent⟩
  · rw [up_iff, time, establishedAt_concat before _ other]
    exact kept.began

theorem kept_disconnectFromHost (kept : Kept before c)
    (fits : c.Established → out.dataPending = true ∨ Recordable c) :
    Kept (before ++ [.connection ⟨.disconnectFromHost, out⟩]) (disconnectFromHost out c) ∧
      RecordedOnce before (.connection ⟨.disconnectFromHost, out⟩) c
        (disconnectFromHost out c) := by
  have stopped := kept.toSound.stopReconnecting
  have told : UserDisconnected (before ++ [.connection ⟨.disconnectFromHost, out⟩]) :=
    History.latest_append_cons rfl (by simp)
  have other : ∀ out', Input.connection ⟨.disconnectFromHost, out⟩ ≠
      .connection ⟨.connected, out'⟩ := fun _ same => by cases same
  by_cases up : c.Established
  · obtain ⟨since, positive⟩ := kept.began up
    rw [← establishedAt_concat before _ other] at since
    exact @kept_closing c out before (.connection ⟨.disconnectFromHost, out⟩) c.stopReconnecting
      stopped up rfl (.inl up) since positive rfl rfl (.inl rfl) told (fits up)
  · have sound : Sound (disconnectFromHost out c) := stopped.socketDisconnectFromHost out
    have user : (disconnectFromHost out c).userInitiatedDisconnect = true := by
      simp [disconnectFromHost]
    obtain ⟨gone, history⟩ : ¬ (disconnectFromHost out c).Established ∧
        (disconnectFromHost out c).connectionHistory = c.connectionHistory := by
      rw [disconnectFromHost]
      obtain ⟨-, same⟩ | ⟨-, same⟩ | ⟨up', -⟩ :=
        socketDisconnectFromHost_cases out c.stopReconnecting
      · rw [same]
        exact ⟨up, rfl⟩
      · rw [same]
        exact ⟨not_established_of_connecting_eq rfl, rfl⟩
      · exact absurd up' up
    exact ⟨⟨sound, fun _ => ⟨user, told⟩, fun up => absurd up gone⟩,
      recorded_same (fun up' => absurd up' up) other history⟩

theorem kept_connected (kept : Kept before c)
    (moved : SessionConnection.step c ⟨.connected, out⟩ = some d) (positive : 0 < out.nowMs)
    (fits : c.socket = .connecting true →
      out.dataPending = true ∨ c.lastConnectedTarget ≠ []) :
    Kept (before ++ [.connection ⟨.connected, out⟩]) d ∧
      RecordedOnce before (.connection ⟨.connected, out⟩) c d := by
  have since := establishedAt_connected before out
  have opened := kept.toSound.onConnected out
  simp only [SessionConnection.step] at moved
  split at moved
  · obtain rfl := Option.some.inj moved
    have up : (onConnected out (c.setSocket .connected)).Established := .inl rfl
    exact ⟨⟨opened, by simp [onConnected], fun _ => ⟨since, positive⟩⟩,
      fun finished => absurd up finished.1, fun _ => .inl rfl⟩
  · next here =>
    obtain rfl := Option.some.inj moved
    obtain ⟨user, told⟩ := kept.told (.inr here)
    have ready : out.dataPending = true ∨
        Recordable (onConnected out (c.setSocket .connected)) :=
      (fits here).imp_right fun label => ⟨rfl, label⟩
    exact kept_closing opened (.inl rfl) rfl (.inr ⟨out, rfl⟩) since positive rfl user (.inr told)
      (userDisconnected_concat told rfl) ready
  · cases moved

theorem kept_closed (kept : Kept before c)
    (moved : SessionConnection.step c ⟨.closed, out⟩ = some d) (fits : Recordable c) :
    Kept (before ++ [.connection ⟨.closed, out⟩]) d ∧
      RecordedOnce before (.connection ⟨.closed, out⟩) c d := by
  have sound := kept.toSound.step moved
  simp only [SessionConnection.step] at moved
  split at moved
  · next here =>
    obtain rfl := Option.some.inj moved
    obtain ⟨user, told⟩ := kept.told (.inl here)
    have up : c.Established := .inr here
    obtain ⟨since, positive⟩ := kept.began up
    rw [← establishedAt_concat before (.connection ⟨.closed, out⟩) fun _ same => by cases same]
      at since
    exact ⟨⟨sound, by simp, by simp [Client.Established]⟩,
      recorded_ending rfl (.inl up) since positive rfl user (.inr told) fits
        (by simp [Client.Established]) rfl⟩
  · cases moved

theorem kept_connection {e : Event} (kept : Kept before a.client)
    (moved : SessionConnection.step a.client e = some d) (fits : EndsRecorded a (.connection e)) :
    Kept (before ++ [.connection e]) d ∧ RecordedOnce before (.connection e) a.client d := by
  have sound := kept.toSound.step moved
  obtain ⟨action, out⟩ := e
  cases action with
  | connectToHost host port password =>
    obtain rfl := Option.some.inj moved
    exact kept_connectToHost kept host port password rfl rfl fits
  | connectByP2PId id password =>
    obtain rfl := Option.some.inj moved
    have named : Kept before (a.client.setTarget (deskLabel id)) :=
      ⟨⟨kept.connected, kept.fresh, kept.stopped⟩, kept.told, kept.began⟩
    obtain ⟨after, recorded⟩ := @kept_connectToHost _ out before
      (.connection ⟨.connectByP2PId id password, out⟩) named localHost 18443 password rfl rfl
      fun up => ⟨⟨(fits up).1, deskLabel_ne_nil id⟩, (fits up).2⟩
    exact ⟨after, recorded.ended, recorded.otherwise⟩
  | disconnectFromHost =>
    obtain rfl := Option.some.inj moved
    exact kept_disconnectFromHost kept fits
  | cancelReconnect =>
    obtain rfl := Option.some.inj moved
    exact kept_of_same kept sound (fun _ same => by cases same) rfl rfl (fun _ => rfl) rfl rfl
  | connected => exact kept_connected kept moved fits.1 fits.2
  | attemptFailed =>
    obtain ⟨connecting, rfl⟩ := step_attemptFailed moved
    have down := not_established_of_connecting connecting
    exact ⟨⟨sound, by simp [onErrorOccurred], by simp [Client.Established, onErrorOccurred]⟩,
      recorded_same (fun up => absurd up down) (fun _ same => by cases same) rfl⟩
  | connectionLost => exact fits.elim
  | closed => exact kept_closed kept moved fits
  | timerFired =>
    obtain ⟨-, fired⟩ := step_timerFired moved
    obtain ⟨-, same⟩ | ⟨-, -, ⟨idle, same⟩ | ⟨-, same⟩⟩ :=
      attemptReconnect_cases out { a.client with reconnectTimer := none } <;> rw [same] at fired
    · subst fired
      exact kept_of_same kept sound (fun _ same => by cases same) rfl rfl id rfl rfl
    · have down : ¬ a.client.Established := by
        rintro (up | up) <;> cases idle.symm.trans up
      have connecting : d.socket = .connecting false := by rw [fired]
      refine ⟨⟨sound, by simp [connecting], fun up => ?_⟩,
        recorded_same (fun up => absurd up down) (fun _ same => by cases same) (by rw [fired])⟩
      exact absurd up (not_established_of_connecting_eq connecting)
    · subst fired
      exact kept_of_same kept sound (fun _ same => by cases same) rfl rfl id rfl rfl

theorem kept_sends {packets : List SealedMessage.Plain} (kept : Kept before c)
    (sends : Sends packets c d) (silent : userCommand input = none)
    (other : ∀ out, input ≠ .connection ⟨.connected, out⟩) :
    Kept (before ++ [input]) d ∧ RecordedOnce before input c d := by
  obtain ⟨-, inputSequence, lastClipboardText, rfl⟩ := sends
  exact kept_of_same kept ⟨kept.connected, kept.fresh, kept.stopped⟩ other silent rfl id rfl rfl

theorem kept_step (kept : Kept before a.client) (stepped : step a input = some b)
    (fits : EndsRecorded a input) :
    Kept (before ++ [input]) b.client ∧ RecordedOnce before input a.client b.client := by
  cases input with
  | connection e =>
    obtain ⟨d, moved, rfl⟩ := step_connection stepped
    exact kept_connection kept moved fits
  | clearConnectionHistory =>
    obtain rfl := Option.some.inj stepped
    obtain ⟨⟨sound, told, began⟩, same⟩ :=
      @kept_sends a.client a.client before .clearConnectionHistory [] kept (.refl a.client) rfl
        nofun
    exact ⟨⟨⟨sound.connected, sound.fresh, sound.stopped⟩, told, began⟩,
      fun finished => absurd finished.2 (not_or.mpr ⟨finished.1, nofun⟩), fun _ => .inr ⟨rfl, rfl⟩⟩
  | passwordRejected out =>
    obtain ⟨up, rfl⟩ := step_passwordRejected stepped
    obtain ⟨closing, ready⟩ := fits
    obtain ⟨-, told⟩ := kept.told (.inl closing)
    obtain ⟨since, positive⟩ := kept.began up
    rw [← establishedAt_concat before (.passwordRejected out) nofun] at since
    have shown : Sound { a.client with statusText := .authenticationFailed } :=
      ⟨kept.connected, kept.fresh, kept.stopped⟩
    exact kept_closing shown.stopReconnecting up rfl (.inl up) since positive rfl rfl (.inr told)
      (userDisconnected_concat told rfl) ready
  | _ =>
    obtain ⟨packets, sends, -⟩ := sends_of_step stepped trivial
    exact kept_sends kept sends rfl nofun

/-! ### Every run -/

/-- In every run in which no connection is lost or refused, and so on, each connection that
ends is recorded once, under its user and with its time, and nothing else is. -/
theorem sessions_recorded_once {history : List HistoryRecord} {inputs : List Input}
    (fits : Transitions.Throughout step EndsRecorded (start history) inputs) :
    ∀ before input after s d, inputs = before ++ input :: after →
      run (start history) before = some s → step s input = some d →
      RecordedOnce before input s.client d.client := by
  rintro before input after s d rfl reached stepped
  have kept : Kept before s.client := by
    refine fits.left.history_invariant (fun before s => Kept before s.client) reached
      ⟨.start history, ?_, ?_⟩ fun fits stepped kept => (kept_step kept stepped fits).1
    · rintro (here | here) <;> cases here
    · rintro (here | here) <;> cases here
  exact (kept_step kept stepped (fits before input after s rfl reached)).2

theorem sessions_recorded_once_closed :
    ∃ a, run (start []) (opened ++ [.connection ⟨.disconnectFromHost, calm⟩]) = some a ∧
      ∀ before input after s d,
        opened ++ [.connection ⟨.disconnectFromHost, calm⟩] = before ++ input :: after →
        run (start []) before = some s → step s input = some d →
        RecordedOnce before input s.client d.client := by
  refine ⟨_, rfl, sessions_recorded_once ?_⟩
  refine Transitions.throughout_cons ?_ fun s first =>
    Transitions.throughout_cons ?_ fun t second =>
      Transitions.throughout_cons ?_ fun u third => Transitions.throughout_nil
  · rintro (up | up) <;> cases up
  · obtain rfl := Option.some.inj first
    exact ⟨by decide, nofun⟩
  · obtain rfl := Option.some.inj first
    obtain rfl := Option.some.inj second
    exact fun _ => .inr ⟨rfl, by decide⟩

/-- Whatever the client has recorded, a session that the network ends is not added. -/
theorem network_never_recorded
    (stepped : step a (.connection ⟨.connectionLost, out⟩) = some b) :
    b.client.connectionHistory = a.client.connectionHistory := by
  obtain ⟨d, moved, rfl⟩ := step_connection stepped
  obtain ⟨-, rfl⟩ := step_connectionLost moved
  rw [setClient_client, onDisconnected_connectionHistory, if_neg fun both => by cases both.1]
  rfl

/-- The network fails: the error is reported first, and the client counts as disconnected when
the record would be written. -/
theorem lost_session_is_not_recorded :
    ∃ s d, run (start []) opened = some s ∧
      step s (.connection ⟨.connectionLost, calm⟩) = some d ∧
      ¬ RecordedOnce opened (.connection ⟨.connectionLost, calm⟩) s.client d.client := by
  obtain ⟨s, d, ran, stepped, up, down, history, unchanged⟩ : ∃ s d,
      run (start []) opened = some s ∧ step s (.connection ⟨.connectionLost, calm⟩) = some d ∧
      s.client.socket = .connected ∧ d.client.socket = .unconnected ∧
      s.client.connectionHistory = [] ∧ d.client.connectionHistory = [] :=
    ⟨_, _, rfl, rfl, rfl, rfl, rfl, rfl⟩
  refine ⟨s, d, ran, stepped, fun recorded => ?_⟩
  have gone : ¬ d.client.Established := by simp [Client.Established, down]
  obtain ⟨record, -, added⟩ := recorded.ended ⟨gone, .inl (.inl up)⟩
  rw [history, unchanged] at added
  cases added

end RemoteAccess.SessionRecords

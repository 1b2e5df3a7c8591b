import RemoteAccess.ClientActivity

/-! Whether `privacyMode_` agrees with what the host of the current connection was told to
do with its screen. -/

namespace RemoteAccess.PrivacyMode

open LittleEndian SealedMessage ReconnectRuns ClientActivity
open SessionConnection hiding start step run

variable {a b : Activity} {c d : Client}

def screenAction (m : Plain) : Option Bool :=
  if m.type = .sessionControl then
    if m.plaintext = toBytes 4 4 then some true
    else if m.plaintext = toBytes 4 5 then some false
    else none
  else none

/-- The last such action written to the current connection. -/
def lastScreenAction (c : Client) : Option Bool :=
  History.latest screenAction (currentPackets c.effects)

/-- While the client is connected, the indicator is on if the host was told to blank its
screen last. -/
def Truthful (a : Activity) : Prop :=
  a.client.isConnected = true → (a.privacyMode = true ↔ lastScreenAction a.client = some true)

/-- The indicator is off when a connection is established, unless it is closed at once; it
is toggled on no connection that is closing; and an action sent otherwise agrees with it. -/
def PrivacyKept (a : Activity) : Input → Prop
  | .connection ⟨.connected, out⟩ => a.privacyMode = false ∨
      (a.client.socket = .connecting true ∧ out.dataPending = false)
  | .togglePrivacyMode => a.client.isConnected = true → a.client.socket = .connected
  | .sendSessionControlAction actionId => a.client.isConnected = true →
      a.client.socket = .connected → actionId = 4 ∨ actionId = 5 →
      (a.privacyMode = true ↔ actionId = 4)
  | _ => True

/-! ### One step -/

theorem screenAction_other {m : Plain} (other : m.type ≠ .sessionControl) :
    screenAction m = none := if_neg other

theorem screenAction_control {m : Plain} (type : m.type = .sessionControl) (actionId : UInt32)
    (plaintext : m.plaintext = toBytes 4 actionId.toNat) :
    screenAction m =
      if actionId = 4 then some true else if actionId = 5 then some false else none := by
  have same : ∀ other : UInt32, m.plaintext = toBytes 4 other.toNat ↔ actionId = other := by
    intro other
    rw [plaintext]
    refine ⟨fun bytes => ?_, fun same => by rw [same]⟩
    exact UInt32.toNat_inj.mp (toBytes_injective actionId.toNat_lt other.toNat_lt bytes)
  have four := same 4
  have five := same 5
  simp only [screenAction, type, if_true]
  split_ifs <;> simp_all

theorem lastScreenAction_of_sends {packets : List Plain} (sends : Sends packets c d)
    (others : ∀ m ∈ packets, m.type ≠ .sessionControl) :
    lastScreenAction d = lastScreenAction c := by
  obtain ⟨-, inputSequence, lastClipboardText, rfl⟩ := sends
  rw [lastScreenAction, currentPackets_writes]
  exact History.latest_append_quiet fun m member => screenAction_other (others m member)

theorem lastScreenAction_send (actionId : UInt32) (c : Client) :
    lastScreenAction (sendSessionControlAction actionId c) =
      if c.socket = .connected ∧ (actionId = 4 ∨ actionId = 5) then some (decide (actionId = 4))
      else lastScreenAction c := by
  by_cases up : c.socket = .connected
  · let m : Plain := ⟨.sessionControl, c.inputSequence + 1, 0, toBytes 4 actionId.toNat⟩
    have effects : (sendSessionControlAction actionId c).effects =
        c.effects ++ [m].map .write := by
      simp [sendSessionControlAction, perform, send, SessionSend.Call.perform,
        SessionSend.sendSessionControlAction, SessionSend.send, Client.sender, up, m]
    have said := @screenAction_control m rfl actionId rfl
    rw [lastScreenAction, effects, currentPackets_writes, History.latest_append]
    by_cases four : actionId = 4
    · simp [History.latest, said, up, four]
    · by_cases five : actionId = 5
      · simp [History.latest, said, up, five]
      · simp [History.latest, said, four, five, lastScreenAction]
  · have silent : (sendSessionControlAction actionId c).effects = c.effects := by
      simp [sendSessionControlAction, perform, send, SessionSend.Call.perform,
        SessionSend.sendSessionControlAction, Client.sender, up]
    rw [if_neg fun both => up both.1, lastScreenAction, silent, lastScreenAction]

theorem truthful_of_sends {packets : List Plain} (truthful : Truthful a)
    (sends : Sends packets a.client b.client) (mode : b.privacyMode = a.privacyMode)
    (others : ∀ m ∈ packets, m.type ≠ .sessionControl) : Truthful b := by
  intro connected
  rw [mode, lastScreenAction_of_sends sends others]
  exact truthful (sends.isConnected ▸ connected)

theorem truthful_of_other_event {e : Event} (ok : Steady c)
    (moved : SessionConnection.step c e = some d) (other : e.action ≠ .connected)
    (truthful : Truthful (a.setClient c)) : Truthful (a.setClient d) := by
  intro connected
  obtain ⟨before, same⟩ := connected_before ok moved other connected
  have told := truthful before
  simpa only [setClient_client, setClient_privacyMode, lastScreenAction, same] using told

theorem connected_iff {out : Outside}
    (moved : SessionConnection.step c ⟨.connected, out⟩ = some d) :
    d.isConnected = true ↔ ¬ (c.socket = .connecting true ∧ out.dataPending = false) := by
  simp only [SessionConnection.step] at moved
  split at moved
  · next here =>
    obtain rfl := Option.some.inj moved
    simp [here, onConnected]
  · next here =>
    obtain rfl := Option.some.inj moved
    cases pending : out.dataPending <;>
      simp [here, pending, socketDisconnectFromHost, onConnected, Client.setSocket]
  · cases moved

theorem lastScreenAction_connected {out : Outside} (ok : Steady c)
    (moved : SessionConnection.step c ⟨.connected, out⟩ = some d) : lastScreenAction d = none := by
  have connecting := (step_connected moved).1
  have password : ∃ m, m.type = .authRequest ∧ d.effects = c.effects ++ [m].map .write := by
    obtain ⟨-, rfl | rfl⟩ := step_connected moved
    · exact ⟨_, rfl, rfl⟩
    · exact ⟨_, rfl, socketDisconnectFromHost_effects out _⟩
  obtain ⟨m, type, effects⟩ := password
  rw [lastScreenAction, effects, currentPackets_writes, ok.unwritten connecting,
    History.latest_append_quiet]
  · rfl
  · intro packet member
    rw [List.mem_singleton.mp member]
    exact screenAction_other (type ▸ nofun)

theorem truthful_sendSessionControlAction_iff (truthful : Truthful a) (actionId : UInt32) :
    Truthful (a.setClient (sendSessionControlAction actionId a.client)) ↔
      PrivacyKept a (.sendSessionControlAction actionId) := by
  have same : (sendSessionControlAction actionId a.client).isConnected =
    a.client.isConnected := rfl
  simp only [Truthful, PrivacyKept, setClient_client, setClient_privacyMode, same,
    lastScreenAction_send] at truthful ⊢
  split_ifs with goes
  · simp [goes]
  · simp only [not_and] at goes
    exact iff_of_true truthful fun _ up action => absurd action (goes up)

theorem truthful_togglePrivacyMode_iff (truthful : Truthful a) :
    Truthful (togglePrivacyMode a) ↔ PrivacyKept a .togglePrivacyMode := by
  have same : (togglePrivacyMode a).client.isConnected = a.client.isConnected := rfl
  have mode : (togglePrivacyMode a).privacyMode = !a.privacyMode := rfl
  have told : lastScreenAction (togglePrivacyMode a).client =
      if a.client.socket = .connected then some (!a.privacyMode)
      else lastScreenAction a.client := by
    rw [togglePrivacyMode, lastScreenAction_send]
    cases a.privacyMode <;> simp
  simp only [Truthful, PrivacyKept, same, mode, told] at truthful ⊢
  split_ifs with up
  · simp [up]
  · refine imp_congr_right fun connected => iff_of_false ?_ up
    rw [← truthful connected]
    cases a.privacyMode <;> simp

theorem truthful_step_iff {input : Input} (ok : Steady a.client)
    (stepped : step a input = some b) (truthful : Truthful a) :
    Truthful b ↔ PrivacyKept a input := by
  cases input with
  | connection e =>
    obtain ⟨d, moved, rfl⟩ := step_connection stepped
    obtain ⟨action, out⟩ := e
    cases action with
    | connected =>
      have told := lastScreenAction_connected ok moved
      simp only [Truthful, PrivacyKept, setClient_client, setClient_privacyMode, told,
        connected_iff moved]
      grind
    | _ => exact iff_of_true (truthful_of_other_event ok moved nofun truthful) trivial
  | sendSessionControlAction actionId =>
    obtain rfl := Option.some.inj stepped
    exact truthful_sendSessionControlAction_iff truthful actionId
  | togglePrivacyMode =>
    obtain rfl := Option.some.inj stepped
    exact truthful_togglePrivacyMode_iff truthful
  | clearConnectionHistory =>
    obtain rfl := Option.some.inj stepped
    exact iff_of_true truthful trivial
  | passwordRejected out =>
    obtain ⟨-, rfl⟩ := step_passwordRejected stepped
    have moved := rejectPassword_eq_step out a.client
    exact iff_of_true (truthful_of_other_event (ok.setStatus _) moved nofun truthful) trivial
  | _ =>
    obtain ⟨packets, sends, types⟩ := sends_of_step stepped trivial
    have mode := (step_members stepped).1.resolve_left nofun
    refine iff_of_true (truthful_of_sends truthful sends mode ?_) trivial
    intro m member control
    have type := types m member
    rw [control] at type
    cases type

/-! ### Every run -/

theorem privacy_is_true_iff {history : List HistoryRecord} {inputs : List Input}
    (ran : run (start history) inputs = some a) :
    (∀ before after s, inputs = before ++ after → run (start history) before = some s →
      Truthful s) ↔ Transitions.Throughout step PrivacyKept (start history) inputs :=
  Transitions.always_iff_throughout (fun a => Steady a.client) Truthful (.start history)
    (fun connected => by cases connected)
    (fun stepped ok => ok.step stepped)
    (fun stepped ok truthful => truthful_step_iff ok stepped truthful) ran

theorem privacy_is_true_iff_toggled :
    ∃ a, run (start []) (opened ++ [.togglePrivacyMode, .togglePrivacyMode]) = some a ∧
      ((∀ before after s, opened ++ [.togglePrivacyMode, .togglePrivacyMode] = before ++ after →
        run (start []) before = some s → Truthful s) ↔
      Transitions.Throughout step PrivacyKept (start [])
        (opened ++ [.togglePrivacyMode, .togglePrivacyMode])) :=
  ⟨_, rfl, privacy_is_true_iff rfl⟩

/-- The screen is blanked, the network fails, and the retry comes to a host that has not
been told. -/
theorem reconnection_shows_the_screen :
    ∃ a, run (start []) (opened ++ .togglePrivacyMode :: lost ++ reopened) = some a ∧
      ¬ Truthful a := by
  obtain ⟨a, ran, connected, mode, told⟩ : ∃ a,
      run (start []) (opened ++ .togglePrivacyMode :: lost ++ reopened) = some a ∧
        a.client.isConnected = true ∧ a.privacyMode = true ∧ lastScreenAction a.client = none :=
    ⟨_, rfl, rfl, rfl, rfl⟩
  refine ⟨a, ran, fun truthful => ?_⟩
  have blanked := (truthful connected).mp mode
  rw [told] at blanked
  cases blanked

end RemoteAccess.PrivacyMode

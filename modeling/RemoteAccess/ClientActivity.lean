import RemoteAccess.Basics.History
import RemoteAccess.ClipboardChat
import RemoteAccess.ReconnectRuns

/-! The client between the events of its connection: what its user sends, the changes of
the clipboard, and the two answers of the agent that change more than what is shown. -/

namespace RemoteAccess.ClientActivity

open QtText SealedMessage SessionConnection ReconnectRuns
open SessionSend (Sender Call)
open SessionPackets (chatMark)

/-- The client, with the texts that `chatMessageReceived` has shown as sent by `"You"`. -/
structure Activity where
  client : Client
  privacyMode : Bool
  echoes : List QString

def Activity.setClient (a : Activity) (c : Client) : Activity := { a with client := c }

def start (history : List HistoryRecord) : Activity where
  client := SessionConnection.start history
  privacyMode := false
  echoes := []

/-! ### What the user does -/

/-- The sending sites work on the `Sender` in the client. -/
def send (sent : Sender × List Plain) (c : Client) : Client :=
  { c with
    inputSequence := sent.1.inputSequence
    lastClipboardText := sent.1.lastClipboardText
    effects := c.effects ++ sent.2.map .write }

def perform (call : Call) (c : Client) : Client := send (call.perform c.sender) c

def sendInputEvent (type : UInt16) (x y : Int32) (button : UInt32) (delta : Int32)
    (keycode modifiers : UInt32) (c : Client) : Client :=
  perform (.sendInputEvent type x y button delta keycode modifiers) c

def sendClipboardText (text : QString) (c : Client) : Client :=
  perform (.sendClipboardText text) c

def sendSessionControlAction (actionId : UInt32) (c : Client) : Client :=
  perform (.sendSessionControlAction actionId) c

def sendChatMessage (message : QString) (a : Activity) : Activity :=
  let (sender, packets, echo) := ClipboardChat.sendChatMessage message a.client.sender
  { a with
    client := send (sender, packets) a.client
    echoes := a.echoes ++ echo.toList }

/-- The clipboard holds `text`. -/
def onClipboardChanged (text : QString) (c : Client) : Client :=
  if ¬ c.isConnected then c
  else if text ≠ [] ∧ text ≠ c.lastClipboardText then sendClipboardText text c
  else c

/-- Action 4 blanks the screen of the host, action 5 shows it again. -/
def togglePrivacyMode (a : Activity) : Activity :=
  let privacyMode := !a.privacyMode
  { a with
    privacyMode := privacyMode
    client := sendSessionControlAction (if privacyMode then 4 else 5) a.client }

/-! ### What the agent answers -/

/-- `text` comes from the agent. The change of the clipboard that follows finds it cached. -/
def receiveClipboardText (text : QString) (c : Client) : Client :=
  if chatMark.isPrefixOf text then c else { c with lastClipboardText := text }

theorem receiveClipboardText_cached (s : SessionPackets.Session) (text : QString) (c : Client)
    (same : c.lastClipboardText = s.lastClipboardText) :
    (receiveClipboardText text c).lastClipboardText =
      (SessionPackets.applyClipboardText s text).lastClipboardText := by
  unfold receiveClipboardText SessionPackets.applyClipboardText
  dsimp only
  split_ifs
  · exact same
  · rfl
  · rfl

def rejectPassword (out : Outside) (c : Client) : Client :=
  disconnectFromHost out { c with statusText := .authenticationFailed }

/-! ### Runs -/

inductive Input
  | connection (e : Event)
  | sendInputEvent (type : UInt16) (x y : Int32) (button : UInt32) (delta : Int32)
      (keycode modifiers : UInt32)
  | sendClipboardText (text : QString)
  | sendChatMessage (message : QString)
  | sendSessionControlAction (actionId : UInt32)
  | clipboardChanged (text : QString)
  | togglePrivacyMode
  | clearConnectionHistory
  | clipboardReceived (text : QString)
  | passwordRejected (out : Outside)

/-- The agent's packets come while a connection is there. -/
def step (a : Activity) : Input → Option Activity
  | .connection e => (SessionConnection.step a.client e).map a.setClient
  | .sendInputEvent type x y button delta keycode modifiers =>
    some (a.setClient (sendInputEvent type x y button delta keycode modifiers a.client))
  | .sendClipboardText text => some (a.setClient (sendClipboardText text a.client))
  | .sendChatMessage message => some (sendChatMessage message a)
  | .sendSessionControlAction actionId =>
    some (a.setClient (sendSessionControlAction actionId a.client))
  | .clipboardChanged text => some (a.setClient (onClipboardChanged text a.client))
  | .togglePrivacyMode => some (togglePrivacyMode a)
  | .clearConnectionHistory => some (a.setClient { a.client with connectionHistory := [] })
  | .clipboardReceived text =>
    if a.client.Established then some (a.setClient (receiveClipboardText text a.client)) else none
  | .passwordRejected out =>
    if a.client.Established then some (a.setClient (rejectPassword out a.client)) else none

def run (a : Activity) (inputs : List Input) : Option Activity := Transitions.run step a inputs

variable {a b : Activity} {c d : Client}

@[simp] theorem setClient_client (a : Activity) (c : Client) : (a.setClient c).client = c := rfl

@[simp] theorem setClient_privacyMode (a : Activity) (c : Client) :
    (a.setClient c).privacyMode = a.privacyMode := rfl

@[simp] theorem setClient_echoes (a : Activity) (c : Client) :
    (a.setClient c).echoes = a.echoes := rfl

theorem step_connection {e : Event} (stepped : step a (.connection e) = some b) :
    ∃ d, SessionConnection.step a.client e = some d ∧ b = a.setClient d := by
  obtain ⟨d, moved, same⟩ := Option.map_eq_some_iff.mp stepped
  exact ⟨d, moved, same.symm⟩

theorem step_passwordRejected {out : Outside} (stepped : step a (.passwordRejected out) = some b) :
    a.client.Established ∧ b = a.setClient (rejectPassword out a.client) := by
  simp only [step, Option.ite_none_right_eq_some, Option.some.injEq] at stepped
  exact ⟨stepped.1, stepped.2.symm⟩

theorem step_clipboardReceived {text : QString}
    (stepped : step a (.clipboardReceived text) = some b) :
    a.client.Established ∧ b = a.setClient (receiveClipboardText text a.client) := by
  simp only [step, Option.ite_none_right_eq_some, Option.some.injEq] at stepped
  exact ⟨stepped.1, stepped.2.symm⟩

/-! ### Sending -/

structure Sends (packets : List Plain) (c d : Client) : Prop where
  connected : packets ≠ [] → c.socket = .connected
  same : ∃ inputSequence lastClipboardText, d = { c with
    inputSequence := inputSequence
    lastClipboardText := lastClipboardText
    effects := c.effects ++ packets.map .write }

theorem Sends.refl (c : Client) : Sends [] c c where
  connected some := absurd rfl some
  same := ⟨c.inputSequence, c.lastClipboardText, by simp⟩

theorem Sends.isConnected {packets : List Plain} (sends : Sends packets c d) :
    d.isConnected = c.isConnected := by
  obtain ⟨-, inputSequence, lastClipboardText, rfl⟩ := sends
  rfl

theorem sends_send {sent : Sender × List Plain} (connected : sent.2 ≠ [] → c.socket = .connected) :
    Sends sent.2 c (send sent c) :=
  ⟨connected, _, _, rfl⟩

theorem perform_connected {call : Call} (later : call ≠ .onConnected)
    (some : (call.perform c.sender).2 ≠ []) : c.socket = .connected := by
  by_contra down
  have closed : c.sender.connected = false := decide_eq_false down
  cases call with
  | onConnected => exact later rfl
  | sendInputEvent type x y button delta keycode modifiers =>
    exact some (by simp [Call.perform, SessionSend.sendInputEvent, closed])
  | sendClipboardText text =>
    exact some (by simp [Call.perform, SessionSend.sendClipboardText, closed])
  | sendSessionControlAction actionId =>
    exact some (by simp [Call.perform, SessionSend.sendSessionControlAction, closed])

theorem sends_perform {call : Call} (later : call ≠ .onConnected) (c : Client) :
    Sends (call.perform c.sender).2 c (perform call c) :=
  sends_send (perform_connected later)

theorem sendChatMessage_eq (message : QString) (a : Activity) :
    sendChatMessage message a =
      if trimmed message = [] then a
      else { a with
        client := sendClipboardText (chatMark ++ trimmed message) a.client
        echoes := a.echoes ++ [trimmed message] } := by
  unfold sendChatMessage ClipboardChat.sendChatMessage
  simp only [List.isEmpty_iff]
  split_ifs
  · simp [send, Client.sender]
  · rfl

theorem onClipboardChanged_eq (text : QString) (c : Client) :
    onClipboardChanged text c =
      if c.isConnected = true ∧ text ≠ [] ∧ text ≠ c.lastClipboardText then
        sendClipboardText text c
      else c := by
  unfold onClipboardChanged
  split_ifs <;> simp_all

theorem sends_receiveClipboardText (text : QString) (c : Client) :
    Sends [] c (receiveClipboardText text c) := by
  unfold receiveClipboardText
  split_ifs
  · exact .refl c
  · exact ⟨fun some => absurd rfl some, c.inputSequence, text, by simp⟩

def Input.payloadType : Input → Option ProtocolCodec.PayloadType
  | sendInputEvent .. => some .inputEvent
  | sendClipboardText _ | sendChatMessage _ | clipboardChanged _ => some .clipboardData
  | sendSessionControlAction _ | togglePrivacyMode => some .sessionControl
  | _ => none

def Input.OnlySends : Input → Prop
  | connection _ | clearConnectionHistory | passwordRejected _ => False
  | _ => True

theorem perform_type {call : Call} (later : call ≠ .onConnected) (c : Client) :
    ∃ packets, Sends packets c (perform call c) ∧ ∀ m ∈ packets, m.type = call.type :=
  ⟨_, sends_perform later c, fun _ member => (Call.emitted member).1⟩

theorem sends_of_step {input : Input} (stepped : step a input = some b) (only : input.OnlySends) :
    ∃ packets, Sends packets a.client b.client ∧
      ∀ m ∈ packets, input.payloadType = some m.type := by
  have called : ∀ call : Call, call ≠ .onConnected → input.payloadType = some call.type →
      b.client = perform call a.client →
      ∃ packets, Sends packets a.client b.client ∧
        ∀ m ∈ packets, input.payloadType = some m.type := by
    intro call later type same
    obtain ⟨packets, sends, types⟩ := perform_type later a.client
    refine ⟨packets, same ▸ sends, fun m member => ?_⟩
    rw [types m member, type]
  have quiet : b.client = a.client → ∃ packets, Sends packets a.client b.client ∧
      ∀ m ∈ packets, input.payloadType = some m.type :=
    fun same => ⟨[], same ▸ .refl b.client, by simp⟩
  cases input with
  | connection e => exact only.elim
  | sendInputEvent type x y button delta keycode modifiers =>
    obtain rfl := Option.some.inj stepped
    exact called (.sendInputEvent type x y button delta keycode modifiers) nofun rfl rfl
  | sendClipboardText text =>
    obtain rfl := Option.some.inj stepped
    exact called (.sendClipboardText text) nofun rfl rfl
  | sendChatMessage message =>
    obtain rfl := Option.some.inj stepped
    rw [sendChatMessage_eq] at called quiet ⊢
    split_ifs at called quiet ⊢
    · exact quiet rfl
    · exact called (.sendClipboardText (chatMark ++ trimmed message)) nofun rfl rfl
  | sendSessionControlAction actionId =>
    obtain rfl := Option.some.inj stepped
    exact called (.sendSessionControlAction actionId) nofun rfl rfl
  | clipboardChanged text =>
    obtain rfl := Option.some.inj stepped
    rw [onClipboardChanged_eq] at called quiet ⊢
    split_ifs at called quiet ⊢
    · exact called (.sendClipboardText text) nofun rfl rfl
    · exact quiet rfl
  | togglePrivacyMode =>
    obtain rfl := Option.some.inj stepped
    exact called (.sendSessionControlAction (if !a.privacyMode then 4 else 5)) nofun rfl rfl
  | clearConnectionHistory => exact only.elim
  | clipboardReceived text =>
    obtain ⟨-, rfl⟩ := step_clipboardReceived stepped
    exact ⟨[], sends_receiveClipboardText text a.client, by simp⟩
  | passwordRejected out => exact only.elim

theorem step_members {input : Input} (stepped : step a input = some b) :
    (input = .togglePrivacyMode ∨ b.privacyMode = a.privacyMode) ∧
      ((∃ message, input = .sendChatMessage message) ∨ b.echoes = a.echoes) := by
  cases input with
  | connection e =>
    obtain ⟨d, -, rfl⟩ := step_connection stepped
    exact ⟨.inr rfl, .inr rfl⟩
  | sendChatMessage message =>
    obtain rfl := Option.some.inj stepped
    exact ⟨.inr rfl, .inl ⟨message, rfl⟩⟩
  | togglePrivacyMode =>
    obtain rfl := Option.some.inj stepped
    exact ⟨.inl rfl, .inr rfl⟩
  | clipboardReceived text =>
    obtain ⟨-, rfl⟩ := step_clipboardReceived stepped
    exact ⟨.inr rfl, .inr rfl⟩
  | passwordRejected out =>
    obtain ⟨-, rfl⟩ := step_passwordRejected stepped
    exact ⟨.inr rfl, .inr rfl⟩
  | _ =>
    obtain rfl := Option.some.inj stepped
    exact ⟨.inr rfl, .inr rfl⟩

/-! ### The current connection -/

def currentPackets (effects : List Effect) : List Plain :=
  effects.foldl (fun packets effect =>
    match effect with
    | .attempt .. => []
    | .write packet => packets ++ [packet]) []

@[simp] theorem currentPackets_attempt (effects : List Effect) (host : QString) (port : UInt16) :
    currentPackets (effects ++ [.attempt host port]) = [] := by
  simp [currentPackets]

@[simp] theorem currentPackets_writes (effects : List Effect) (packets : List Plain) :
    currentPackets (effects ++ packets.map .write) = currentPackets effects ++ packets := by
  induction packets using List.reverseRecOn with
  | nil => simp
  | append_singleton packets m ih =>
    rw [List.map_append, ← List.append_assoc, List.map_singleton, currentPackets,
      List.foldl_append, ← currentPackets, ih]
    simp

theorem socketDisconnectFromHost_closes (out : Outside) (c : Client) :
    ((socketDisconnectFromHost out c).Connecting → c.Connecting) ∧
      ((socketDisconnectFromHost out c).isConnected = true → c.isConnected = true) := by
  obtain ⟨-, same⟩ | ⟨here, same⟩ | ⟨-, same | same⟩ := socketDisconnectFromHost_cases out c <;>
    rw [same]
  · exact ⟨id, id⟩
  · exact ⟨fun _ => here, id⟩
  · exact ⟨by simp [Client.Connecting], id⟩
  · exact ⟨by simp [Client.Connecting], by simp⟩

theorem connection_effects {e : Event} (moved : SessionConnection.step c e = some d) :
    (d.effects = c.effects ∧ (d.Connecting → c.Connecting) ∧
      (d.isConnected = true → c.isConnected = true)) ∨
    (d.Connecting ∧ ∃ host port, d.effects = c.effects ++ [.attempt host port]) ∨
    (e.action = .connected ∧ c.Connecting ∧ ¬ d.Connecting ∧
      ∃ m, m.type = .authRequest ∧ d.effects = c.effects ++ [.write m]) := by
  obtain ⟨action, out⟩ := e
  cases action with
  | connectToHost host port password =>
    obtain rfl := Option.some.inj moved
    refine .inr (.inl ⟨⟨false, ?_⟩, host, port, connectToHost_effects out host port password c⟩)
    rw [connectToHost_eq]
  | connectByP2PId id password =>
    obtain rfl := Option.some.inj moved
    refine .inr (.inl ⟨⟨false, ?_⟩, localHost, 18443, connectToHost_effects out _ _ password _⟩)
    rw [connectByP2PId, connectToHost_eq]
  | disconnectFromHost =>
    obtain rfl := Option.some.inj moved
    exact .inl ⟨socketDisconnectFromHost_effects out _,
      socketDisconnectFromHost_closes out c.stopReconnecting⟩
  | cancelReconnect =>
    obtain rfl := Option.some.inj moved
    exact .inl ⟨rfl, id, id⟩
  | connected =>
    obtain ⟨connecting, ended⟩ := step_connected moved
    have up : ¬ (onConnected out (c.setSocket .connected)).Connecting := by
      simp [Client.Connecting, onConnected]
    obtain rfl | rfl := ended
    · exact .inr (.inr ⟨rfl, connecting, up, _, rfl, rfl⟩)
    · exact .inr (.inr ⟨rfl, connecting, mt (socketDisconnectFromHost_closes out _).1 up, _, rfl,
        socketDisconnectFromHost_effects out _⟩)
  | attemptFailed =>
    obtain ⟨connecting, rfl⟩ := step_attemptFailed moved
    exact .inl ⟨rfl, fun _ => connecting, by simp [onErrorOccurred]⟩
  | connectionLost =>
    obtain ⟨-, rfl⟩ := step_connectionLost moved
    refine .inl ⟨onDisconnected_effects out _, ?_, by simp⟩
    simp [Client.Connecting, onErrorOccurred]
  | closed =>
    obtain ⟨-, rfl⟩ := step_closed moved
    refine .inl ⟨onDisconnected_effects out _, ?_, by simp⟩
    simp [Client.Connecting]
  | timerFired =>
    obtain ⟨-, rfl⟩ := step_timerFired moved
    obtain ⟨-, same⟩ | ⟨-, -, ⟨-, same⟩ | ⟨-, same⟩⟩ :=
      attemptReconnect_cases out { c with reconnectTimer := none } <;> rw [same]
    · exact .inl ⟨rfl, id, id⟩
    · exact .inr (.inl ⟨⟨false, rfl⟩, _, _, rfl⟩)
    · exact .inl ⟨rfl, id, by simp [onErrorOccurred]⟩

/-! ### What every run keeps -/

/-- `Sound`, and an attempt under way has written nothing. -/
structure Steady (c : Client) : Prop extends Sound c where
  unwritten : c.Connecting → currentPackets c.effects = []

theorem Steady.start (history : List HistoryRecord) : Steady (SessionConnection.start history) where
  toSound := .start history
  unwritten _ := rfl

theorem Steady.sends {packets : List Plain} (ok : Steady c) (sends : Sends packets c d) :
    Steady d := by
  obtain ⟨connected, inputSequence, lastClipboardText, rfl⟩ := sends
  refine { ok with unwritten := ?_ }
  rintro ⟨pendingClose, here⟩
  have none : packets = [] := by
    by_contra some
    cases here.symm.trans (connected some)
  simpa [none] using ok.unwritten ⟨pendingClose, here⟩

theorem Steady.connection {e : Event} (ok : Steady c)
    (moved : SessionConnection.step c e = some d) : Steady d where
  toSound := ok.toSound.step moved
  unwritten connecting := by
    obtain ⟨same, before, -⟩ | ⟨-, host, port, attempt⟩ | ⟨-, -, up, -⟩ :=
      connection_effects moved
    · rw [same]
      exact ok.unwritten (before connecting)
    · rw [attempt, currentPackets_attempt]
    · exact absurd connecting up

theorem connected_before {e : Event} (ok : Steady c) (moved : SessionConnection.step c e = some d)
    (other : e.action ≠ .connected) (connected : d.isConnected = true) :
    c.isConnected = true ∧ d.effects = c.effects := by
  obtain ⟨same, -, before⟩ | ⟨connecting, -⟩ | ⟨opens, -⟩ := connection_effects moved
  · exact ⟨before connected, same⟩
  · have up := (ok.connection moved).connected connected
    exact absurd up (not_established_of_connecting connecting)
  · exact absurd opens other

theorem Steady.setStatus (ok : Steady c) (status : Status) :
    Steady { c with statusText := status } := { ok with }

theorem rejectPassword_eq_step (out : Outside) (c : Client) :
    SessionConnection.step { c with statusText := .authenticationFailed }
      ⟨.disconnectFromHost, out⟩ = some (rejectPassword out c) := rfl

theorem Steady.step {input : Input} (ok : Steady a.client) (stepped : step a input = some b) :
    Steady b.client := by
  by_cases only : input.OnlySends
  · obtain ⟨packets, sends, -⟩ := sends_of_step stepped only
    exact ok.sends sends
  · cases input with
    | connection e =>
      obtain ⟨d, moved, rfl⟩ := step_connection stepped
      exact ok.connection moved
    | clearConnectionHistory =>
      obtain rfl := Option.some.inj stepped
      exact { ok with }
    | passwordRejected out =>
      obtain ⟨-, rfl⟩ := step_passwordRejected stepped
      exact (ok.setStatus _).connection (rejectPassword_eq_step out a.client)
    | _ => exact absurd trivial only

def opened : List Input := localSession.map .connection

def lost : List Input := [.connection ⟨.connectionLost, calm⟩]

def reopened : List Input := [.connection ⟨.timerFired, calm⟩, .connection ⟨.connected, calm⟩]

def elsewhere : List Input :=
  [.connection ⟨.connectToHost localHost 18444 [], calm⟩, .connection ⟨.connected, calm⟩]

end RemoteAccess.ClientActivity

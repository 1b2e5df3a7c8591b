import RemoteAccess.ClientActivity
import RemoteAccess.SocketWrite

/-! What reaches the agent of the current connection: the texts of the clipboard, and the
chat messages that go the same way. Both pass one cache, which outlives the connection. -/

namespace RemoteAccess.ClipboardDelivery

open QtText QtUtf8 ProtocolCodec SealedMessage ReconnectRuns ClientActivity
open SessionConnection hiding start step run
open SessionPackets (chatMark)
open SocketWrite (fits writes)
open AgentPacketHandler (Host ClientSocket Effect.setClipboardText collect handleClientPacket
  handleClientPacket_message handleClipboardData)

variable {a b : Activity} {c d : Client}

/-- What a text is after it has gone over the wire. -/
def received (text : QString) : QString := fromUtf8 (toUtf8 text) (intOfSize (toUtf8 text).length)

/-- The packet with a text is written in one piece. -/
def Short (text : QString) : Prop :=
  ProtocolCodec.headerSize + ((toUtf8 text).length + CryptoEngine.tagSize) < 2 ^ 31

instance (text : QString) : Decidable (Short text) := inferInstanceAs (Decidable (_ < _))

def delivered (m : Plain) : Option QString :=
  if fits m ∧ m.type = .clipboardData ∧ m.plaintext ≠ [] then
    some (fromUtf8 m.plaintext (intOfSize m.plaintext.length))
  else none

theorem agent_delivered (oversized : Nat → UInt64) {m : Plain} (type : m.type = .clipboardData)
    (room : m.plaintext.length + CryptoEngine.tagSize < 2 ^ 32) {host : Host}
    {socket : ClientSocket} (clipboard : host.hasClipboard = true)
    (authenticated : socket.authenticated = true) {fuel : Nat} (enough : 1 < fuel)
    (effects : List AgentPacketHandler.Effect) :
    AgentReceive.readyRead (collect oversized host) fuel (socket, effects) (writes oversized [m]) =
      some (socket, effects ++ (delivered m).toList.map .setClipboardText) := by
  have handled : handleClientPacket oversized host socket (m.message oversized).packet =
      (socket, handleClipboardData host m.plaintext) := by
    rw [handleClientPacket_message oversized room, type, if_neg (by decide), authenticated,
      if_neg (by decide), if_neg (by decide), if_pos rfl]
  have whole := SocketWrite.bytes_lt_iff oversized room
  rw [SocketWrite.writes_singleton]
  by_cases one_piece : fits m
  · rw [SocketWrite.readyRead_message enough _ (whole.mpr one_piece), collect, handled,
      handleClipboardData, delivered, type]
    by_cases empty : m.plaintext = [] <;> simp [empty, one_piece, clipboard]
  · have cut := SocketWrite.length_written_lt (Nat.le_of_not_lt (mt whole.mp one_piece))
    rw [SocketWrite.readyRead_short (by omega) _ cut, delivered, if_neg fun all => one_piece all.1]
    simp

/-- The content that the agent of the current connection was given last. -/
def lastDelivered (c : Client) : Option QString :=
  History.latest delivered (currentPackets c.effects)

/-! ### One text -/

theorem sendClipboardText_effects (text : QString) (c : Client) :
    ∃ m : Plain, m.type = .clipboardData ∧ m.plaintext = toUtf8 text ∧
      (sendClipboardText text c).effects = c.effects ++
        (if c.socket = .connected ∧ text ≠ c.lastClipboardText then [m] else []).map .write := by
  refine ⟨⟨.clipboardData, c.inputSequence + 1, 0, toUtf8 text⟩, rfl, rfl, ?_⟩
  by_cases up : c.socket = .connected <;> by_cases cached : text = c.lastClipboardText <;>
    simp [sendClipboardText, perform, send, SessionSend.Call.perform,
      SessionSend.sendClipboardText, SessionSend.send, Client.sender, up, cached]

theorem lastDelivered_send (text : QString) (c : Client) :
    lastDelivered (sendClipboardText text c) =
      if c.socket = .connected ∧ text ≠ c.lastClipboardText ∧ text ≠ [] ∧ Short text then
        some (received text)
      else lastDelivered c := by
  obtain ⟨m, type, plaintext, effects⟩ := sendClipboardText_effects text c
  have given : delivered m =
      if text ≠ [] ∧ Short text then some (received text) else none := by
    simp only [delivered, fits, type, plaintext, ne_eq, toUtf8_eq_nil_iff, received, true_and,
      Short, and_comm]
    rfl
  rw [lastDelivered, effects, currentPackets_writes, History.latest_append]
  by_cases goes : c.socket = .connected ∧ text ≠ c.lastClipboardText
  · rw [if_pos goes]
    by_cases arrives : text ≠ [] ∧ Short text
    · rw [if_pos arrives] at given
      simp [History.latest, given, goes.1, goes.2, arrives.1, arrives.2]
    · rw [if_neg arrives] at given
      rw [if_neg fun all => arrives all.2.2]
      simp [History.latest, given, lastDelivered]
  · rw [if_neg goes, if_neg fun all => goes ⟨all.1, all.2.1⟩]
    rfl

theorem lastClipboardText_send (text : QString) (c : Client) :
    (sendClipboardText text c).lastClipboardText =
      if c.socket = .connected then text else c.lastClipboardText := by
  by_cases up : c.socket = .connected <;> by_cases cached : text = c.lastClipboardText <;>
    simp [sendClipboardText, perform, send, SessionSend.Call.perform,
      SessionSend.sendClipboardText, SessionSend.send, Client.sender, up, cached]

/-! ### The cache -/

/-- What is cached is what the agent was given last, if it could be written. -/
def Carried (c : Client) : Prop :=
  c.isConnected = true → c.lastClipboardText ≠ [] → Short c.lastClipboardText →
    lastDelivered c = some (received c.lastClipboardText)

/-- No connection is established, and no text comes from an agent. -/
def Undisturbed : Input → Prop
  | .connection ⟨.connected, _⟩ => False
  | .clipboardReceived text => chatMark.isPrefixOf text = true
  | _ => True

theorem Carried.send (carried : Carried c) (text : QString) :
    Carried (sendClipboardText text c) := by
  intro connected cached short
  rw [lastClipboardText_send] at cached short ⊢
  rw [lastDelivered_send]
  have before : c.isConnected = true := connected
  by_cases up : c.socket = .connected
  · rw [if_pos up] at cached short ⊢
    by_cases same : text = c.lastClipboardText
    · rw [if_neg fun all => all.2.1 same]
      exact same ▸ carried before (same ▸ cached) (same ▸ short)
    · rw [if_pos ⟨up, same, cached, short⟩]
  · rw [if_neg up] at cached short ⊢
    rw [if_neg fun all => up all.1]
    exact carried before cached short

theorem lastClipboardText_connection {e : Event}
    (moved : SessionConnection.step c e = some d) :
    d.lastClipboardText = c.lastClipboardText := by
  obtain ⟨action, out⟩ := e
  cases action with
  | connectToHost host port password =>
    obtain rfl := Option.some.inj moved
    simp [connectToHost_eq]
  | connectByP2PId id password =>
    obtain rfl := Option.some.inj moved
    simp [connectByP2PId, connectToHost_eq, Client.setTarget]
  | disconnectFromHost =>
    obtain rfl := Option.some.inj moved
    simp [disconnectFromHost, Client.stopReconnecting]
  | cancelReconnect =>
    obtain rfl := Option.some.inj moved
    rfl
  | connected =>
    obtain ⟨-, rfl | rfl⟩ := step_connected moved
    · rfl
    · exact socketDisconnectFromHost_lastClipboardText out _
  | attemptFailed =>
    obtain ⟨-, rfl⟩ := step_attemptFailed moved
    rfl
  | connectionLost =>
    obtain ⟨-, rfl⟩ := step_connectionLost moved
    exact onDisconnected_lastClipboardText out _
  | closed =>
    obtain ⟨-, rfl⟩ := step_closed moved
    simp
  | timerFired =>
    obtain ⟨-, rfl⟩ := step_timerFired moved
    obtain ⟨-, same⟩ | ⟨-, -, ⟨-, same⟩ | ⟨-, same⟩⟩ :=
      attemptReconnect_cases out { c with reconnectTimer := none }
    · rw [same]
    · rw [same]
    · rw [same]
      rfl

theorem Carried.connection {e : Event} (carried : Carried c) (ok : Steady c)
    (moved : SessionConnection.step c e = some d)
    (other : e.action ≠ .connected) : Carried d := by
  intro connected cached short
  rw [lastClipboardText_connection moved] at cached short ⊢
  obtain ⟨before, same⟩ := connected_before ok moved other connected
  rw [lastDelivered, same]
  exact carried before cached short

theorem Carried.perform {call : SessionSend.Call} (carried : Carried c)
    (later : call ≠ .onConnected) (other : ∀ text, call ≠ .sendClipboardText text) :
    Carried (perform call c) := by
  have cache : (ClientActivity.perform call c).lastClipboardText = c.lastClipboardText := by
    cases call with
    | onConnected => exact absurd rfl later
    | sendInputEvent type x y button delta keycode modifiers =>
      cases up : c.sender.connected <;>
        simp [ClientActivity.perform, SessionSend.Call.perform, SessionSend.sendInputEvent,
          SessionSend.send, up] <;> rfl
    | sendClipboardText text => exact absurd rfl (other text)
    | sendSessionControlAction actionId =>
      cases up : c.sender.connected <;>
        simp [ClientActivity.perform, SessionSend.Call.perform,
          SessionSend.sendSessionControlAction, SessionSend.send, up] <;> rfl
  have type : call.type ≠ .clipboardData := by
    cases call with
    | sendClipboardText text => exact absurd rfl (other text)
    | _ => exact fun same => by cases same
  obtain ⟨packets, sends, types⟩ := perform_type later c
  have given : lastDelivered (ClientActivity.perform call c) = lastDelivered c := by
    obtain ⟨-, inputSequence, lastClipboardText, same⟩ := sends
    rw [lastDelivered, same, currentPackets_writes]
    exact History.latest_append_quiet fun m member => if_neg fun both =>
      type (types m member ▸ both.2.1)
  intro connected cached short
  rw [cache] at cached short
  rw [given, cache]
  exact carried connected cached short

theorem Carried.step {input : Input} (ok : Steady a.client) (carried : Carried a.client)
    (stepped : step a input = some b) (undisturbed : Undisturbed input) : Carried b.client := by
  cases input with
  | connection e =>
    obtain ⟨d, moved, rfl⟩ := step_connection stepped
    refine carried.connection ok moved fun opens => ?_
    obtain ⟨action, out⟩ := e
    cases opens
    exact undisturbed
  | sendClipboardText text => exact Option.some.inj stepped ▸ carried.send text
  | sendChatMessage message =>
    obtain rfl := Option.some.inj stepped
    rw [sendChatMessage_eq]
    split_ifs
    · exact carried
    · exact carried.send _
  | clipboardChanged text =>
    obtain rfl := Option.some.inj stepped
    rw [onClipboardChanged_eq]
    split_ifs
    · exact carried.send text
    · exact carried
  | clearConnectionHistory => exact Option.some.inj stepped ▸ carried
  | clipboardReceived text =>
    obtain ⟨-, rfl⟩ := step_clipboardReceived stepped
    have marked : chatMark.isPrefixOf text = true := undisturbed
    rw [receiveClipboardText, if_pos marked]
    exact carried
  | passwordRejected out =>
    obtain ⟨-, rfl⟩ := step_passwordRejected stepped
    have same : Carried { a.client with statusText := .authenticationFailed } := carried
    exact same.connection (ok.setStatus _) (rejectPassword_eq_step out a.client) nofun
  | sendInputEvent type x y button delta keycode modifiers =>
    exact Option.some.inj stepped ▸ carried.perform nofun nofun
  | sendSessionControlAction actionId =>
    exact Option.some.inj stepped ▸ carried.perform nofun nofun
  | togglePrivacyMode => exact Option.some.inj stepped ▸ carried.perform nofun nofun

theorem Carried.run {inputs : List Input} (ok : Steady a.client) (carried : Carried a.client)
    (undisturbed : ∀ input ∈ inputs, Undisturbed input)
    (ran : ClientActivity.run a inputs = some b) : Carried b.client := by
  have both : Steady b.client ∧ Carried b.client := by
    have all : Transitions.Throughout ClientActivity.step (fun _ => Undisturbed) a inputs := by
      rintro before input after s rfl -
      exact undisturbed input (by simp)
    refine all.invariant (fun a => Steady a.client ∧ Carried a.client) ran ⟨ok, carried⟩ ?_
    rintro s t input here stepped ⟨ok, carried⟩
    exact ⟨ok.step stepped, carried.step ok stepped here⟩
  exact both.2

/-! ### The clipboard follows -/

/-- The text that an input hands to a connected socket. -/
def goesOut (a : Activity) : Input → Option QString
  | .sendClipboardText text => offer text
  | .sendChatMessage message =>
    if trimmed message = [] then none else offer (chatMark ++ trimmed message)
  | .clipboardChanged text => if a.client.isConnected ∧ text ≠ [] then offer text else none
  | _ => none
where
  offer (text : QString) : Option QString :=
    if a.client.socket = .connected ∧ text ≠ a.client.lastClipboardText then some text else none

theorem goesOut_offer {text sent : QString} (offered : goesOut.offer a text = some sent) :
    text = sent ∧ a.client.socket = .connected ∧ text ≠ a.client.lastClipboardText := by
  rw [goesOut.offer, Option.ite_none_right_eq_some] at offered
  exact ⟨Option.some.inj offered.2, offered.1⟩

theorem step_goesOut {input : Input} {text : QString} (sent : goesOut a input = some text)
    (stepped : step a input = some b) :
    b.client = sendClipboardText text a.client ∧ a.client.socket = .connected ∧
      text ≠ a.client.lastClipboardText := by
  cases input with
  | sendClipboardText offered =>
    obtain ⟨rfl, goes⟩ := goesOut_offer sent
    exact ⟨(congrArg Activity.client (Option.some.inj stepped)).symm, goes⟩
  | sendChatMessage message =>
    rw [goesOut, Option.ite_none_left_eq_some] at sent
    obtain ⟨some_text, offered⟩ := sent
    obtain ⟨rfl, goes⟩ := goesOut_offer offered
    obtain rfl := Option.some.inj stepped
    rw [sendChatMessage_eq, if_neg some_text]
    exact ⟨rfl, goes⟩
  | clipboardChanged changed =>
    rw [goesOut, Option.ite_none_right_eq_some] at sent
    obtain ⟨⟨connected, some_text⟩, offered⟩ := sent
    obtain ⟨rfl, goes⟩ := goesOut_offer offered
    obtain rfl := Option.some.inj stepped
    rw [setClient_client, onClipboardChanged_eq, if_pos ⟨connected, some_text, goes.2⟩]
    exact ⟨rfl, goes⟩
  | _ => cases sent

/-- The text went out over this connection, and since then none was established and no text
came from the agent. -/
def SentHere (history : List HistoryRecord) (before : List Input) (text : QString) : Prop :=
  ∃ earlier input later s, before = earlier ++ input :: later ∧
    run (start history) earlier = some s ∧ goesOut s input = some text ∧
    ∀ next ∈ later, Undisturbed next

/-- `text` is copied after the inputs `before`, which led to `s`. -/
structure ClipboardKept (history : List HistoryRecord) (before : List Input) (s : Activity)
    (text : QString) : Prop where
  connected : s.client.socket = .connected
  survives : survives text = true
  short : Short text
  sent : text = s.client.lastClipboardText → SentHere history before text

theorem Short.length_lt {text : QString} (short : Short text) :
    (toUtf8 text).length < 2 ^ 31 := by
  unfold Short at short
  omega

theorem received_eq {text : QString} (short : Short text) (ok : survives text = true) :
    received text = text :=
  (fromUtf8_toUtf8_eq_iff short.length_lt).mpr ok

theorem steady_run {history : List HistoryRecord} {inputs : List Input}
    (ran : run (start history) inputs = some a) : Steady a.client :=
  Transitions.run_invariant (fun a => Steady a.client) (.start history)
    (fun stepped ok => ok.step stepped) ran

theorem SentHere.lastDelivered {history : List HistoryRecord} {before : List Input}
    {text : QString} (sent : SentHere history before text)
    (ran : run (start history) before = some a) (cached : text = a.client.lastClipboardText)
    (some_text : text ≠ []) (short : Short text) (connected : a.client.isConnected = true) :
    lastDelivered a.client = some (received text) := by
  obtain ⟨earlier, input, later, s, rfl, reached, out, undisturbed⟩ := sent
  rw [← List.singleton_append, ← List.append_assoc] at ran
  obtain ⟨t, between, onwards⟩ := Transitions.exists_run_left ran
  have steady : Steady t.client := steady_run between
  rw [Transitions.run_concat, ← ClientActivity.run, reached, Option.bind_some] at between
  obtain ⟨same, open_, new⟩ := step_goesOut out between
  have carried : Carried t.client := by
    intro _ _ _
    rw [same, lastDelivered_send, if_pos ⟨open_, new, some_text, short⟩, lastClipboardText_send,
      if_pos open_]
  have still := Carried.run steady carried undisturbed onwards
  rw [cached]
  exact still connected (cached ▸ some_text) (cached ▸ short)

/-- After any run, a change of the clipboard that meets the condition leaves the agent of the
connection with the text that it was given last. -/
theorem clipboard_follows {history : List HistoryRecord} {before : List Input} {s : Activity}
    {text : QString} (ran : run (start history) before = some s)
    (stepped : step s (.clipboardChanged text) = some b) (some_text : text ≠ [])
    (connected : s.client.isConnected = true) (kept : ClipboardKept history before s text) :
    lastDelivered b.client = some text := by
  obtain ⟨open_, ok, short, sent⟩ := kept
  obtain rfl := Option.some.inj stepped
  rw [setClient_client, onClipboardChanged_eq]
  by_cases cached : text = s.client.lastClipboardText
  · rw [if_neg fun all => all.2.2 cached,
      (sent cached).lastDelivered ran cached some_text short connected, received_eq short ok]
  · rw [if_pos ⟨connected, some_text, cached⟩, lastDelivered_send,
      if_pos ⟨open_, cached, some_text, short⟩, received_eq short ok]

theorem clipboard_follows_again :
    ∃ s b, run (start []) (opened ++ [.clipboardChanged ClipboardChat.hi]) = some s ∧
      s.client.lastClipboardText = ClipboardChat.hi ∧
      step s (.clipboardChanged ClipboardChat.hi) = some b ∧
      lastDelivered b.client = some ClipboardChat.hi := by
  obtain ⟨s, b, ran, cached, stepped, connected, open_⟩ : ∃ s b,
      run (start []) (opened ++ [.clipboardChanged ClipboardChat.hi]) = some s ∧
      s.client.lastClipboardText = ClipboardChat.hi ∧
      step s (.clipboardChanged ClipboardChat.hi) = some b ∧ s.client.isConnected = true ∧
      s.client.socket = .connected :=
    ⟨_, _, rfl, rfl, rfl, rfl, rfl⟩
  have sent : SentHere [] (opened ++ [.clipboardChanged ClipboardChat.hi]) ClipboardChat.hi :=
    ⟨opened, _, [], _, rfl, rfl, rfl, by simp⟩
  exact ⟨s, b, ran, cached, stepped, clipboard_follows ran stepped (by decide) connected
    ⟨open_, by decide, by decide, fun _ => sent⟩⟩

/-- The text was sent to the host before. -/
theorem second_host_is_not_given_the_text :
    ∃ s b, run (start []) (opened ++ .clipboardChanged ClipboardChat.hi :: elsewhere) = some s ∧
      step s (.clipboardChanged ClipboardChat.hi) = some b ∧ s.client.isConnected = true ∧
      lastDelivered b.client ≠ some ClipboardChat.hi := by
  obtain ⟨s, b, ran, stepped, connected, given⟩ : ∃ s b,
      run (start []) (opened ++ .clipboardChanged ClipboardChat.hi :: elsewhere) = some s ∧
      step s (.clipboardChanged ClipboardChat.hi) = some b ∧ s.client.isConnected = true ∧
      lastDelivered b.client = none :=
    ⟨_, _, rfl, rfl, rfl, rfl⟩
  exact ⟨s, b, ran, stepped, connected, by simp [given]⟩

/-! ### Chat messages -/

def writtenPacket : Effect → Option Plain
  | .write packet => some packet
  | .attempt .. => none

def written (a : Activity) (input : Input) : List Plain :=
  match step a input with
  | some b => (b.client.effects.drop a.client.effects.length).filterMap writtenPacket
  | none => []

def shown (a : Activity) (input : Input) : List QString :=
  match step a input with
  | some b => b.echoes.drop a.echoes.length
  | none => []

/-- The text of a packet that carries the mark and is written in one piece, as bytes. -/
def chatBytes (m : Plain) : Option (List UInt8) :=
  if fits m ∧ m.type = .clipboardData ∧ (toUtf8 chatMark).isPrefixOf m.plaintext then
    some m.plaintext
  else none

/-- The chat packets that are written while the client is connected. -/
def chatsWritten (a : Activity) (input : Input) : List (List UInt8) :=
  if a.client.isConnected then (written a input).filterMap chatBytes else []

/-- What the messages shown meanwhile are sent as. -/
def chatsShown (a : Activity) (input : Input) : List (List UInt8) :=
  if a.client.isConnected then (shown a input).map fun message => toUtf8 (chatMark ++ message)
  else []

/-- A chat message goes to a socket that is connected, is not the cached text and not too long,
and no text of the clipboard that goes out has the mark. -/
def ChatGoesOut (a : Activity) : Input → Prop
  | .sendChatMessage message => a.client.isConnected = true → trimmed message ≠ [] →
      a.client.socket = .connected ∧ chatMark ++ trimmed message ≠ a.client.lastClipboardText ∧
        Short (chatMark ++ trimmed message)
  | .sendClipboardText text | .clipboardChanged text => a.client.isConnected = true →
      a.client.socket = .connected → text ≠ a.client.lastClipboardText → Short text →
      chatMark.isPrefixOf text = false
  | _ => True

theorem written_of_append {input : Input} {more : List Effect} (stepped : step a input = some b)
    (effects : b.client.effects = a.client.effects ++ more) :
    written a input = more.filterMap writtenPacket := by
  rw [written, stepped]
  simp only [effects, List.drop_left]

theorem filterMap_writtenPacket (packets : List Plain) :
    (packets.map Effect.write).filterMap writtenPacket = packets := by
  rw [List.filterMap_map]
  exact List.filterMap_some

theorem shown_of_append {input : Input} {messages : List QString} (stepped : step a input = some b)
    (echoes : b.echoes = a.echoes ++ messages) : shown a input = messages := by
  rw [shown, stepped]
  simp only [echoes, List.drop_left]

theorem chatBytes_other {m : Plain} (other : m.type ≠ .clipboardData) : chatBytes m = none :=
  if_neg fun all => other all.2.1

theorem chatBytes_text {m : Plain} {text : QString} (type : m.type = .clipboardData)
    (plaintext : m.plaintext = toUtf8 text) :
    chatBytes m =
      if Short text ∧ chatMark.isPrefixOf text then some (toUtf8 text) else none := by
  have own : ∀ u ∈ chatMark, isOwn u = true := List.all_eq_true.mp rfl
  have marks := toUtf8_prefix_iff own text
  rw [← List.isPrefixOf_iff_prefix, ← List.isPrefixOf_iff_prefix] at marks
  simp only [chatBytes, fits, type, plaintext, marks, true_and]
  rfl

theorem connection_silent {e : Event} (moved : SessionConnection.step c e = some d) :
    ∃ more, d.effects = c.effects ++ more ∧
      (more.filterMap writtenPacket).filterMap chatBytes = [] := by
  obtain ⟨same, -⟩ | ⟨-, host, port, attempt⟩ | ⟨-, -, -, m, type, password⟩ :=
    connection_effects moved
  · exact ⟨[], by rw [same, List.append_nil], rfl⟩
  · exact ⟨_, attempt, rfl⟩
  · have silent := @chatBytes_other m (type ▸ nofun)
    exact ⟨_, password, by simp [writtenPacket, silent]⟩

theorem silent_of_other {input : Input} (other : input.payloadType ≠ some .clipboardData)
    (a : Activity) : (written a input).filterMap chatBytes = [] ∧ shown a input = [] := by
  cases stepped : step a input with
  | none => simp [written, shown, stepped]
  | some b =>
    have none_shown : shown a input = [] := by
      refine shown_of_append stepped ?_
      rw [List.append_nil]
      refine (step_members stepped).2.resolve_left ?_
      rintro ⟨message, rfl⟩
      exact other rfl
    refine ⟨?_, none_shown⟩
    by_cases only : input.OnlySends
    · obtain ⟨packets, ⟨-, inputSequence, lastClipboardText, same⟩, types⟩ :=
        sends_of_step stepped only
      have effects : b.client.effects = a.client.effects ++ packets.map .write := by rw [same]
      rw [written_of_append stepped effects, filterMap_writtenPacket,
        List.filterMap_eq_nil_iff]
      intro m member
      refine chatBytes_other fun clipboard => other ?_
      rw [types m member, clipboard]
    · obtain ⟨more, effects, silent⟩ : ∃ more, b.client.effects = a.client.effects ++ more ∧
          (more.filterMap writtenPacket).filterMap chatBytes = [] := by
        cases input with
        | connection e =>
          obtain ⟨d, moved, rfl⟩ := step_connection stepped
          exact connection_silent moved
        | clearConnectionHistory =>
          obtain rfl := Option.some.inj stepped
          exact ⟨[], by simp, rfl⟩
        | passwordRejected out =>
          obtain ⟨-, rfl⟩ := step_passwordRejected stepped
          have quiet := connection_silent (rejectPassword_eq_step out a.client)
          exact quiet
        | _ => exact absurd trivial only
      rw [written_of_append stepped effects, silent]

theorem chats_of_text {input : Input} {text : QString} (stepped : step a input = some b)
    (same : b.client = sendClipboardText text a.client) :
    (written a input).filterMap chatBytes =
      if a.client.socket = .connected ∧ text ≠ a.client.lastClipboardText ∧ Short text ∧
        chatMark.isPrefixOf text then [toUtf8 text] else [] := by
  obtain ⟨m, type, plaintext, effects⟩ := sendClipboardText_effects text a.client
  rw [written_of_append stepped (same ▸ effects), filterMap_writtenPacket]
  by_cases goes : a.client.socket = .connected ∧ text ≠ a.client.lastClipboardText
  · rw [if_pos goes]
    by_cases chat : Short text ∧ chatMark.isPrefixOf text
    · simp [goes.1, goes.2, chatBytes_text type plaintext, chat.1, chat.2]
    · have silent : chatBytes m = none := by rw [chatBytes_text type plaintext, if_neg chat]
      rw [if_neg fun all => chat all.2.2, List.filterMap_cons_none silent, List.filterMap_nil]
  · rw [if_neg goes, if_neg fun all => goes ⟨all.1, all.2.1⟩, List.filterMap_nil]

theorem chats_agree_of_nothing {input : Input} (stepped : step a input = some b)
    (effects : b.client.effects = a.client.effects) (echoes : b.echoes = a.echoes) :
    chatsWritten a input = chatsShown a input := by
  have none_written := @written_of_append a b input [] stepped (by rw [effects, List.append_nil])
  have none_shown := @shown_of_append a b input [] stepped (by rw [echoes, List.append_nil])
  simp only [chatsWritten, chatsShown, none_written, none_shown, List.filterMap_nil, List.map_nil]

/-- A text of the clipboard is shown nowhere, so that it must not be marked as a chat message. -/
theorem chats_agree_iff_of_text {input : Input} {text : QString} (stepped : step a input = some b)
    (same : b.client = sendClipboardText text a.client) (echoes : b.echoes = a.echoes) :
    chatsWritten a input = chatsShown a input ↔ (a.client.isConnected = true →
      a.client.socket = .connected → text ≠ a.client.lastClipboardText → Short text →
      chatMark.isPrefixOf text = false) := by
  rw [chatsWritten, chatsShown, chats_of_text stepped same,
    shown_of_append stepped (echoes.trans (List.append_nil _).symm), List.map_nil]
  split_ifs with connected goes
  · simp [connected, goes.1, goes.2.1, goes.2.2.1, goes.2.2.2]
  · simp only [not_and, Bool.not_eq_true] at goes
    exact iff_of_true rfl fun _ => goes
  · simp [connected]

theorem chats_agree_iff_clipboardChanged (a : Activity) (text : QString) :
    chatsWritten a (.clipboardChanged text) = chatsShown a (.clipboardChanged text) ↔
      ChatGoesOut a (.clipboardChanged text) := by
  by_cases goes : a.client.isConnected = true ∧ text ≠ [] ∧ text ≠ a.client.lastClipboardText
  · have same : (a.setClient (onClipboardChanged text a.client)).client =
        sendClipboardText text a.client := by
      rw [setClient_client, onClipboardChanged_eq, if_pos goes]
    exact chats_agree_iff_of_text rfl same rfl
  · have same : (a.setClient (onClipboardChanged text a.client)).client.effects =
        a.client.effects := by
      rw [setClient_client, onClipboardChanged_eq, if_neg goes]
    refine iff_of_true (chats_agree_of_nothing rfl same rfl) fun connected _ other _ => ?_
    have empty : text = [] := by
      by_contra some_text
      exact goes ⟨connected, some_text, other⟩
    rw [empty]
    rfl

theorem chats_agree_iff_sendChatMessage (a : Activity) (message : QString) :
    chatsWritten a (.sendChatMessage message) = chatsShown a (.sendChatMessage message) ↔
      ChatGoesOut a (.sendChatMessage message) := by
  have done : step a (.sendChatMessage message) = some (sendChatMessage message a) := rfl
  rw [sendChatMessage_eq] at done
  by_cases empty : trimmed message = []
  · rw [if_pos empty] at done
    exact iff_of_true (chats_agree_of_nothing done rfl rfl) fun _ some_text =>
      absurd empty some_text
  · rw [if_neg empty] at done
    have marked : chatMark.isPrefixOf (chatMark ++ trimmed message) = true :=
      List.isPrefixOf_iff_prefix.mpr (List.prefix_append _ _)
    rw [chatsWritten, chatsShown, chats_of_text done rfl, shown_of_append done rfl,
      List.map_singleton]
    simp only [ChatGoesOut, marked, and_true]
    split_ifs with connected goes
    · exact iff_of_true rfl fun _ _ => goes
    · exact iff_of_false nofun fun out => goes (out connected empty)
    · exact iff_of_true rfl fun up => absurd up connected

theorem chats_agree_iff (a : Activity) (input : Input) :
    chatsWritten a input = chatsShown a input ↔ ChatGoesOut a input := by
  have quiet : input.payloadType ≠ some .clipboardData →
      chatsWritten a input = chatsShown a input := by
    intro other
    obtain ⟨none_written, none_shown⟩ := silent_of_other other a
    rw [chatsWritten, chatsShown, none_written, none_shown, List.map_nil]
  cases input with
  | sendClipboardText text => exact chats_agree_iff_of_text rfl rfl rfl
  | clipboardChanged text => exact chats_agree_iff_clipboardChanged a text
  | sendChatMessage message => exact chats_agree_iff_sendChatMessage a message
  | _ => exact iff_of_true (quiet nofun) trivial

/-- At every point of a run, the chat packets written while the client is connected are the
messages shown meanwhile, exactly if each chat message goes out and each other text does
not look like one. -/
theorem chats_written_iff_shown {history : List HistoryRecord} {inputs : List Input}
    (ran : run (start history) inputs = some a) :
    (∀ before after, inputs = before ++ after →
      Transitions.outputs step chatsWritten (start history) before =
        Transitions.outputs step chatsShown (start history) before) ↔
    Transitions.Throughout step ChatGoesOut (start history) inputs := by
  rw [Transitions.outputs_agree_iff chatsWritten chatsShown ran]
  exact forall₄_congr fun before input after s => by simp only [chats_agree_iff]

def chatting : List Input :=
  opened ++ [.sendChatMessage ClipboardChat.hi, .clipboardChanged ClipboardChat.hi,
    .sendChatMessage ClipboardChat.hi]

theorem chats_written_iff_shown_chatting :
    ∃ a, run (start []) chatting = some a ∧ ∀ before after, chatting = before ++ after →
      Transitions.outputs step chatsWritten (start []) before =
        Transitions.outputs step chatsShown (start []) before := by
  refine ⟨_, rfl, (chats_written_iff_shown rfl).mpr ?_⟩
  refine Transitions.throughout_cons trivial fun s connecting => ?_
  refine Transitions.throughout_cons trivial fun s opens => ?_
  obtain rfl := Option.some.inj connecting
  obtain rfl := Option.some.inj opens
  refine Transitions.throughout_cons (fun _ _ => ⟨rfl, by decide, by decide⟩) fun s first => ?_
  obtain rfl := Option.some.inj first
  refine Transitions.throughout_cons (fun _ _ _ _ => rfl) fun s copied => ?_
  obtain rfl := Option.some.inj copied
  refine Transitions.throughout_cons (fun _ _ => ⟨rfl, by decide, by decide⟩) fun s second => ?_
  exact Transitions.throughout_nil

/-- The same message twice is shown twice and sent once. -/
theorem repeated_message_is_not_sent :
    ∃ a, run (start []) (opened ++ [.sendChatMessage ClipboardChat.hi,
        .sendChatMessage ClipboardChat.hi]) = some a ∧
      Transitions.outputs step chatsWritten (start []) (opened ++
        [.sendChatMessage ClipboardChat.hi, .sendChatMessage ClipboardChat.hi]) ≠
      Transitions.outputs step chatsShown (start []) (opened ++
        [.sendChatMessage ClipboardChat.hi, .sendChatMessage ClipboardChat.hi]) := by
  let message : List UInt8 := toUtf8 (chatMark ++ ClipboardChat.hi)
  have sent : Transitions.outputs step chatsWritten (start []) (opened ++
      [.sendChatMessage ClipboardChat.hi, .sendChatMessage ClipboardChat.hi]) = [message] := rfl
  have seen : Transitions.outputs step chatsShown (start []) (opened ++
      [.sendChatMessage ClipboardChat.hi, .sendChatMessage ClipboardChat.hi]) =
        [message, message] := rfl
  refine ⟨_, rfl, ?_⟩
  rw [sent, seen]
  simp

end RemoteAccess.ClipboardDelivery

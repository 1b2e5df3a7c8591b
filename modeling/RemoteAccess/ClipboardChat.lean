import RemoteAccess.QtUtf8
import RemoteAccess.SessionPackets

/-! Two kinds of text in packets of one type. A chat message is told from a clipboard
text by the `CHAT:` in front of it, which the client's handler looks for and the
agent's does not. -/

namespace RemoteAccess.ClipboardChat

open ProtocolCodec QtText QtUtf8 SealedMessage SessionReceive SessionSend SessionPackets
open AgentPacketHandler (Host ClientSocket handleClientPacket handleClientPacket_message
  handleClipboardData openPacket_message payload_ne_nil)

/-- The packets written, and the text shown as sent by `"You"`. -/
def sendChatMessage (message : QString) (c : Sender) : Sender × List Plain × Option QString :=
  if (trimmed message).isEmpty then (c, [], none) else
  let cleanMsg := trimmed message
  let (c, packets) := sendClipboardText (chatMark ++ cleanMsg) c
  (c, packets, some cleanMsg)

inductive Sent
  | clipboard (text : QString)
  | chat (message : QString)

namespace Sent

def packets (c : Sender) : Sent → List Plain
  | .clipboard text => (sendClipboardText text c).2
  | .chat message => (sendChatMessage message c).2.1

def text : Sent → QString
  | .clipboard text => text
  | .chat message => chatMark ++ trimmed message

end Sent

theorem sendClipboardText_emitted {text : QString} {c : Sender} {m : Plain}
    (written : m ∈ (sendClipboardText text c).2) :
    m.type = .clipboardData ∧ m.plaintext = toUtf8 text :=
  @Call.emitted (.sendClipboardText text) c m written

theorem Sent.emitted {sent : Sent} {c : Sender} {m : Plain} (written : m ∈ sent.packets c) :
    m.type = .clipboardData ∧ m.plaintext = toUtf8 sent.text := by
  cases sent with
  | clipboard text => exact sendClipboardText_emitted written
  | chat message =>
    simp only [Sent.packets, sendChatMessage] at written
    split_ifs at written with empty
    · simp at written
    · exact sendClipboardText_emitted written

/-! ### What the receivers do -/

/-- The agent sets its clipboard to a clipboard text, and to no chat message. -/
def AgentTells (effects : List AgentPacketHandler.Effect) : Sent → Prop
  | .clipboard text => effects = [.setClipboardText text]
  | .chat _ => ∀ text, .setClipboardText text ∉ effects

/-- The client sets its clipboard to a clipboard text and shows no chat; a chat
message it does not write to its clipboard. -/
def ClientTells (before after : List ClientEffect) : Sent → Prop
  | .clipboard text => after = before ++ [.setClipboardText text, .clipboardTextReceived text]
  | .chat _ => ∃ new, after = before ++ new ∧ ∀ text, .setClipboardText text ∉ new

/-- A text that is received at all, and as it was. -/
def Readable (text : QString) : Prop := text ≠ [] ∧ survives text = true

section Receivers

variable (oversized : Nat → UInt64) (qUncompress : List UInt8 → List UInt8) {m : Plain}
  {text : QString} (type : m.type = .clipboardData) (plaintext : m.plaintext = toUtf8 text)
  (fits : headerSize + (m.plaintext.length + CryptoEngine.tagSize) < 2 ^ 31)
include type plaintext fits

theorem agent_effects {host : Host} {socket : ClientSocket}
    (clipboard : host.hasClipboard = true) (authenticated : socket.authenticated = true) :
    (handleClientPacket oversized host socket (m.message oversized).packet).2 =
      if text = [] then []
      else [.setClipboardText (fromUtf8 (toUtf8 text) (intOfSize (toUtf8 text).length))] := by
  rw [handleClientPacket_message oversized (by omega), type, if_neg (by decide), authenticated,
    if_neg (by decide), if_neg (by decide), if_pos rfl, plaintext, handleClipboardData]
  simp only [List.isEmpty_iff, toUtf8_eq_nil_iff, clipboard, if_true]

theorem client_effects (r : Receiver Session) (clipboard : r.session.hasClipboard = true) :
    (dispatch oversized qUncompress (m.message oversized).packet r).session.effects =
      r.session.effects ++
        if text = [] then []
        else
          let received := fromUtf8 (toUtf8 text) (intOfSize (toUtf8 text).length)
          if chatMark.isPrefixOf received then [.chatMessageReceived remoteHost (received.drop 5)]
          else [.setClipboardText received, .clipboardTextReceived received] := by
  have sealed : m.plaintext.length + CryptoEngine.tagSize < 2 ^ 32 := by omega
  have known : (m.message oversized).packet.header.type = .clipboardData := type
  rw [dispatch, known, if_neg fun both => absurd both.1 (by decide),
    if_pos ⟨rfl, payload_ne_nil oversized sealed⟩, withText,
    openPacket_message oversized sealed, plaintext]
  by_cases empty : text = []
  · simp [empty, toUtf8]
  · have some_bytes : ¬ toUtf8 text = [] := mt (toUtf8_eq_nil_iff text).mp empty
    simp only [List.isEmpty_iff, some_bytes, empty, if_false, applyClipboardText]
    split_ifs
    · rfl
    · simp [Session.emit]

end Receivers

/-! ### Telling them apart -/

theorem readBack_cons {u : UInt16} {text : QString}
    (plain : (!(isHighSurrogate u || isLowSurrogate u)) = true) :
    readBack (u :: text) = u :: readBack text := by
  have same := (unpaired_eq_iff u).mpr plain
  have alone : ¬ isHighSurrogate u = true := by
    intro high
    simp [high] at plain
  cases text with
  | nil => simp only [readBack, same]
  | cons v rest => rw [readBack, if_neg fun pair => alone pair.1, same]

theorem readBack_chatMark (message : QString) :
    readBack (chatMark ++ message) = chatMark ++ readBack message := by
  simp only [chatMark, literal, List.map_cons, List.map_nil, List.cons_append, List.nil_append]
  rw [readBack_cons (by decide), readBack_cons (by decide), readBack_cons (by decide),
    readBack_cons (by decide), readBack_cons (by decide)]

theorem withoutMark_chatMark (message : QString) :
    withoutMark (chatMark ++ message) = chatMark ++ message := if_neg (by simp [chatMark, literal])

def TellsAgent : Sent → Prop
  | .clipboard text => Readable text
  | .chat _ => False

def TellsClient : Sent → Prop
  | .clipboard text => Readable text ∧ chatMark.isPrefixOf text = false
  | .chat _ => True

theorem clipboard_told_iff (before : List ClientEffect) (text received : QString) :
    (before ++ if text = [] then []
      else if chatMark.isPrefixOf received then [.chatMessageReceived remoteHost (received.drop 5)]
      else [.setClipboardText received, .clipboardTextReceived received]) =
        before ++ [.setClipboardText text, .clipboardTextReceived text] ↔
      (text ≠ [] ∧ received = text) ∧ chatMark.isPrefixOf text = false := by
  rw [List.append_cancel_left_eq]
  split_ifs with empty chat
  · simp [empty]
  · refine iff_of_false (by simp) fun told => ?_
    rw [told.1.2, told.2] at chat
    cases chat
  · constructor
    · intro told
      have same := ClientEffect.setClipboardText.inj (List.cons.inj told).1
      rw [same] at chat
      exact ⟨⟨empty, same⟩, eq_false_of_ne_true chat⟩
    · intro told
      rw [told.1.2]

section Sites

variable (oversized : Nat → UInt64) (qUncompress : List UInt8 → List UInt8) {sent : Sent}
  {c : Sender} {m : Plain} (written : m ∈ sent.packets c)
  (fits : headerSize + (m.plaintext.length + CryptoEngine.tagSize) < 2 ^ 31)
include written fits

theorem agentTells_iff {host : Host} {socket : ClientSocket} (clipboard : host.hasClipboard = true)
    (authenticated : socket.authenticated = true) :
    AgentTells (handleClientPacket oversized host socket (m.message oversized).packet).2 sent ↔
      TellsAgent sent := by
  obtain ⟨type, plaintext⟩ := Sent.emitted written
  rw [agent_effects oversized type plaintext fits clipboard authenticated]
  rw [plaintext] at fits
  cases sent with
  | clipboard text =>
    have came := @fromUtf8_toUtf8_eq_iff text (by simp only [Sent.text] at fits; omega)
    by_cases empty : text = []
    · simp [Sent.text, AgentTells, TellsAgent, Readable, empty]
    · simp [Sent.text, AgentTells, TellsAgent, Readable, empty, came]
  | chat message =>
    have marked : ¬ chatMark ++ trimmed message = [] := by simp [chatMark, literal]
    simp [Sent.text, AgentTells, TellsAgent, marked]

theorem clientTells_iff (r : Receiver Session) (clipboard : r.session.hasClipboard = true) :
    ClientTells r.session.effects
        (dispatch oversized qUncompress (m.message oversized).packet r).session.effects sent ↔
      TellsClient sent := by
  obtain ⟨type, plaintext⟩ := Sent.emitted written
  have effects := client_effects oversized qUncompress type plaintext fits r clipboard
  rw [plaintext] at fits
  cases sent with
  | clipboard text =>
    have came := @fromUtf8_toUtf8_eq_iff text (by simp only [Sent.text] at fits; omega)
    rw [effects, TellsClient, Readable, ← came]
    exact clipboard_told_iff r.session.effects text _
  | chat message =>
    have came := @fromUtf8_toUtf8 (chatMark ++ trimmed message)
      (by simp only [Sent.text] at fits; omega)
    have marked : ¬ chatMark ++ trimmed message = [] := by simp [chatMark, literal]
    rw [withoutMark_chatMark, readBack_chatMark] at came
    have chat : chatMark.isPrefixOf (chatMark ++ readBack (trimmed message)) = true :=
      List.isPrefixOf_iff_prefix.mpr (List.prefix_append _ _)
    rw [effects]
    simp only [Sent.text, ClientTells, TellsClient, came, marked, chat, if_true, if_false]
    exact iff_of_true ⟨_, rfl, by simp⟩ trivial

end Sites

/-- Whatever its sender and its receivers have done before, a text is taken for what
it was by the agent exactly when it is a readable clipboard text, and by the client
exactly when it is a chat message or a readable clipboard text without the mark. -/
theorem told_apart_iff (oversized : Nat → UInt64) (qUncompress : List UInt8 → List UInt8)
    (sent : Sent) (c : Sender) (m : Plain) (written : m ∈ sent.packets c)
    (fits : headerSize + (m.plaintext.length + CryptoEngine.tagSize) < 2 ^ 31)
    (host : Host) (socket : ClientSocket) (hostClipboard : host.hasClipboard = true)
    (authenticated : socket.authenticated = true) (r : Receiver Session)
    (clipboard : r.session.hasClipboard = true) :
    (AgentTells (handleClientPacket oversized host socket (m.message oversized).packet).2 sent ↔
        TellsAgent sent) ∧
      (ClientTells r.session.effects
          (dispatch oversized qUncompress (m.message oversized).packet r).session.effects sent ↔
        TellsClient sent) :=
  ⟨agentTells_iff oversized written fits hostClipboard authenticated,
    clientTells_iff oversized qUncompress written fits r clipboard⟩

def hi : QString := literal ['h', 'i']

theorem told_apart_iff_hi :
    ∃ m ∈ (Sent.clipboard hi).packets { initial with connected := true },
      AgentTells (handleClientPacket (fun _ => 1) ⟨true, true, []⟩ ⟨true, false⟩
        (m.message fun _ => 1).packet).2 (.clipboard hi) ∧
      ClientTells newSession.effects (dispatch (fun _ => 1) id (m.message fun _ => 1).packet
        ⟨newSession, []⟩).session.effects (.clipboard hi) := by
  refine ⟨_, List.mem_singleton.mpr rfl, ?_⟩
  have told := told_apart_iff (fun _ => 1) id (.clipboard hi) { initial with connected := true }
    _ (List.mem_singleton.mpr rfl) (by decide) ⟨true, true, []⟩ ⟨true, false⟩ rfl rfl
    ⟨newSession, []⟩ rfl
  have readable : Readable hi := ⟨by decide, by decide⟩
  exact ⟨told.1.mpr readable, told.2.mpr ⟨readable, by decide⟩⟩

/-- The chat message and the clipboard text with the mark are one packet: the agent
writes the message to its clipboard, the client shows the text as chat. -/
theorem chat_and_clipboard_mixed_up :
    ∃ m, m ∈ (Sent.chat hi).packets { initial with connected := true } ∧
      m ∈ (Sent.clipboard (chatMark ++ hi)).packets { initial with connected := true } ∧
      ¬ AgentTells (handleClientPacket (fun _ => 1) ⟨true, true, []⟩ ⟨true, false⟩
        (m.message fun _ => 1).packet).2 (.chat hi) ∧
      ¬ ClientTells newSession.effects (dispatch (fun _ => 1) id (m.message fun _ => 1).packet
        ⟨newSession, []⟩).session.effects (.clipboard (chatMark ++ hi)) := by
  have chat : ∃ m, (Sent.chat hi).packets { initial with connected := true } = [m] ∧
      (Sent.clipboard (chatMark ++ hi)).packets { initial with connected := true } = [m] ∧
      headerSize + (m.plaintext.length + CryptoEngine.tagSize) < 2 ^ 31 :=
    ⟨_, rfl, rfl, by decide⟩
  obtain ⟨m, first, second, fits⟩ := chat
  have written : m ∈ (Sent.chat hi).packets { initial with connected := true } := by simp [first]
  have written' : m ∈ (Sent.clipboard (chatMark ++ hi)).packets
      { initial with connected := true } := by simp [second]
  refine ⟨m, written, written', ?_, ?_⟩
  · rw [agentTells_iff (fun _ => 1) written fits rfl rfl]
    exact id
  · rw [clientTells_iff (fun _ => 1) id written' fits ⟨newSession, []⟩ rfl]
    intro told
    exact absurd told.2 (by decide)

end RemoteAccess.ClipboardChat

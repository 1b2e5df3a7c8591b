import RemoteAccess.InputPath
import RemoteAccess.PasswordHandshake
import RemoteAccess.QtUtf8
import RemoteAccess.VideoPath

/-! A whole session, both programs and both directions of the connection between them: the
user's calls, the agent's deliveries of whole packets, frames broadcast, and the client's reads,
in any order and with anything still under way. -/

namespace RemoteAccess.RemoteSession

open ProtocolCodec StreamFraming PacketStream SealedMessage QtText AgentPacketHandler
open SessionReceive SessionSend SessionPackets AgentReceive
open AgentServer (FrameData framePacket)
open PasswordHandshake (connect request connect_packets)
open SocketWrite (writes writes_whole)
open VideoPath (Sendable imageOf act)

variable (oversized : Nat → UInt64) (qCompress qUncompress : List UInt8 → List UInt8)

/-- The two ends, with the packets that the agent has still to be delivered and the bytes that
the client has still to read. -/
structure Link where
  client : Receiver Session
  toAgent : List Plain
  agent : ClientSocket × List Effect
  toClient : List UInt8

abbrev Request := { call : Call // call ≠ .onConnected }

inductive Event
  | call (call : Request)
  /-- A `readyRead` of the agent with `count` packets. -/
  | agentReads (count : Nat)
  /-- A frame that the agent's event loop hands to its clients. -/
  | frame (frame : FrameData)
  /-- An `onReadyRead` of the client with `count` bytes. -/
  | clientReads (count : Nat)

def start (s : Session) (password : QString) : Link where
  client := ⟨(connect s password).1, []⟩
  toAgent := (connect s password).2
  agent := (⟨false, false⟩, [])
  toClient := []

/-- The loops get as much fuel as they have bytes. -/
def step (host : Host) (link : Link) : Event → Option Link
  | .call call =>
    let (sender, packets) := call.val.perform link.client.session.toSender
    some { link with
      client := { link.client with session := { link.client.session with toSender := sender } }
      toAgent := link.toAgent ++ packets }
  | .agentReads count =>
    let data := writes oversized (link.toAgent.take count)
    (readyRead (collect oversized host) (data.length + 1) link.agent data).map fun agent =>
      { link with
        toAgent := link.toAgent.drop count
        agent := agent
        toClient := link.toClient ++
          writes oversized ((agent.2.drop link.agent.2.length).filterMap Effect.sealed) }
  | .frame frame =>
    if link.agent.1.authenticated then
      some { link with
        toClient := link.toClient ++ writes oversized [framePacket qCompress frame] }
    else some link
  | .clientReads count =>
    let data := link.toClient.take count
    (onReadyRead (dispatch oversized qUncompress)
        ((link.client.receiveBuffer ++ data).length + 1) link.client data).map fun client =>
      { link with client := client, toClient := link.toClient.drop count }

def run (host : Host) (start : Link) (events : List Event) : Option Link :=
  Transitions.run (step oversized qCompress qUncompress host) start events

/-! ### What the session is for -/

/-- What a call does to the host of an agent that has let its client in. -/
def wanted (host : Host) : Call → List Effect
  | .onConnected => []
  | .sendInputEvent type x y button delta keycode _ =>
    [.injectEvent { type := ⟨type⟩, x, y, button, delta, keycode }]
  | .sendClipboardText text =>
    if text ≠ [] ∧ host.hasClipboard = true then
      [.setClipboardText (QtUtf8.readBack (QtUtf8.withoutMark text))]
    else []
  | .sendSessionControlAction actionId =>
    .executeAction actionId ::
      if actionId = 2 then
        [.system "loginctl lock-session 2>/dev/null || xdg-screensaver lock 2>/dev/null &"]
      else []

/-- What a session asks for: every call, but of texts that repeat the one before only the
first, and every frame from the moment the agent has let the client in. -/
structure Wishes where
  clipboard : QString
  admitted : Bool
  calls : List Call
  frames : List FrameData

def Wishes.next (wishes : Wishes) : Event → Wishes
  | .call ⟨.sendClipboardText text, _⟩ =>
    if text = wishes.clipboard then wishes
    else { wishes with
      clipboard := text
      calls := wishes.calls ++ [.sendClipboardText text] }
  | .call call => { wishes with calls := wishes.calls ++ [call.val] }
  -- the request is the first packet under way
  | .agentReads count => { wishes with admitted := wishes.admitted || count != 0 }
  | .frame frame =>
    if wishes.admitted then { wishes with frames := wishes.frames ++ [frame] } else wishes
  | .clientReads _ => wishes

/-- `cached` is the text of the clipboard that the client has from before. -/
def wishesOf (cached : QString) (events : List Event) : Wishes :=
  events.foldl Wishes.next ⟨cached, false, [], []⟩

def visible : ClientEffect → Bool
  | .updateFrame _ | .authResponse _ => true
  | _ => false

/-- The answer to the password, then the screen. -/
def expected (granted : Bool) (frames : List FrameData) : List ClientEffect :=
  .authResponse granted :: frames.map fun frame => .updateFrame (imageOf frame)

/-- What an event sends fits into one packet each, and the frames survive compression. -/
def Event.Fits (password : QString) : Event → Prop
  | .call asked =>
    headerSize + ((asked.val.plaintext password).length + CryptoEngine.tagSize) < 2 ^ 31
  | .frame shot =>
    Sendable qCompress shot ∧ qUncompress (qCompress shot.pixelData) = shot.pixelData
  | _ => True

/-! ### The agent's side -/

structure Carries (password : QString) (call : Call) (m : Plain) : Prop where
  later : call ≠ .onConnected
  type : m.type = call.type
  plaintext : m.plaintext = call.plaintext password
  fits : headerSize + (m.plaintext.length + CryptoEngine.tagSize) < 2 ^ 31

variable {oversized qCompress qUncompress} {host : Host} {password : QString}

theorem wanted_privileged (call : Call) : ∀ e ∈ wanted host call, e.privileged = true := by
  cases call with
  | onConnected => simp [wanted]
  | sendInputEvent type x y button delta keycode modifiers => simp [wanted, Effect.privileged]
  | sendClipboardText text =>
    rw [wanted]
    split_ifs
    · simp [Effect.privileged]
    · simp
  | sendSessionControlAction actionId =>
    rw [wanted]
    split_ifs
    · simp [Effect.privileged]
    · simp [Effect.privileged]

theorem wanted_sealed (call : Call) : (wanted host call).filterMap Effect.sealed = [] := by
  rw [List.filterMap_eq_nil_iff]
  intro e member
  have privileged := wanted_privileged call e member
  cases e with
  | write packet => cases privileged
  | _ => rfl

theorem handleInputEvent_wanted (backend : host.hasInputBackend = true) (type : UInt16)
    (x y : Int32) (button : UInt32) (delta : Int32) (keycode modifiers : UInt32) :
    handleInputEvent host ⟨true, false⟩ (inputPlaintext type x y button delta keycode) =
      wanted host (.sendInputEvent type x y button delta keycode modifiers) := by
  have event := InputPath.eventOf_plaintext ⟨type, x, y, button, delta, keycode, modifiers⟩
  have length := InputPath.length_inputPlaintext ⟨type, x, y, button, delta, keycode, modifiers⟩
  rw [InputPath.InputCall.plaintext] at event length
  rw [handleInputEvent, if_pos (Nat.le_of_eq length.symm), if_pos backend, event]
  rfl

theorem handleClipboardData_wanted {text : QString} (short : (toUtf8 text).length < 2 ^ 31) :
    handleClipboardData host (toUtf8 text) = wanted host (.sendClipboardText text) := by
  have empty : (toUtf8 text).isEmpty = true ↔ text = [] := by
    rw [List.isEmpty_iff, toUtf8_eq_nil_iff]
  rw [handleClipboardData, QtUtf8.fromUtf8_toUtf8 short, wanted]
  by_cases none : text = []
  · rw [if_pos (empty.mpr none), if_neg fun both => both.1 none]
  · rw [if_neg (mt empty.mp none)]
    by_cases clipboard : host.hasClipboard = true
    · have both : text ≠ [] ∧ host.hasClipboard = true := ⟨none, clipboard⟩
      rw [if_pos both]
      exact if_pos clipboard
    · have not_both : ¬ (text ≠ [] ∧ host.hasClipboard = true) := fun both => clipboard both.2
      rw [if_neg not_both]
      exact if_neg clipboard

theorem handleSessionControl_wanted (actionId : UInt32) :
    handleSessionControl (LittleEndian.toBytes 4 actionId.toNat) =
      wanted host (.sendSessionControlAction actionId) := by
  have word : LittleEndian.word 0 4 (LittleEndian.toBytes 4 actionId.toNat) =
      actionId.toNat := by
    rw [LittleEndian.word_toBytes_self]
    exact Nat.mod_eq_of_lt actionId.toNat_lt
  have long : 4 ≤ (LittleEndian.toBytes 4 actionId.toNat).length := by simp
  rw [handleSessionControl, if_pos long, word, UInt32.ofNat_toNat]
  rfl

theorem handleClientPacket_carries {call : Call} {m : Plain} (carries : Carries password call m)
    (backend : host.hasInputBackend = true) (granted : Bool) :
    handleClientPacket oversized host ⟨granted, false⟩ (m.message oversized).packet =
      (⟨granted, false⟩, if granted then wanted host call else []) := by
  have fits := carries.fits
  have room : m.plaintext.length + CryptoEngine.tagSize < 2 ^ 32 := by omega
  have unasked : call.type ≠ .authRequest := by
    cases call with
    | onConnected => exact absurd rfl carries.later
    | _ => simp only [Call.type]; decide
  rw [handleClientPacket_message oversized room, carries.type, if_neg unasked]
  cases granted with
  | false => rfl
  | true =>
    rw [if_neg (by simp)]
    have sent := carries.plaintext
    cases call with
    | onConnected => exact absurd rfl carries.later
    | sendInputEvent type x y button delta keycode modifiers =>
      rw [Call.plaintext] at sent
      rw [sent, handleInputEvent_wanted backend type x y button delta keycode modifiers]
      rfl
    | sendClipboardText text =>
      rw [Call.plaintext] at sent
      rw [sent] at fits
      rw [sent, handleClipboardData_wanted (by omega)]
      rfl
    | sendSessionControlAction actionId =>
      rw [Call.plaintext] at sent
      rw [sent, @handleSessionControl_wanted host]
      rfl

theorem foldl_carries {calls : List Call} {packets : List Plain}
    (carried : List.Forall₂ (Carries password) calls packets)
    (backend : host.hasInputBackend = true) (granted : Bool) (before : List Effect) :
    (packets.map fun m => (m.message oversized).packet).foldl (collect oversized host)
        (⟨granted, false⟩, before) =
      (⟨granted, false⟩, before ++ if granted then calls.flatMap (wanted host) else []) := by
  induction carried generalizing before with
  | nil => cases granted <;> simp
  | @cons call m calls packets carries _ ih =>
    rw [List.map_cons, List.foldl_cons, collect, handleClientPacket_carries carries backend, ih]
    cases granted <;> simp

theorem flatMap_wanted_sealed (calls : List Call) :
    (calls.flatMap (wanted host)).filterMap Effect.sealed = [] := by
  rw [List.filterMap_eq_nil_iff]
  intro e member
  obtain ⟨call, -, asked⟩ := List.mem_flatMap.mp member
  exact List.filterMap_eq_nil_iff.mp (wanted_sealed call) e asked

theorem silent_wanted (host : Host) (granted : Bool) (calls : List Call) :
    (if granted then calls.flatMap (wanted host) else []).filterMap Effect.sealed = [] := by
  cases granted with
  | false => rfl
  | true => exact flatMap_wanted_sealed calls

theorem filter_wanted (calls : List Call) :
    (calls.flatMap (wanted host)).filter Effect.privileged = calls.flatMap (wanted host) := by
  rw [List.filter_eq_self]
  intro e member
  obtain ⟨call, -, asked⟩ := List.mem_flatMap.mp member
  exact wanted_privileged call e asked

/-- `asking` is whether the request has still to be handled. -/
def AgentSide (host : Host) (password : QString) (granted asking : Bool) (calls : List Call)
    (link : Link) : Prop :=
  ∃ done left packets, calls = done ++ left ∧ List.Forall₂ (Carries password) left packets ∧
    link.toAgent = (if asking then [request password] else []) ++ packets ∧
    link.agent.1 = ⟨!asking && granted, false⟩ ∧
    link.agent.2.filter Effect.privileged =
      (if granted then done.flatMap (wanted host) else []) ∧
    (asking = true → done = [] ∧ link.agent.2 = [])

theorem step_agentReads {link : Link} {count : Nat} {packets : List Plain}
    (fits : ∀ m ∈ packets, headerSize + (m.plaintext.length + CryptoEngine.tagSize) < 2 ^ 31)
    (next : link.toAgent.take count = packets) {socket : ClientSocket} {added : List Effect}
    (handled : (packets.map fun m => (m.message oversized).packet).foldl (collect oversized host)
      link.agent = (socket, link.agent.2 ++ added)) :
    step oversized qCompress qUncompress host link (.agentReads count) =
      some { link with
        toAgent := link.toAgent.drop count
        agent := (socket, link.agent.2 ++ added)
        toClient := link.toClient ++ writes oversized (added.filterMap Effect.sealed) } := by
  have bytes : writes oversized packets =
      ((packets.map (Plain.message oversized)).map Message.bytes).flatten := by
    rw [writes_whole oversized fits, List.map_map]
    rfl
  have writable : ∀ m ∈ packets.map (Plain.message oversized),
      headerSize + m.payload.length < 2 ^ 31 := by
    intro message member
    obtain ⟨m, among, rfl⟩ := List.mem_map.mp member
    rw [Plain.message, length_sealPayload]
    exact fits m among
  have read := @readyRead_whole _ (collect oversized host) _ _ writable (Nat.lt_succ_self _)
    link.agent
  have same : (packets.map fun m => (m.message oversized).packet) =
      (packets.map (Plain.message oversized)).map Message.packet := by
    rw [List.map_map]
    rfl
  rw [← bytes, ← same, handled] at read
  rw [step, next]
  simp only [read, Option.map_some, List.drop_left]

theorem forall₂_fits {calls : List Call} {packets : List Plain}
    (carried : List.Forall₂ (Carries password) calls packets) :
    ∀ m ∈ packets, headerSize + (m.plaintext.length + CryptoEngine.tagSize) < 2 ^ 31 := by
  induction carried with
  | nil => simp
  | cons carries _ ih => exact List.forall_mem_cons.mpr ⟨carries.fits, ih⟩

/-- What the agent does about the request. -/
def reply (granted : Bool) : List Effect :=
  .setAuthenticated granted :: .write (authResponse 1 granted) ::
    if granted then [] else [.disconnectFromHost]

theorem reply_privileged (granted : Bool) : (reply granted).filter Effect.privileged = [] := by
  cases granted <;> rfl

theorem reply_sealed (granted : Bool) :
    (reply granted).filterMap Effect.sealed = [authResponse 1 granted] := by
  cases granted <;> rfl

/-- The request is for a password that is not empty, and small enough to be written. -/
structure Asks (host : Host) (password : QString) (granted : Bool) : Prop where
  nonempty : password ≠ []
  fits : headerSize + ((toUtf8 password).length + CryptoEngine.tagSize) < 2 ^ 31
  backend : host.hasInputBackend = true
  outcome : passwordAccepted host.dynamicOtp (toUtf8 password) = granted

variable {granted : Bool} {calls : List Call} {frames : List FrameData} {link : Link}

theorem collect_request (asks : Asks host password granted) :
    collect oversized host (⟨false, false⟩, []) ((request password).message oversized).packet =
      (⟨granted, false⟩, reply granted) := by
  have fits := asks.fits
  have room : (request password).plaintext.length + CryptoEngine.tagSize < 2 ^ 32 := by
    change (toUtf8 password).length + _ < _
    omega
  have filled : ¬ (request password).plaintext.isEmpty = true := by
    rw [List.isEmpty_iff]
    exact fun none => asks.nonempty ((toUtf8_eq_nil_iff password).mp none)
  have accepted : passwordAccepted host.dynamicOtp (request password).plaintext = granted :=
    asks.outcome
  have type : (request password).type = .authRequest := rfl
  rw [collect, handleClientPacket_message oversized room, if_pos type, if_neg filled, accepted]
  rfl

/-- A delivery hands over what is still under way, the request first. -/
theorem agentReads_agentSide (asks : Asks host password granted) {asking : Bool}
    (side : AgentSide host password granted asking calls link) (count : Nat) :
    ∃ link', step oversized qCompress qUncompress host link (.agentReads count) =
        some link' ∧ link'.client = link.client ∧
      AgentSide host password granted (asking && count == 0) calls link' ∧
      ((asking && count == 0) = asking ∧ link'.toClient = link.toClient ∨
        asking = true ∧ (asking && count == 0) = false ∧ link'.toClient =
          link.toClient ++ ((authResponse 1 granted).message oversized).bytes) := by
  obtain ⟨done, left, packets, rfl, carried, toAgent, socket, effects, silent⟩ := side
  have fits := forall₂_fits carried
  have agent : link.agent = (⟨!asking && granted, false⟩, link.agent.2) := by rw [← socket]
  cases asking with
  | false =>
    have taken := List.forall₂_take count carried
    have handled := @foldl_carries oversized host password _ _ taken asks.backend granted
      link.agent.2
    rw [Bool.not_false, Bool.true_and] at agent
    rw [← agent] at handled
    refine ⟨_, step_agentReads (fun m member => fits m (List.mem_of_mem_take member))
      (congrArg (List.take count) toAgent) handled, rfl,
      ⟨done ++ left.take count, left.drop count, packets.drop count, ?_,
        List.forall₂_drop count carried, congrArg (List.drop count) toAgent, rfl, ?_, nofun⟩,
      .inl ⟨rfl, ?_⟩⟩
    · rw [List.append_assoc, List.take_append_drop]
    · rw [List.filter_append, effects]
      cases granted with
      | false => simp
      | true => simp [filter_wanted]
    · rw [silent_wanted host granted (left.take count)]
      exact List.append_nil _
  | true =>
    obtain ⟨rfl, idle⟩ := silent rfl
    have queue : link.toAgent = request password :: packets := toAgent
    rw [idle] at agent effects
    cases count with
    | zero =>
      refine ⟨_, @step_agentReads _ _ _ _ link 0 [] (by simp) rfl link.agent.1 [] ?_, rfl,
        ⟨[], left, packets, rfl, carried, toAgent, socket, ?_, fun _ => ⟨rfl, ?_⟩⟩, .inl ⟨rfl, ?_⟩⟩
      · rw [List.map_nil, List.foldl_nil, List.append_nil]
      · rw [idle]
        exact effects
      · rw [idle]
        rfl
      · exact List.append_nil _
    | succ count =>
      have taken := List.forall₂_take count carried
      have handled : ((request password :: packets.take count).map fun m =>
          (m.message oversized).packet).foldl (collect oversized host) link.agent =
            (⟨granted, false⟩, link.agent.2 ++ (reply granted ++
              if granted then (left.take count).flatMap (wanted host) else [])) := by
        rw [agent, List.map_cons, List.foldl_cons, Bool.not_true, Bool.false_and,
          collect_request asks, foldl_carries taken asks.backend, List.nil_append]
      have next : link.toAgent.take (count + 1) = request password :: packets.take count := by
        rw [queue, List.take_succ_cons]
      have first : headerSize + ((request password).plaintext.length + CryptoEngine.tagSize) <
          2 ^ 31 := asks.fits
      refine ⟨_, step_agentReads (List.forall_mem_cons.mpr
        ⟨first, fun m member => fits m (List.mem_of_mem_take member)⟩) next handled, rfl,
        ⟨left.take count, left.drop count, packets.drop count, ?_,
          List.forall₂_drop count carried, ?_, rfl, ?_, nofun⟩, .inr ⟨rfl, rfl, ?_⟩⟩
      · rw [List.nil_append, List.take_append_drop]
      · rw [queue]
        rfl
      · rw [idle, List.nil_append, List.filter_append, reply_privileged, List.nil_append]
        cases granted with
        | false => simp
        | true => simp [filter_wanted]
      · rw [List.filterMap_append, silent_wanted host granted (left.take count), List.append_nil,
          reply_sealed, PasswordHandshake.writes_authResponse]

/-! ### The client's side -/

/-- A client that shows what it gets. -/
structure Ready (password cached : QString) (s : Session) : Prop where
  connected : s.connected = true
  provider : s.hasFrameProvider = true
  active : s.renderGated = false
  password : s.requestedPassword = password
  clipboard : s.lastClipboardText = cached

variable (oversized qUncompress) in
/-- The client's branch for the packet works on the session and shows `e`. -/
structure Brings (m : Plain) (e : ClientEffect) : Prop where
  acts : ∀ s buffer, dispatch oversized qUncompress (m.message oversized).packet ⟨s, buffer⟩ =
    ⟨act oversized qUncompress s (m.message oversized).packet, buffer⟩
  fits : Fits (m.message oversized).packet
  shows : ∀ {password cached s}, Ready password cached s →
    Ready password cached (act oversized qUncompress s (m.message oversized).packet) ∧
      (act oversized qUncompress s (m.message oversized).packet).effects.filter visible =
        s.effects.filter visible ++ [e]

theorem fits_message {m : Plain}
    (room : headerSize + (m.plaintext.length + CryptoEngine.tagSize) < 2 ^ 32) :
    Fits (m.message oversized).packet := by
  have size : (m.message oversized).payload.length =
      m.plaintext.length + CryptoEngine.tagSize := length_sealPayload oversized m.seq m.plaintext
  rw [Fits, Message.size_packet _ (by rw [size]; omega), size]
  exact room

theorem filter_setStatus (s : Session) (status : QString) :
    (s.setStatus status).effects.filter visible = s.effects.filter visible := by
  obtain same | same := s.setStatus_cases status
  · rw [same]
  · rw [same, Session.emit_effects, List.filter_append]
    exact List.append_nil _

theorem Ready.setStatus {s : Session} (ready : Ready password cached s) (status : QString) :
    Ready password cached (s.setStatus status) := by
  obtain same | same := s.setStatus_cases status
  · rwa [same]
  · rw [same]
    exact ⟨ready.connected, ready.provider, ready.active, ready.password, ready.clipboard⟩

/-- What the two answers do before the client hangs up or stays. -/
def verified (s : Session) : Session :=
  (s.emit (.authResponse true)).setStatus (connectedTo s ++ sessionVerified)

def rejected (s : Session) : Session :=
  (s.emit (.authResponse false)).setStatus authenticationFailed

theorem dispatch_reply (granted : Bool) (r : Receiver Session) :
    dispatch oversized qUncompress ((authResponse 1 granted).message oversized).packet r =
      if granted then { r with session := verified r.session }
      else disconnectFromHost { r with session := rejected r.session } := by
  have cut : (authResponse 1 granted).plaintext.length + CryptoEngine.tagSize < 2 ^ 32 := by
    simp [authResponse, CryptoEngine.tagSize]
  rw [dispatch_authResponse oversized qUncompress cut rfl, handleAuthResponse,
    openPacket_message oversized cut]
  cases granted <;> rfl

theorem brings_granted :
    Brings oversized qUncompress (authResponse 1 true) (.authResponse true) where
  acts s buffer := by
    rw [act, dispatch_reply, dispatch_reply]
    rfl
  fits := fits_message (by simp [authResponse, CryptoEngine.tagSize, headerSize])
  shows := by
    intro password cached s ready
    have emitted : Ready password cached (s.emit (.authResponse true)) :=
      ⟨ready.connected, ready.provider, ready.active, ready.password, ready.clipboard⟩
    rw [act, dispatch_reply]
    refine ⟨emitted.setStatus _, ?_⟩
    rw [if_pos rfl, verified, filter_setStatus, Session.emit_effects, List.filter_append]
    rfl

theorem brings_frame {frame : FrameData} (sendable : Sendable qCompress frame)
    (undo : qUncompress (qCompress frame.pixelData) = frame.pixelData) :
    Brings oversized qUncompress (framePacket qCompress frame) (.updateFrame (imageOf frame)) where
  acts s buffer := VideoPath.dispatch_acts oversized qUncompress _ s buffer rfl
  fits := by
    have packet := sendable.packet
    refine fits_message ?_
    rw [VideoPath.length_framePacket sendable]
    omega
  shows := by
    intro password cached s ready
    have packet := sendable.packet
    have room : (framePacket qCompress frame).plaintext.length + CryptoEngine.tagSize <
        2 ^ 32 := by
      rw [VideoPath.length_framePacket sendable]
      omega
    have long : ¬ (s.renderGated = true ∨ (framePacket qCompress frame).plaintext.length < 12) := by
      rw [VideoPath.length_framePacket sendable, ready.active]
      simp
    have shown : act oversized qUncompress s
        ((framePacket qCompress frame).message oversized).packet =
          { s with receivedFrames := s.receivedFrames + 1 }.emit
            (.updateFrame (imageOf frame)) := by
      rw [act, dispatch_frame oversized qUncompress room rfl, if_neg long,
        VideoPath.showFrame_framePacket sendable undo ready.provider]
    rw [shown]
    refine ⟨⟨ready.connected, ready.provider, ready.active, ready.password, ready.clipboard⟩, ?_⟩
    rw [Session.emit_effects, List.filter_append]
    rfl

/-- Packets to the client, each with what it brings. -/
abbrev Items := List (Plain × ClientEffect)

def Items.bytes (oversized : Nat → UInt64) (items : Items) : List UInt8 :=
  (items.map fun item => (item.1.message oversized).bytes).flatten

def Items.effects (items : Items) : List ClientEffect := items.map Prod.snd

theorem foldl_items {items : Items} (brings : ∀ item ∈ items,
      Brings oversized qUncompress item.1 item.2) {s : Session} (ready : Ready password cached s) :
    Ready password cached ((items.map fun item => (item.1.message oversized).packet).foldl
        (act oversized qUncompress) s) ∧
      ((items.map fun item => (item.1.message oversized).packet).foldl
          (act oversized qUncompress) s).effects.filter visible =
        s.effects.filter visible ++ items.effects := by
  induction items generalizing s with
  | nil => exact ⟨ready, (List.append_nil _).symm⟩
  | cons item items ih =>
    obtain ⟨here, later⟩ := List.forall_mem_cons.mp brings
    obtain ⟨still, shown⟩ := here.shows ready
    obtain ⟨last, effects⟩ := ih later still
    refine ⟨last, ?_⟩
    rw [List.map_cons, List.foldl_cons, effects, shown, List.append_assoc]
    rfl

theorem onReadyRead_items {items : Items} (brings : ∀ item ∈ items,
      Brings oversized qUncompress item.1 item.2) {s : Session} (ready : Ready password cached s)
    {buffer data missing : List UInt8}
    (stream : (buffer ++ data) ++ missing = items.bytes oversized) :
    ∃ now later s' tail, items = now ++ later ∧
      onReadyRead (dispatch oversized qUncompress) ((buffer ++ data).length + 1) ⟨s, buffer⟩ data =
        some ⟨s', tail⟩ ∧
      Ready password cached s' ∧
      s'.effects.filter visible = s.effects.filter visible ++ now.effects ∧
      (packetReader true).inspect tail = .wait ∧ tail ++ missing = later.bytes oversized := by
  have bytes : items.bytes oversized =
      ((items.map fun item => item.1.message oversized).map Message.bytes).flatten := by
    rw [List.map_map]
    rfl
  obtain ⟨first, second, tail, split, arrived, waits, rest⟩ :=
    arrived_messages true _ (stream.trans bytes)
  obtain ⟨now, later, rfl, rfl, rfl⟩ := List.map_eq_append_iff.mp split
  have drains := drains_messages true (now.map fun item => item.1.message oversized) waits
  rw [← arrived, List.map_map] at drains
  have here : ∀ item ∈ now, Brings oversized qUncompress item.1 item.2 :=
    fun item member => brings item (List.mem_append_left _ member)
  have all : ∀ p ∈ now.map (Message.packet ∘ fun item => item.1.message oversized),
      (∀ s buffer, dispatch oversized qUncompress p ⟨s, buffer⟩ =
        ⟨act oversized qUncompress s p, buffer⟩) ∧ Fits p := by
    intro p member
    obtain ⟨item, among, rfl⟩ := List.mem_map.mp member
    exact ⟨(here item among).acts, (here item among).fits⟩
  have read := @onReadyRead_of_drains _ (dispatch oversized qUncompress)
    (act oversized qUncompress) (fun p => ∀ s buffer, dispatch oversized qUncompress p ⟨s, buffer⟩ =
      ⟨act oversized qUncompress s p, buffer⟩) _ (fun p s buffer ok => ok s buffer) ⟨s, buffer⟩ data
    _ _ drains all (Nat.lt_succ_self _)
  obtain ⟨still, shown⟩ := foldl_items here ready
  refine ⟨now, later, _, tail, rfl, read, still, shown, waits, ?_⟩
  rw [rest, List.map_map]
  rfl

/-- A client that is refused hangs up, and whatever it had buffered is of no use. -/
theorem refused_reply {s : Session} (ready : Ready password cached s) (buffer : List UInt8) :
    ∃ s' left, dispatch oversized qUncompress ((authResponse 1 false).message oversized).packet
        ⟨s, buffer⟩ = ⟨s', left⟩ ∧ (left = buffer ∨ left = []) ∧ s'.connected = false ∧
      s'.requestedPassword = password ∧
      s'.effects.filter visible = s.effects.filter visible ++ [.authResponse false] := by
  have emitted : Ready password cached (s.emit (.authResponse false)) :=
    ⟨ready.connected, ready.provider, ready.active, ready.password, ready.clipboard⟩
  have told := emitted.setStatus authenticationFailed
  have shown : (rejected s).effects.filter visible =
      s.effects.filter visible ++ [.authResponse false] := by
    rw [rejected, filter_setStatus, Session.emit_effects, List.filter_append]
    rfl
  have hung : (rejected s).connected = true := told.connected
  rw [dispatch_reply, if_neg Bool.false_ne_true, disconnectFromHost, if_neg (by simp [hung])]
  dsimp only
  split_ifs
  · refine ⟨_, buffer, rfl, .inl rfl, rfl, told.password, ?_⟩
    rw [Session.emit_effects, List.filter_append, shown]
    exact List.append_nil _
  · refine ⟨_, [], rfl, .inr rfl, ?_, ?_, ?_⟩
    · exact (Session.setStatus_connected _ _).trans rfl
    · obtain same | same := Session.setStatus_cases
        { ({ rejected s with connected := false }.emit .disconnectFromHost) with
          lastConnectedTarget := [] } disconnectedText
      · rw [same]
        exact told.password
      · rw [same]
        exact told.password
    · rw [filter_setStatus, Session.emit_effects, List.filter_append, shown]
      exact List.append_nil _

/-- The packets for a client that was let in, with what they bring. -/
def admitted (qCompress : List UInt8 → List UInt8) (frames : List FrameData) : Items :=
  (authResponse 1 true, .authResponse true) ::
    frames.map fun frame => (framePacket qCompress frame, .updateFrame (imageOf frame))

theorem effects_admitted (frames : List FrameData) :
    (admitted qCompress frames).effects = expected true frames := by
  rw [admitted, Items.effects, List.map_cons, List.map_map]
  rfl

variable (oversized qCompress qUncompress) in
/-- What the client has shown of what was sent to it. -/
inductive ClientSide (password cached : QString) :
    Bool → Bool → List FrameData → Receiver Session → List UInt8 → Prop
  | asking {s : Session} (granted : Bool) (ready : Ready password cached s)
      (fresh : s.effects = []) :
    ClientSide password cached granted true [] ⟨s, []⟩ []
  | watching {s : Session} {frames : List FrameData} {told left : Items}
    {buffer toClient : List UInt8} (ready : Ready password cached s)
    (items : admitted qCompress frames = told ++ left)
    (brings : ∀ item ∈ admitted qCompress frames, Brings oversized qUncompress item.1 item.2)
    (shown : s.effects.filter visible = told.effects)
    (waits : (packetReader true).inspect buffer = .wait)
    (stream : buffer ++ toClient = left.bytes oversized) :
    ClientSide password cached true false frames ⟨s, buffer⟩ toClient
  | refused {s : Session} {buffer toClient : List UInt8} (ready : Ready password cached s)
    (fresh : s.effects = [])
    (stream : buffer ++ toClient = ((authResponse 1 false).message oversized).bytes)
    (proper : buffer ≠ ((authResponse 1 false).message oversized).bytes) :
    ClientSide password cached false false [] ⟨s, buffer⟩ toClient
  | closed {s : Session} (hung : s.connected = false) (same : s.requestedPassword = password)
    (shown : s.effects.filter visible = [.authResponse false]) :
    ClientSide password cached false false [] ⟨s, []⟩ []

theorem drop_reply {left : List UInt8}
    (known : left = ((authResponse 1 granted).message oversized).bytes ∨ left = []) :
    left.drop (totalPacketSize ((authResponse 1 granted).message oversized).packet) = [] := by
  have room : headerSize + ((authResponse 1 granted).message oversized).payload.length <
      2 ^ 32 := by
    rw [Plain.message, length_sealPayload]
    exact Nat.lt_trans (by decide : headerSize + (1 + CryptoEngine.tagSize) < 2 ^ 31) (by norm_num)
  rw [Message.totalPacketSize_packet _ room]
  obtain rfl | rfl := known
  · exact List.drop_length
  · exact List.drop_nil

theorem onReadyRead_nothing (s : Session) :
    onReadyRead (dispatch oversized qUncompress) 1 ⟨s, []⟩ [] = some ⟨s, []⟩ :=
  onReadyRead_cut (m := (authResponse 1 false).message oversized) (List.nil_prefix)
    (Message.bytes_ne_nil _).symm Nat.one_pos

theorem clientReads_clientSide {cached : QString} {asking : Bool} {client : Receiver Session}
    {toClient : List UInt8} (side : ClientSide oversized qCompress qUncompress password cached
      granted asking frames client toClient) (count : Nat) :
    ∃ client', onReadyRead (dispatch oversized qUncompress)
        ((client.receiveBuffer ++ toClient.take count).length + 1) client (toClient.take count) =
          some client' ∧
      ClientSide oversized qCompress qUncompress password cached granted asking frames client'
        (toClient.drop count) := by
  cases side with
  | asking granted ready fresh =>
    rw [List.take_nil, List.drop_nil]
    exact ⟨_, onReadyRead_nothing _, .asking granted ready fresh⟩
  | @watching s frames told left buffer toClient ready items brings shown waits stream =>
    have cut : (buffer ++ toClient.take count) ++ toClient.drop count = left.bytes oversized := by
      rw [List.append_assoc, List.take_append_drop, stream]
    obtain ⟨now, later, s', tail, rfl, read, still, more, waits', rest⟩ := onReadyRead_items
      (fun item member => brings item (items ▸ List.mem_append_right told member)) ready cut
    have items' : admitted qCompress frames = (told ++ now) ++ later := by
      rw [items, List.append_assoc]
    have shown' : s'.effects.filter visible = Items.effects (told ++ now) := by
      rw [more, shown, Items.effects, Items.effects, Items.effects, List.map_append]
    exact ⟨_, read, .watching still items' brings shown' waits' rest⟩
  | @refused s buffer toClient ready fresh stream proper =>
    have cut : (buffer ++ toClient.take count) ++ toClient.drop count =
        ((authResponse 1 false).message oversized).bytes := by
      rw [List.append_assoc, List.take_append_drop, stream]
    by_cases whole : buffer ++ toClient.take count =
        ((authResponse 1 false).message oversized).bytes
    · obtain ⟨s', left, answered, buffers, hung, same, shown⟩ :=
        @refused_reply oversized qUncompress _ _ _ ready
          ((authResponse 1 false).message oversized).bytes
      have long : 1 < (buffer ++ toClient.take count).length + 1 := by
        rw [whole]
        have pos := List.length_pos_of_ne_nil
          (Message.bytes_ne_nil ((authResponse 1 false).message oversized))
        omega
      have rest : toClient.drop count = [] := by
        rw [whole] at cut
        exact List.append_right_eq_self.mp cut
      rw [fresh] at shown
      rw [rest]
      exact ⟨_, onReadyRead_message whole answered (drop_reply buffers) long,
        .closed hung same shown⟩
    · exact ⟨_, onReadyRead_cut ⟨_, cut⟩ whole (Nat.succ_pos _), .refused ready fresh cut whole⟩
  | @closed s hung same shown =>
    rw [List.take_nil, List.drop_nil]
    exact ⟨_, onReadyRead_nothing _, .closed hung same shown⟩

/-! ### Runs -/

def Link.withSender (link : Link) (sender : Sender) : Link :=
  { link with client := { link.client with
      session := { link.client.session with toSender := sender } } }

theorem Ready.withSender {cached cached' : QString} {s : Session} (ready : Ready password cached s)
    {sender : Sender} (connected : sender.connected = s.connected)
    (same : sender.requestedPassword = s.requestedPassword)
    (clipboard : sender.lastClipboardText = cached') :
    Ready password cached' { s with toSender := sender } where
  connected := connected.trans ready.connected
  provider := ready.provider
  active := ready.active
  password := same.trans ready.password
  clipboard := clipboard

theorem ClientSide.withSender {cached cached' : QString} {asking : Bool}
    (side : ClientSide oversized qCompress qUncompress password cached granted asking frames
      link.client link.toClient) {sender : Sender}
    (connected : sender.connected = link.client.session.connected)
    (same : sender.requestedPassword = link.client.session.requestedPassword)
    (clipboard : sender.lastClipboardText = cached') :
    ClientSide oversized qCompress qUncompress password cached' granted asking frames
      (link.withSender sender).client link.toClient := by
  obtain ⟨client, toAgent, agent, toClient⟩ := link
  cases side with
  | asking granted ready fresh =>
    exact .asking granted (ready.withSender connected same clipboard) fresh
  | watching ready items brings shown waits stream =>
    exact .watching (ready.withSender connected same clipboard) items brings shown waits stream
  | refused ready fresh stream proper =>
    exact .refused (ready.withSender connected same clipboard) fresh stream proper
  | closed hung told shown => exact .closed (connected.trans hung) (same.trans told) shown

theorem ClientSide.sender {cached : QString} {asking : Bool} {client : Receiver Session}
    {toClient : List UInt8} (side : ClientSide oversized qCompress qUncompress password cached
      granted asking frames client toClient) :
    client.session.requestedPassword = password ∧
      (client.session.connected = true ∧ client.session.lastClipboardText = cached ∨
        client.session.connected = false ∧ granted = false ∧
          ∀ cached', ClientSide oversized qCompress qUncompress password cached' granted asking
            frames client toClient) := by
  cases side with
  | asking granted ready fresh => exact ⟨ready.password, .inl ⟨ready.connected, ready.clipboard⟩⟩
  | watching ready items brings shown waits stream =>
    exact ⟨ready.password, .inl ⟨ready.connected, ready.clipboard⟩⟩
  | refused ready fresh stream proper =>
    exact ⟨ready.password, .inl ⟨ready.connected, ready.clipboard⟩⟩
  | closed hung same shown =>
    exact ⟨same, .inr ⟨hung, rfl, fun cached' => .closed hung same shown⟩⟩

variable (oversized qCompress qUncompress) in
/-- Both sides of the connection. A client that was refused may have asked for more. -/
def Invariant (host : Host) (password : QString) (granted : Bool) (wishes : Wishes)
    (link : Link) : Prop :=
  ∃ calls frames, AgentSide host password granted (!wishes.admitted) calls link ∧
    ClientSide oversized qCompress qUncompress password wishes.clipboard granted
      (!wishes.admitted) frames link.client link.toClient ∧
    (granted = true → calls = wishes.calls ∧ frames = wishes.frames)

variable {wishes : Wishes}

theorem perform_closed {call : Call} (later : call ≠ .onConnected) {c : Sender}
    (closed : c.connected = false) : call.perform c = (c, []) := by
  cases call with
  | onConnected => exact absurd rfl later
  | sendInputEvent type x y button delta keycode modifiers =>
    simp [Call.perform, SessionSend.sendInputEvent, closed]
  | sendClipboardText text => simp [Call.perform, SessionSend.sendClipboardText, closed]
  | sendSessionControlAction actionId =>
    simp [Call.perform, SessionSend.sendSessionControlAction, closed]

theorem perform_next (call : Request) {c : Sender} (connected : c.connected = true)
    (same : c.lastClipboardText = wishes.clipboard) (fits : headerSize +
      ((call.val.plaintext c.requestedPassword).length + CryptoEngine.tagSize) < 2 ^ 31) :
    ∃ asked, wishes.next (.call call) =
        { wishes with
          clipboard := (call.val.perform c).1.lastClipboardText
          calls := wishes.calls ++ asked } ∧
      (call.val.perform c).1.connected = c.connected ∧
      (call.val.perform c).1.requestedPassword = c.requestedPassword ∧
      List.Forall₂ (Carries c.requestedPassword) asked (call.val.perform c).2 := by
  obtain ⟨call, later⟩ := call
  cases call with
  | onConnected => exact absurd rfl later
  | sendInputEvent type x y button delta keycode modifiers =>
    simp only [Call.perform, SessionSend.sendInputEvent, connected, not_true_eq_false, if_false]
    exact ⟨[_], by rw [send, same]; rfl, connected, rfl, .cons ⟨later, rfl, rfl, fits⟩ .nil⟩
  | sendClipboardText text =>
    simp only [Call.perform, SessionSend.sendClipboardText, connected, not_true_eq_false, if_false,
      same, Wishes.next]
    split_ifs with repeated
    · exact ⟨[], by rw [same, List.append_nil], connected, rfl, .nil⟩
    · exact ⟨[_], rfl, rfl, rfl, .cons ⟨later, rfl, rfl, fits⟩ .nil⟩
  | sendSessionControlAction actionId =>
    simp only [Call.perform, SessionSend.sendSessionControlAction, connected, not_true_eq_false,
      if_false]
    exact ⟨[_], by rw [send, same]; rfl, connected, rfl, .cons ⟨later, rfl, rfl, fits⟩ .nil⟩

theorem next_call_admitted (wishes : Wishes) (call : Request) :
    (wishes.next (.call call)).admitted = wishes.admitted := by
  obtain ⟨call, later⟩ := call
  cases call with
  | sendClipboardText text =>
    rw [Wishes.next]
    split_ifs <;> rfl
  | _ => rfl

theorem call_invariant (inv : Invariant oversized qCompress qUncompress host password granted
      wishes link) (call : Request)
    (fits : Event.Fits qCompress qUncompress password (.call call)) :
    ∃ link', step oversized qCompress qUncompress host link (.call call) = some link' ∧
      Invariant oversized qCompress qUncompress host password granted (wishes.next (.call call))
        link' := by
  obtain ⟨calls, frames, agent, side, shared⟩ := inv
  obtain ⟨known, ⟨connected, cached⟩ | ⟨closed, rfl, any⟩⟩ := side.sender
  · rw [← known] at fits
    obtain ⟨asked, next, still, same, sent⟩ := perform_next call connected cached fits
    obtain ⟨done, left, packets, rfl, carried, toAgent, socket, effects, silent⟩ := agent
    rw [known] at sent
    refine ⟨_, rfl, done ++ left ++ asked, frames, ?_, ?_, fun let_in => ?_⟩
    · rw [next]
      exact ⟨done, left ++ asked, packets ++ _, List.append_assoc .., List.rel_append carried sent,
        (congrArg (· ++ _) toAgent).trans (List.append_assoc ..), socket, effects, silent⟩
    · rw [next]
      exact side.withSender still same rfl
    · rw [next, (shared let_in).1]
      exact ⟨rfl, (shared let_in).2⟩
  · have idle := perform_closed call.property closed
    refine ⟨link, ?_, calls, frames, ?_, ?_, nofun⟩
    · simp only [step, idle, List.append_nil]
    · rw [next_call_admitted]
      exact agent
    · rw [next_call_admitted]
      exact any _

theorem agentReads_invariant (asks : Asks host password granted)
    (inv : Invariant oversized qCompress qUncompress host password granted wishes link)
    (count : Nat) :
    ∃ link', step oversized qCompress qUncompress host link (.agentReads count) = some link' ∧
      Invariant oversized qCompress qUncompress host password granted
        (wishes.next (.agentReads count)) link' := by
  obtain ⟨calls, frames, agent, side, shared⟩ := inv
  obtain ⟨link', stepped, client, agent', unread⟩ :=
    @agentReads_agentSide oversized qCompress qUncompress _ _ _ _ _ asks _ agent count
  have asking : (!(wishes.next (.agentReads count)).admitted) =
      (!wishes.admitted && count == 0) := by
    cases count <;> simp [Wishes.next]
  refine ⟨link', stepped, calls, frames, asking ▸ agent', ?_, shared⟩
  rw [asking, client]
  obtain ⟨still, same⟩ | ⟨first, now, more⟩ := unread
  · rw [still, same]
    exact side
  · rw [now, more]
    rw [first] at side
    generalize link.client = receiver at side
    generalize link.toClient = toClient at side
    cases side with
    | asking granted ready fresh =>
      rw [List.nil_append]
      cases granted with
      | true =>
        have items : admitted qCompress [] = [] ++ admitted qCompress [] := rfl
        have bytes : [] ++ ((authResponse 1 true).message oversized).bytes =
            (admitted qCompress []).bytes oversized := by
          simp [admitted, Items.bytes]
        refine .watching ready items (fun item member => ?_) ?_ rfl bytes
        · rw [List.mem_singleton.mp member]
          exact brings_granted
        · rw [fresh]
          rfl
      | false => exact .refused ready fresh rfl (Message.bytes_ne_nil _).symm

theorem writes_framePacket {frame : FrameData} (sendable : Sendable qCompress frame) :
    writes oversized [framePacket qCompress frame] =
      ((framePacket qCompress frame).message oversized).bytes := by
  have packet := sendable.packet
  have fits : headerSize + ((framePacket qCompress frame).plaintext.length +
      CryptoEngine.tagSize) < 2 ^ 31 := by
    rwa [VideoPath.length_framePacket sendable]
  rw [writes_whole oversized (List.forall_mem_singleton.mpr fits), List.map_singleton,
    List.flatten_singleton]

theorem frame_invariant
    (inv : Invariant oversized qCompress qUncompress host password granted wishes link)
    (frame : FrameData) (fits : Event.Fits qCompress qUncompress password (.frame frame)) :
    ∃ link', step oversized qCompress qUncompress host link (.frame frame) = some link' ∧
      Invariant oversized qCompress qUncompress host password granted
        (wishes.next (.frame frame)) link' := by
  obtain ⟨calls, frames, agent, side, shared⟩ := inv
  have authenticated : link.agent.1.authenticated = (wishes.admitted && granted) := by
    obtain ⟨-, -, -, -, -, -, socket, -⟩ := agent
    rw [socket, Bool.not_not]
  rw [step, authenticated, Wishes.next]
  cases granted with
  | false =>
    rw [Bool.and_false, if_neg Bool.false_ne_true]
    refine ⟨link, rfl, calls, frames, ?_, ?_, nofun⟩
    · split_ifs <;> exact agent
    · split_ifs <;> exact side
  | true =>
    obtain ⟨rfl, rfl⟩ := shared rfl
    rw [Bool.and_true]
    by_cases let_in : wishes.admitted = true
    · rw [if_pos let_in, if_pos let_in, writes_framePacket fits.1]
      refine ⟨_, rfl, _, wishes.frames ++ [frame], agent, ?_, fun _ => ⟨rfl, rfl⟩⟩
      rw [let_in] at side ⊢
      generalize link.client = receiver at side
      generalize link.toClient = toClient at side
      cases side with
      | @watching s frames told left buffer toClient ready items brings shown waits stream =>
        have more : admitted qCompress (wishes.frames ++ [frame]) =
            admitted qCompress wishes.frames ++
              [(framePacket qCompress frame, .updateFrame (imageOf frame))] := by
          rw [admitted, List.map_append]
          rfl
        have items' : admitted qCompress (wishes.frames ++ [frame]) =
            told ++ (left ++ [(framePacket qCompress frame, .updateFrame (imageOf frame))]) := by
          rw [more, items, List.append_assoc]
        have stream' : buffer ++
            (toClient ++ ((framePacket qCompress frame).message oversized).bytes) =
              Items.bytes oversized
                (left ++ [(framePacket qCompress frame, .updateFrame (imageOf frame))]) := by
          rw [← List.append_assoc, stream, Items.bytes, Items.bytes]
          simp
        refine .watching ready items' (fun item member => ?_) shown waits stream'
        rw [more] at member
        obtain old | new := List.mem_append.mp member
        · exact brings item old
        · rw [List.mem_singleton.mp new]
          exact brings_frame fits.1 fits.2
    · rw [if_neg let_in, if_neg let_in]
      exact ⟨link, rfl, _, _, agent, side, fun _ => ⟨rfl, rfl⟩⟩

theorem clientReads_invariant
    (inv : Invariant oversized qCompress qUncompress host password granted wishes link)
    (count : Nat) :
    ∃ link', step oversized qCompress qUncompress host link (.clientReads count) = some link' ∧
      Invariant oversized qCompress qUncompress host password granted wishes link' := by
  obtain ⟨calls, frames, agent, side, shared⟩ := inv
  obtain ⟨client', read, side'⟩ := clientReads_clientSide side count
  exact ⟨_, congrArg (Option.map _) read, calls, frames, agent, side', shared⟩

theorem step_invariant (asks : Asks host password granted)
    (inv : Invariant oversized qCompress qUncompress host password granted wishes link)
    (event : Event) (fits : event.Fits qCompress qUncompress password) :
    ∃ link', step oversized qCompress qUncompress host link event = some link' ∧
      Invariant oversized qCompress qUncompress host password granted (wishes.next event)
        link' := by
  cases event with
  | call call => exact call_invariant inv call fits
  | agentReads count => exact agentReads_invariant asks inv count
  | frame frame => exact frame_invariant inv frame fits
  | clientReads count => exact clientReads_invariant inv count

theorem run_session (asks : Asks host password granted) {s : Session}
    (provider : s.hasFrameProvider = true) (active : s.renderGated = false) (events : List Event)
    (fits : ∀ event ∈ events, event.Fits qCompress qUncompress password) :
    ∃ link, run oversized qCompress qUncompress host (start s password) events = some link ∧
      Invariant oversized qCompress qUncompress host password granted
        (wishesOf s.lastClipboardText events) link := by
  induction events using List.reverseRecOn with
  | nil =>
    refine ⟨_, rfl, [], [], ⟨[], [], [], rfl, .nil, ?_, rfl, ?_, fun _ => ⟨rfl, rfl⟩⟩,
      .asking granted ⟨rfl, provider, active, rfl, rfl⟩ rfl, fun _ => ⟨rfl, rfl⟩⟩
    · exact connect_packets s password
    · cases granted <;> rfl
  | append_singleton events event ih =>
    rw [List.forall_mem_append] at fits
    obtain ⟨link, ran, inv⟩ := ih fits.1
    obtain ⟨link', stepped, inv'⟩ := step_invariant asks inv event (fits.2 event (by simp))
    refine ⟨link', ?_, ?_⟩
    · rw [run, Transitions.run_concat, ← run, ran, Option.bind_some, stepped]
    · rw [wishesOf, List.foldl_concat]
      exact inv'

theorem items_nil {left : Items} (waits : (packetReader true).inspect
    (left.bytes oversized) = .wait) : left = [] := by
  have bytes : left.bytes oversized =
      ((left.map fun item => item.1.message oversized).map Message.bytes).flatten ++ [] := by
    rw [List.map_map, List.append_nil]
    rfl
  have drains := drains_messages true (left.map fun item => item.1.message oversized) inspect_nil
  rw [← bytes] at drains
  have same := (drains.unique (.wait waits)).1
  rwa [List.map_eq_nil_iff, List.map_eq_nil_iff] at same

theorem ClientSide.told {cached : QString} {asking : Bool} {client : Receiver Session}
    {toClient : List UInt8} (side : ClientSide oversized qCompress qUncompress password cached
      granted asking frames client toClient) :
    ∃ left, expected granted frames = client.session.effects.filter visible ++ left ∧
      (asking = false → toClient = [] → left = []) ∧
      (granted = false → frames = [] ∧
        (client.session.effects.filter visible ≠ [] → client.session.connected = false)) := by
  cases side with
  | asking granted ready fresh =>
    refine ⟨expected granted [], ?_, nofun, fun _ => ⟨rfl, fun some => ?_⟩⟩
    · rw [fresh]
      rfl
    · exact absurd (by rw [fresh]; rfl) some
  | @watching s frames told left buffer toClient ready items brings shown waits stream =>
    refine ⟨left.effects, ?_, fun _ read => ?_, nofun⟩
    · rw [shown, ← effects_admitted, items, Items.effects, List.map_append]
      rfl
    · rw [read, List.append_nil] at stream
      rw [stream] at waits
      rw [items_nil waits]
      rfl
  | @refused s buffer toClient ready fresh stream proper =>
    refine ⟨expected false [], ?_, fun _ read => ?_, fun _ => ⟨rfl, fun some => ?_⟩⟩
    · rw [fresh]
      rfl
    · rw [read, List.append_nil] at stream
      exact absurd stream proper
    · exact absurd (by rw [fresh]; rfl) some
  | closed hung same shown =>
    refine ⟨[], ?_, fun _ _ => rfl, fun _ => ⟨rfl, fun _ => hung⟩⟩
    rw [shown]
    rfl

/-- The host is made to do what the calls ask for, in order and once each, as far as they have
been delivered; the user sees the answer and then the frames, as far as they have been read.
With nothing under way, nothing is missing. -/
structure Served (host : Host) (wishes : Wishes) (link : Link) : Prop where
  done : ∃ done left, wishes.calls = done ++ left ∧
    link.agent.2.filter Effect.privileged = done.flatMap (wanted host) ∧
    (link.toAgent = [] → left = [])
  seen : ∃ left,
    expected true wishes.frames = link.client.session.effects.filter visible ++ left ∧
    (link.toAgent = [] → link.toClient = [] → left = [])

/-- Nothing happens to the host, and a client that has been told so has hung up. -/
structure Refused (link : Link) : Prop where
  untouched : link.agent.2.filter Effect.privileged = []
  told : ∃ left, expected false [] = link.client.session.effects.filter visible ++ left ∧
    (link.toAgent = [] → link.toClient = [] → left = [])
  closed : link.client.session.effects.filter visible ≠ [] → link.client.session.connected = false

/-- Whatever the order of calls, deliveries, frames and reads. -/
theorem session_faithful (asks : Asks host password granted) (s : Session)
    (provider : s.hasFrameProvider = true) (active : s.renderGated = false) (events : List Event)
    (fits : ∀ event ∈ events, event.Fits qCompress qUncompress password) :
    ∃ link, run oversized qCompress qUncompress host (start s password) events = some link ∧
      (granted = true → Served host (wishesOf s.lastClipboardText events) link) ∧
      (granted = false → Refused link) := by
  obtain ⟨link, ran, calls, frames, agent, side, shared⟩ :=
    run_session asks provider active events fits
  obtain ⟨unseen, told, whole, denied⟩ := side.told
  obtain ⟨done, waiting, packets, rfl, carried, toAgent, socket, effects, silent⟩ := agent
  have read : link.toAgent = [] → link.toClient = [] → unseen = [] := by
    intro empty
    refine whole ?_
    cases asking : (wishesOf s.lastClipboardText events).admitted with
    | true => rfl
    | false =>
      rw [asking, empty] at toAgent
      cases toAgent
  refine ⟨link, ran, fun let_in => ?_, fun refused => ?_⟩
  · obtain ⟨same_calls, rfl⟩ := shared let_in
    rw [let_in] at told effects
    refine ⟨⟨done, waiting, same_calls.symm, effects, fun empty => ?_⟩, unseen, told, read⟩
    rw [empty] at toAgent
    obtain ⟨-, rfl⟩ := List.append_eq_nil_iff.mp toAgent.symm
    exact List.forall₂_nil_right_iff.mp carried
  · obtain ⟨rfl, hung⟩ := denied refused
    rw [refused] at told effects
    exact ⟨effects, ⟨unseen, told, read⟩, hung⟩

/-- A press that is sent before the agent has seen the password, a text copied twice, and a
frame read in two pieces. -/
def visit : List Event :=
  [.call ⟨.sendInputEvent 2 100 200 1 0 0 0, nofun⟩, .frame VideoPath.pixel, .agentReads 1,
    .frame VideoPath.pixel, .clientReads 60, .call ⟨.sendClipboardText [104, 105], nofun⟩,
    .agentReads 1, .call ⟨.sendClipboardText [104, 105], nofun⟩,
    .call ⟨.sendSessionControlAction 2, nofun⟩, .clientReads 1000]

theorem session_faithful_visit :
    (wishesOf [] visit).calls = [.sendInputEvent 2 100 200 1 0 0 0,
        .sendClipboardText [104, 105], .sendSessionControlAction 2] ∧
      (wishesOf [] visit).frames = [VideoPath.pixel] ∧
      ∃ link, run (fun _ => 1) (fun _ => VideoPath.compressedPixel)
          (fun _ => VideoPath.pixel.pixelData) PasswordHandshake.agent
          (start newSession masterPassword) visit = some link ∧
        Served PasswordHandshake.agent (wishesOf [] visit) link := by
  have asks : Asks PasswordHandshake.agent masterPassword true :=
    ⟨by decide, by decide, rfl, by decide⟩
  have sendable : Sendable (fun _ => VideoPath.compressedPixel) VideoPath.pixel := by
    constructor <;> decide
  have fits : ∀ event ∈ visit, event.Fits (fun _ => VideoPath.compressedPixel)
      (fun _ => VideoPath.pixel.pixelData) masterPassword := by
    have small : ∀ asked : Request,
        (asked.val.plaintext masterPassword).length ≤ 24 →
          Event.Fits (fun _ => VideoPath.compressedPixel) (fun _ => VideoPath.pixel.pixelData)
            masterPassword (.call asked) := by
      intro asked short
      have long : headerSize + (24 + CryptoEngine.tagSize) < 2 ^ 31 := by decide
      exact Nat.lt_of_le_of_lt (by omega) long
    simp only [visit, List.forall_mem_cons]
    exact ⟨small _ (by decide), ⟨sendable, rfl⟩, trivial, ⟨sendable, rfl⟩, trivial,
      small _ (by decide), trivial, small _ (by decide), small _ (by decide), trivial, by simp⟩
  obtain ⟨link, ran, served, -⟩ := @session_faithful (fun _ => 1) _ _ _ _ _ asks newSession
    rfl rfl visit fits
  exact ⟨rfl, rfl, link, ran, served rfl⟩

end RemoteAccess.RemoteSession

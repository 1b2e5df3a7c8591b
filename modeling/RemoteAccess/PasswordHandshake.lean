import RemoteAccess.SessionPackets
import RemoteAccess.SocketWrite

/-! The password handshake from both ends: the `AuthRequest` of `onConnected`,
the agent's branch for it, and the client's branch for the reply. The agent
means to let an empty password in, but does not answer an empty plaintext. -/

namespace RemoteAccess.PasswordHandshake

open ProtocolCodec PacketStream SealedMessage QtText AgentPacketHandler
open SessionReceive SessionSend SessionPackets SocketWrite

/-- A client whose socket has just connected, and what it has written. -/
def connect (s : Session) (password : QString) : Session × List Plain :=
  let (sender, packets) := onConnected { s.toSender with requestedPassword := password }
  ({ s with toSender := sender, effects := [] }, packets)

variable (oversized : Nat → UInt64) (qUncompress : List UInt8 → List UInt8)

/-- The agent on a new connection whose peer is not loopback, with what it has done. -/
def agentReads (host : Host) (fuel : Nat) (data : List UInt8) :
    Option (ClientSocket × List Effect) :=
  AgentReceive.readyRead (collect oversized host) fuel (⟨false, false⟩, []) data

structure Agree (socket : ClientSocket) (effects : List ClientEffect) : Prop where
  granted : socket.authenticated = true ↔ .authResponse true ∈ effects
  denied : socket.authenticated = false ↔
    .authResponse false ∈ effects ∧ .disconnectFromHost ∈ effects

/-! ### The reply -/

section Reply

variable (seq : UInt64) (granted : Bool) {s : Session}

theorem openPacket_authResponse :
    openPacket oversized ((authResponse seq granted).message oversized).packet =
      some [if granted then 0 else 1] :=
  openPacket_message oversized (by simp [authResponse, CryptoEngine.tagSize])

theorem agree_of_granted (fresh : s.effects = []) (status : QString) {socket : ClientSocket}
    (known : socket.authenticated = true) :
    Agree socket ((s.emit (.authResponse true)).setStatus status).effects where
  granted := by
    rw [Session.mem_setStatus (by simp)]
    simp [known]
  denied := by
    rw [Session.mem_setStatus (by simp)]
    simp [known, fresh]

theorem agree_of_denied (connected : s.connected = true) (fresh : s.effects = [])
    (status : QString) (buffer : List UInt8) :
    ∃ session left, disconnectFromHost
        ⟨(s.emit (.authResponse false)).setStatus status, buffer⟩ = ⟨session, left⟩ ∧
      (left = buffer ∨ left = []) ∧
      ∀ socket : ClientSocket, socket.authenticated = false → Agree socket session.effects := by
  obtain ⟨session, left, closed, buffer_left, effects⟩ := disconnectFromHost_spec
    (s := (s.emit (.authResponse false)).setStatus status)
    ((Session.setStatus_connected _ _).trans connected) buffer
  refine ⟨session, left, closed, buffer_left, fun socket known => ⟨?_, ?_⟩⟩
  · rw [effects _ (by simp), Session.mem_setStatus (by simp)]
    simp [known, fresh]
  · rw [effects _ (by simp), effects _ (by simp), Session.mem_setStatus (by simp)]
    simp [known]

theorem handleAuthResponse_reply (connected : s.connected = true) (fresh : s.effects = [])
    (buffer : List UInt8) :
    ∃ session left,
      handleAuthResponse oversized ((authResponse seq granted).message oversized).packet
        ⟨s, buffer⟩ = ⟨session, left⟩ ∧ (left = buffer ∨ left = []) ∧
      ∀ socket : ClientSocket, socket.authenticated = granted → Agree socket session.effects := by
  rw [handleAuthResponse, openPacket_authResponse]
  cases granted with
  | true => exact ⟨_, _, rfl, .inl rfl, fun socket => agree_of_granted fresh _⟩
  | false => exact agree_of_denied connected fresh _ buffer

end Reply

/-! ### The request -/

def request (password : QString) : Plain := ⟨.authRequest, 1, 0, toUtf8 password⟩

theorem connect_packets (s : Session) (password : QString) :
    (connect s password).2 = [request password] := rfl

/-- The request is written whole and opens to something. -/
structure Answerable (password : QString) : Prop where
  whole : ((request password).message oversized).bytes.length < 2 ^ 31
  opens : ∃ decrypted, openPacket oversized ((request password).message oversized).packet =
    some decrypted ∧ decrypted ≠ []

/-- From 2^32 on the size field of the packet cuts the payload. -/
theorem answerable_iff {password : QString}
    (room : (toUtf8 password).length + CryptoEngine.tagSize < 2 ^ 32) :
    Answerable oversized password ↔ password ≠ [] ∧
      headerSize + ((toUtf8 password).length + CryptoEngine.tagSize) < 2 ^ 31 := by
  have opened : openPacket oversized ((request password).message oversized).packet =
      some (toUtf8 password) := openPacket_message oversized (m := request password) room
  constructor
  · rintro ⟨whole, decrypted, same, nonempty⟩
    obtain rfl := Option.some.inj (opened.symm.trans same)
    exact ⟨mt (toUtf8_eq_nil_iff _).mpr nonempty,
      length_bytes_sealed oversized (m := request password) room ▸ whole⟩
  · rintro ⟨nonempty, whole⟩
    exact ⟨length_bytes_sealed oversized (m := request password) room ▸ whole, _, opened,
      mt (toUtf8_eq_nil_iff _).mp nonempty⟩

section Agent

variable {oversized} {password : QString} {fuel : Nat}

theorem handleClientPacket_request (host : Host) (socket : ClientSocket) :
    handleClientPacket oversized host socket ((request password).message oversized).packet =
      handleAuthRequest oversized host socket ((request password).message oversized).packet := by
  have type : ((request password).message oversized).packet.header.type = .authRequest := rfl
  by_cases nonempty : ((request password).message oversized).packet.payload ≠ []
  · rw [handleClientPacket, if_pos ⟨type, nonempty⟩]
  · have unopened : openPacket oversized ((request password).message oversized).packet = none := by
      rw [openPacket, not_not.mp nonempty]
      rfl
    rw [handleClientPacket, handleAuthRequest, unopened]
    simp [nonempty]

theorem writes_authResponse (seq : UInt64) (granted : Bool) :
    writes oversized [authResponse seq granted] =
      ((authResponse seq granted).message oversized).bytes := by
  rw [writes_whole oversized (by simp [fits, authResponse, headerSize, CryptoEngine.tagSize]),
    List.map_singleton, List.flatten_singleton]

theorem request_answered (host : Host) {decrypted : List UInt8}
    (opened : openPacket oversized ((request password).message oversized).packet = some decrypted)
    (nonempty : decrypted ≠ []) :
    ∃ effects, collect oversized host (⟨false, false⟩, [])
          ((request password).message oversized).packet =
        (⟨passwordAccepted host.dynamicOtp decrypted, false⟩, effects) ∧
      effects.filterMap Effect.sealed =
        [authResponse 1 (passwordAccepted host.dynamicOtp decrypted)] := by
  have filled : ¬ decrypted.isEmpty = true := by simpa using nonempty
  simp only [collect, handleClientPacket_request, handleAuthRequest, opened, filled,
    List.nil_append]
  generalize passwordAccepted host.dynamicOtp decrypted = granted
  exact ⟨_, rfl, by cases granted <;> rfl⟩

theorem request_unanswered (host : Host) (running : 1 < fuel)
    (silent : ¬ Answerable oversized password) :
    agentReads oversized host fuel (writes oversized [request password]) =
      some (⟨false, false⟩, []) := by
  rw [agentReads, writes_singleton]
  by_cases whole : ((request password).message oversized).bytes.length < 2 ^ 31
  · rw [readyRead_message running _ whole, collect, handleClientPacket_request,
      handleAuthRequest]
    cases opened : openPacket oversized ((request password).message oversized).packet with
    | none => rfl
    | some decrypted =>
      have empty : decrypted = [] := by
        by_contra nonempty
        exact silent ⟨whole, decrypted, opened, nonempty⟩
      rw [empty]
      rfl
  · exact readyRead_short (by omega) _
      (length_written_lt (Nat.le_of_not_lt whole))

end Agent

theorem client_told (s : Session) (password : QString) (granted : Bool) {reads : List (List UInt8)}
    {fuel : Nat} (enough : 1 < fuel)
    (arrived : reads.flatten = writes oversized [authResponse 1 granted]) :
    ∃ r, readAll (dispatch oversized qUncompress) fuel ⟨(connect s password).1, []⟩ reads =
        some r ∧ Agree ⟨granted, false⟩ r.session.effects := by
  have cut : (authResponse 1 granted).plaintext.length + CryptoEngine.tagSize < 2 ^ 32 := by
    simp [authResponse, CryptoEngine.tagSize]
  obtain ⟨session, left, replied, buffer, agree⟩ := handleAuthResponse_reply oversized 1 granted
    (s := (connect s password).1) rfl rfl ((authResponse 1 granted).message oversized).bytes
  have last : left.drop
      (totalPacketSize ((authResponse 1 granted).message oversized).packet) = [] := by
    have room : headerSize + ((authResponse 1 granted).message oversized).payload.length <
        2 ^ 32 := by
      rw [Plain.message, length_sealPayload]
      exact Nat.lt_trans (by decide : headerSize + (1 + CryptoEngine.tagSize) < 2 ^ 31)
        (by norm_num)
    rw [Message.totalPacketSize_packet _ room]
    obtain rfl | rfl := buffer
    · exact List.drop_length
    · exact List.drop_nil
  exact ⟨_, readAll_message ((dispatch_authResponse oversized qUncompress cut rfl _).trans replied)
    last enough (arrived.trans (writes_authResponse 1 granted)) (Message.bytes_ne_nil _).symm,
    agree ⟨granted, false⟩ rfl⟩

/-- On a connection whose peer is not loopback both ends know the outcome exactly
when the request opens to something, which is when the password is not empty and its
request below 2^31 bytes. -/
theorem parties_agree_iff (host : Host) (s : Session) (password : QString) (fuel : Nat)
    (enough : 1 < fuel) :
    (∃ socket effects,
      agentReads oversized host fuel (writes oversized (connect s password).2) =
        some (socket, effects) ∧
      ∀ reads : List (List UInt8),
        reads.flatten = writes oversized (effects.filterMap Effect.sealed) →
        ∃ r, readAll (dispatch oversized qUncompress) fuel ⟨(connect s password).1, []⟩ reads =
            some r ∧
          (Agree socket r.session.effects ↔ Answerable oversized password)) ∧
    ((toUtf8 password).length + CryptoEngine.tagSize < 2 ^ 32 →
      (Answerable oversized password ↔ password ≠ [] ∧
        headerSize + ((toUtf8 password).length + CryptoEngine.tagSize) < 2 ^ 31)) := by
  refine ⟨?_, answerable_iff oversized⟩
  rw [connect_packets]
  by_cases answerable : Answerable oversized password
  · obtain ⟨decrypted, opened, nonempty⟩ := answerable.opens
    obtain ⟨effects, handled, reply⟩ := request_answered host opened nonempty
    refine ⟨⟨passwordAccepted host.dynamicOtp decrypted, false⟩, effects, ?_,
      fun reads arrived => ?_⟩
    · rw [agentReads, writes_singleton, readyRead_message enough _ answerable.whole,
        handled]
    · rw [reply] at arrived
      obtain ⟨r, received, agree⟩ := client_told oversized qUncompress s password _ enough arrived
      exact ⟨r, received, iff_of_true agree answerable⟩
  · refine ⟨⟨false, false⟩, [], request_unanswered host enough answerable,
      fun reads arrived => ?_⟩
    refine ⟨_, readAll_nothing (by omega) arrived, iff_of_false (fun agree => ?_) answerable⟩
    have denied := agree.denied.mp rfl
    simp [connect] at denied

def agent : Host := ⟨true, true, literal ['1', '2', '3', '4', '5', '6']⟩

/-- The master password, granted in a reply that arrives in two pieces. -/
theorem parties_agree_iff_master :
    ∃ socket effects granted, granted = writes (fun _ => 1) (effects.filterMap Effect.sealed) ∧
      agentReads (fun _ => 1) agent 2
        (writes (fun _ => 1) (connect newSession masterPassword).2) = some (socket, effects) ∧
      ∃ r, readAll (dispatch (fun _ => 1) id) 2 ⟨(connect newSession masterPassword).1, []⟩
          [granted.take 30, granted.drop 30] = some r ∧
        Agree socket r.session.effects := by
  obtain ⟨⟨socket, effects, handled, told⟩, answered⟩ :=
    parties_agree_iff (fun _ => 1) id agent newSession masterPassword 2 (by decide)
  obtain ⟨r, received, agree⟩ := told
    [(writes (fun _ => 1) (effects.filterMap Effect.sealed)).take 30,
      (writes (fun _ => 1) (effects.filterMap Effect.sealed)).drop 30] (by simp)
  exact ⟨socket, effects, _, rfl, handled, r, received,
    agree.mpr ((answered (by decide)).mpr (by decide))⟩

/-- An empty password is one the agent means to accept, but its request is not
answered: the socket stays unauthenticated and the client waits. -/
theorem empty_password_unanswered :
    passwordAccepted agent.dynamicOtp (toUtf8 []) = true ∧
      agentReads (fun _ => 1) agent 2 (writes (fun _ => 1) (connect newSession []).2) =
        some (⟨false, false⟩, []) ∧
      ∃ r, readAll (dispatch (fun _ => 1) id) 2 ⟨(connect newSession []).1, []⟩ [] = some r ∧
        ¬ Agree ⟨false, false⟩ r.session.effects := by
  have room : (toUtf8 []).length + CryptoEngine.tagSize < 2 ^ 32 := by decide
  have silent : ¬ Answerable (fun _ => 1) [] := by simp [answerable_iff (fun _ => 1) room]
  refine ⟨by decide, request_unanswered agent (by decide) silent, _, rfl, fun agree => ?_⟩
  have denied := agree.denied.mp rfl
  simp [connect] at denied

end RemoteAccess.PasswordHandshake

import RemoteAccess.SealedMessage
import RemoteAccess.SessionReceive

/-! The `readyRead` handler of the agent. Unlike the client it reads into a local
`buffer`, which ends with the call: what the loop leaves there is gone when the
next delivery comes. -/

namespace RemoteAccess.AgentReceive

open ProtocolCodec StreamFraming PacketStream SealedMessage SessionReceive

variable {σ : Type*}

/-- One pass of the `while` loop; `handle` is `handleClientPacket` on the
socket. -/
def readyReadStep (handle : σ → Packet → σ) (s : σ × List UInt8) : Option (σ × List UInt8) :=
  let (agent, buffer) := s
  if buffer.length < 28 then none else
  match decode buffer with
  | .error _ => none
  | .ok packet => some (handle agent packet, buffer.drop (totalPacketSize packet))

def readyRead (handle : σ → Packet → σ) (fuel : Nat) (agent : σ) (data : List UInt8) :
    Option σ :=
  (WhileLoop.run (readyReadStep handle) fuel (agent, data)).map Prod.fst

def deliver (handle : σ → Packet → σ) (fuel : Nat) (agent : σ)
    (deliveries : List (List UInt8)) : Option σ :=
  deliveries.foldlM (readyRead handle fuel) agent

theorem readyReadStep_cases (handle : σ → Packet → σ) (agent : σ) (buffer : List UInt8) :
    readyReadStep handle (agent, buffer) = none ∨
      ∃ packet left, readyReadStep handle (agent, buffer) = some (handle agent packet, left) := by
  unfold readyReadStep
  dsimp only
  split_ifs
  · exact .inl rfl
  · split
    · exact .inl rfl
    · exact .inr ⟨_, _, rfl⟩

theorem readyReadStep_follows (handle : σ → Packet → σ) :
    Follows (packetReader false) (2 ^ 32) Prod.mk handle (readyReadStep handle) where
  wait := by
    intro agent buffer wait
    rw [packetReader_inspect, inspectPacket] at wait
    rw [readyReadStep]
    split at wait
    · cases wait
    · next h => simp [h]
    · next h => simp [h]
    · next h => simp [h]
  skip := by
    intro agent buffer skip
    obtain ⟨skips, -⟩ := (inspectPacket_eq_skip_iff _ _).mp skip
    cases skips
  item := by
    intro agent buffer p item
    have accepted := (inspectPacket_eq_item_iff _ _ _).mp item
    have long : ¬ buffer.length < 28 := Nat.not_lt.mpr ((decode_eq_ok_iff _ _).mp accepted).1.size
    refine ⟨buffer.drop (totalPacketSize p), ?_, fun room => ?_⟩
    · simp only [readyReadStep, accepted, long, if_false]
    · rw [totalPacketSize_eq room, packetReader_size]

theorem readyReadStep_bytes (handle : σ → Packet → σ) (agent : σ) {m : Message}
    (fits : headerSize + m.payload.length < 2 ^ 32) (rest : List UInt8) :
    readyReadStep handle (agent, m.bytes ++ rest) = some (handle agent m.packet, rest) := by
  have item : (packetReader false).inspect (m.bytes ++ rest) = .item m.packet := by
    rw [packetReader_inspect, inspectPacket_eq_item_iff]
    exact m.decode_bytes_append rest
  have size : (packetReader false).size m.packet = m.bytes.length := by
    rw [m.length_bytes, packetReader_size]
  have short : m.payload.length < 2 ^ 32 := by omega
  obtain ⟨left, pass, exact_size⟩ := (readyReadStep_follows handle).item agent item
  have room : m.bytes.length < 2 ^ 32 := by rwa [Message.bytes, length_encode short]
  rw [pass, exact_size (size ▸ room), size, List.drop_left]

/-! ### Deliveries that are whole packets -/

def packetBytes (p : Packet) : List UInt8 :=
  encode p.header.type p.header.sequenceNumber p.header.timestampMs p.payload

theorem packetBytes_packet (m : Message) : packetBytes m.packet = m.bytes := by
  rw [packetBytes, Message.packet, ProtocolCodec.packet, Message.bytes, encode_sentPayload]

theorem take_eq_packetBytes {buffer : List UInt8} {p : Packet} (accepted : decode buffer = .ok p) :
    buffer.take ((packetReader false).size p) = packetBytes p := by
  obtain ⟨-, -, size, bytes⟩ := encode_of_decode accepted
  have short : p.payload.length < 2 ^ 32 := by
    rw [size]
    exact UInt32.toNat_lt _
  have length : (packetBytes p).length = headerSize + p.header.payloadSize.toNat := by
    rw [packetBytes, length_encode short, size]
  rw [packetReader_size, ← length]
  conv_lhs => rw [bytes]
  exact List.take_left

theorem readyRead_consumed {fuel : Nat} {calls calls' : List Packet} {data : List UInt8}
    (done : readyRead record fuel calls data = some calls') :
    ∃ items rest, calls' = calls ++ items ∧
      ((∀ p ∈ items, headerSize + p.header.payloadSize.toNat < 2 ^ 32) →
        data = (items.map packetBytes).flatten ++ rest) := by
  obtain ⟨⟨last, rest⟩, ran, rfl⟩ := Option.map_eq_some_iff.mp done
  obtain ⟨items, rest', same, drains⟩ := (readyReadStep_follows _).drains_of_run ran
  obtain ⟨rfl, rfl⟩ := Prod.mk.inj same
  refine ⟨items, rest, foldl_record calls items, fun sizes => ?_⟩
  refine (drains sizes).consumed (fun buffer skip => ?_) (fun item => ?_)
  · obtain ⟨skips, -⟩ := (inspectPacket_eq_skip_iff _ _).mp skip
    cases skips
  · exact take_eq_packetBytes ((inspectPacket_eq_item_iff _ _ _).mp item)

theorem deliver_consumed {fuel : Nat} {calls calls' : List Packet} {deliveries : List (List UInt8)}
    (done : deliver record fuel calls deliveries = some calls') :
    ∃ handed : List (List Packet), calls' = calls ++ handed.flatten ∧
      ((∀ p ∈ handed.flatten, headerSize + p.header.payloadSize.toNat < 2 ^ 32) →
        List.Forall₂ (fun data items => ∃ rest, data = (items.map packetBytes).flatten ++ rest)
          deliveries handed) := by
  induction deliveries generalizing calls with
  | nil =>
    rw [deliver, List.foldlM_nil] at done
    exact ⟨[], by simpa using (Option.some.inj done).symm, fun _ => .nil⟩
  | cons data deliveries ih =>
    rw [deliver, List.foldlM_cons, Option.bind_eq_bind, Option.bind_eq_some_iff] at done
    obtain ⟨between, first, others⟩ := done
    obtain ⟨items, rest, rfl, consumed⟩ := readyRead_consumed first
    obtain ⟨handed, rfl, later⟩ := ih others
    refine ⟨items :: handed, by rw [List.flatten_cons, List.append_assoc], fun sizes => ?_⟩
    rw [List.flatten_cons, List.forall_mem_append] at sizes
    exact .cons ⟨rest, consumed sizes.1⟩ (later sizes.2)

/-- Where the deliveries hold no more bytes than the packets handed over, none
was left with a rest. -/
theorem whole_of_length_le {deliveries : List (List UInt8)} {handed : List (List Packet)}
    (consumed : List.Forall₂
      (fun data items => ∃ rest, data = (items.map packetBytes).flatten ++ rest)
      deliveries handed) :
    (handed.flatten.map packetBytes).flatten.length ≤ deliveries.flatten.length ∧
      (deliveries.flatten.length ≤ (handed.flatten.map packetBytes).flatten.length →
        deliveries = handed.map fun items => (items.map packetBytes).flatten) := by
  induction consumed with
  | nil => exact ⟨Nat.le_refl _, fun _ => rfl⟩
  | @cons data items deliveries handed head _ ih =>
    obtain ⟨rest, rfl⟩ := head
    obtain ⟨atLeast, whole⟩ := ih
    simp only [List.flatten_cons, List.map_append, List.flatten_append, List.length_append]
    refine ⟨by omega, fun atMost => ?_⟩
    have none_left : rest = [] := List.length_eq_zero_iff.mp (by omega)
    rw [none_left, List.append_nil, List.map_cons, ← whole (by omega)]

theorem exists_groups {handed : List (List Packet)} {ms : List Message}
    (same : handed.flatten = ms.map Message.packet) :
    ∃ groups : List (List Message), groups.flatten = ms ∧
      handed = groups.map (List.map Message.packet) := by
  induction handed generalizing ms with
  | nil =>
    obtain rfl := List.map_eq_nil_iff.mp same.symm
    exact ⟨[], rfl, rfl⟩
  | cons items handed ih =>
    obtain ⟨now, later, rfl, rfl, others⟩ := List.map_eq_append_iff.mp same.symm
    obtain ⟨groups, rfl, rfl⟩ := ih others.symm
    exact ⟨now :: groups, rfl, rfl⟩

theorem packetBytes_messages (ms : List Message) :
    (ms.map Message.packet).map packetBytes = ms.map Message.bytes := by
  rw [List.map_map]
  exact List.map_congr_left fun m _ => packetBytes_packet m

section Writable

/-! The client hands its socket `QByteArray(data, static_cast<int>(size))`, so
what it can write is below 2^31 bytes. -/

variable {ms : List Message} (writable : ∀ m ∈ ms, headerSize + m.payload.length < 2 ^ 31)
include writable

theorem packet_size_lt : ∀ p ∈ ms.map Message.packet,
    headerSize + p.header.payloadSize.toNat < 2 ^ 32 := by
  intro p sent
  obtain ⟨m, mem, rfl⟩ := List.mem_map.mp sent
  have fits := writable m mem
  rw [m.size_packet (by omega)]
  omega

theorem whole_of_handled {deliveries : List (List UInt8)} {fuel : Nat}
    (stream : deliveries.flatten = (ms.map Message.bytes).flatten)
    (handled : deliver record fuel [] deliveries = some (ms.map Message.packet)) :
    ∃ groups : List (List Message), groups.flatten = ms ∧
      deliveries = groups.map fun group => (group.map Message.bytes).flatten := by
  obtain ⟨handed, same, consumed⟩ := deliver_consumed handled
  rw [List.nil_append] at same
  have lists := consumed (same ▸ packet_size_lt writable)
  obtain ⟨-, whole⟩ := whole_of_length_le lists
  obtain ⟨groups, rfl, rfl⟩ := exists_groups same.symm
  refine ⟨groups, rfl, ?_⟩
  rw [whole (by rw [stream, ← same, packetBytes_messages]), List.map_map]
  exact List.map_congr_left fun group _ => congrArg List.flatten (packetBytes_messages group)

end Writable

theorem readyRead_whole {σ : Type*} {handle : σ → Packet → σ} {ms : List Message} {fuel : Nat}
    (writable : ∀ m ∈ ms, headerSize + m.payload.length < 2 ^ 31)
    (enough : (ms.map Message.bytes).flatten.length < fuel) (agent : σ) :
    readyRead handle fuel agent (ms.map Message.bytes).flatten =
      some ((ms.map Message.packet).foldl handle agent) := by
  have d := drains_messages false ms (show (packetReader false).inspect [] = .wait from rfl)
  rw [List.append_nil] at d
  rw [readyRead, (readyReadStep_follows handle).followsOn.run_of_drains d (packet_size_lt writable)
    enough]
  rfl

theorem deliver_whole {σ : Type*} {handle : σ → Packet → σ} {groups : List (List Message)}
    {fuel : Nat} (writable : ∀ m ∈ groups.flatten, headerSize + m.payload.length < 2 ^ 31)
    (enough : (groups.flatten.map Message.bytes).flatten.length < fuel) (agent : σ) :
    deliver handle fuel agent (groups.map fun group => (group.map Message.bytes).flatten) =
      some ((groups.flatten.map Message.packet).foldl handle agent) := by
  induction groups generalizing agent with
  | nil => rfl
  | cons group groups ih =>
    rw [List.flatten_cons, List.forall_mem_append] at writable
    simp only [List.flatten_cons, List.map_append, List.flatten_append,
      List.length_append] at enough
    have first : readyRead handle fuel agent (group.map Message.bytes).flatten =
        some ((group.map Message.packet).foldl handle agent) :=
      readyRead_whole writable.1 (by omega) agent
    have others := ih writable.2 (by omega) ((group.map Message.packet).foldl handle agent)
    rw [deliver] at others
    rw [List.map_cons, deliver, List.foldlM_cons, first, Option.bind_eq_bind, Option.bind_some,
      others, List.flatten_cons, List.map_append, List.foldl_append]

/-- The agent handles every packet, once and in order, exactly when no delivery
ends inside one. -/
theorem agent_handles_every_packet_iff (ms : List Message) (deliveries : List (List UInt8))
    (writable : ∀ m ∈ ms, headerSize + m.payload.length < 2 ^ 31)
    (stream : deliveries.flatten = (ms.map Message.bytes).flatten) :
    (∃ fuel, deliver record fuel [] deliveries = some (ms.map Message.packet)) ↔
      ∃ groups : List (List Message), groups.flatten = ms ∧
        deliveries = groups.map fun group => (group.map Message.bytes).flatten := by
  constructor
  · rintro ⟨fuel, handled⟩
    exact whole_of_handled writable stream handled
  · rintro ⟨groups, rfl, rfl⟩
    refine ⟨_, (deliver_whole writable (Nat.lt_succ_self _) []).trans ?_⟩
    rw [foldl_record, List.nil_append]

theorem agent_handles_every_packet_iff_two :
    ∃ fuel, deliver record fuel []
        [encode .heartbeat 1 0 [7], encode .heartbeat 2 0 []] =
      some [Message.packet ⟨.heartbeat, 1, 0, [7]⟩, Message.packet ⟨.heartbeat, 2, 0, []⟩] :=
  (agent_handles_every_packet_iff [⟨.heartbeat, 1, 0, [7]⟩, ⟨.heartbeat, 2, 0, []⟩]
    [encode .heartbeat 1 0 [7], encode .heartbeat 2 0 []] (by simp [headerSize]) rfl).mpr
    ⟨[[⟨.heartbeat, 1, 0, [7]⟩], [⟨.heartbeat, 2, 0, []⟩]], rfl, rfl⟩

def pointerEvent : Message :=
  Plain.message (fun _ => 1) ⟨.inputEvent, 2, 0, List.replicate 24 0⟩

theorem length_pointerEvent : pointerEvent.payload.length = 40 := by
  rw [pointerEvent, Plain.message, length_sealPayload]
  rfl

theorem not_whole_of_short {groups : List (List Message)} {first second : List UInt8}
    (nonempty : first ≠ []) (short : first.length < headerSize) :
    [first, second] ≠ groups.map fun group => (group.map Message.bytes).flatten := by
  intro whole
  obtain ⟨group, groups, rfl, same, -⟩ := List.map_eq_cons_iff.mp whole.symm
  cases group with
  | nil => exact nonempty same.symm
  | cons m group =>
    rw [← same, List.map_cons, List.flatten_cons, List.length_append, m.length_bytes] at short
    omega

/-- An input event cut after 27 bytes: the client's own loop would hand it over,
the agent never calls `handleClientPacket` for it. -/
theorem agent_loses_cut_input_event :
    (∀ fuel, pointerEvent.bytes.length < fuel →
      readAll (handOver record) fuel ⟨[], []⟩
        [pointerEvent.bytes.take 27, pointerEvent.bytes.drop 27] =
          some ⟨[pointerEvent.packet], []⟩) ∧
      ¬ ∃ fuel, deliver record fuel []
        [pointerEvent.bytes.take 27, pointerEvent.bytes.drop 27] =
          some [pointerEvent.packet] := by
  have length : pointerEvent.bytes.length = 68 := by
    rw [Message.bytes, length_encode (by rw [length_pointerEvent]; norm_num), length_pointerEvent]
    rfl
  have stream : [pointerEvent.bytes.take 27, pointerEvent.bytes.drop 27].flatten =
      ([pointerEvent].map Message.bytes).flatten := by
    simp
  have bytes : ([pointerEvent].map Message.bytes).flatten = pointerEvent.bytes := by simp
  constructor
  · intro fuel enough
    have d := drains_messages true [pointerEvent] inspect_nil
    rw [List.append_nil, ← stream] at d
    exact readAll_of_drains (handOver_acts record) d
      (fits_of_drains d (by rw [stream, bytes, length]; norm_num))
      (by rw [stream, bytes]; exact enough) []
  · rintro ⟨fuel, handled⟩
    have writable : ∀ m ∈ [pointerEvent], headerSize + m.payload.length < 2 ^ 31 := by
      simp [length_pointerEvent, headerSize]
    obtain ⟨groups, -, whole⟩ := whole_of_handled writable stream handled
    have cut : (pointerEvent.bytes.take 27).length = 27 := by rw [List.length_take, length]; rfl
    refine not_whole_of_short (fun empty => ?_) (by rw [cut]; decide) whole
    rw [empty] at cut
    cases cut

end RemoteAccess.AgentReceive

import RemoteAccess.SessionReceive

/-! Garbage in front of the packets: the client drops it byte by byte and comes out exactly
where the first packet starts, unless the garbage contains what a packet starts with. -/

namespace RemoteAccess.Resynchronisation

open LittleEndian ProtocolCodec StreamFraming PacketStream SessionReceive

def signature : List UInt8 :=
  toBytes 4 magicHeader.toNat ++ toBytes 2 protocolVersion.toNat

def OccursAt (bytes : List UInt8) (i : Nat) : Prop := signature <+: bytes.drop i

instance (bytes : List UInt8) (i : Nat) : Decidable (OccursAt bytes i) := by
  unfold OccursAt
  infer_instance

/-- The signature of the packet behind is the first one. -/
def Unsigned (garbage : List UInt8) : Prop :=
  ∀ i < garbage.length, ¬ OccursAt (garbage ++ signature) i

instance (garbage : List UInt8) : Decidable (Unsigned garbage) := by
  unfold Unsigned
  infer_instance

theorem encodeHeader_signature (type : PayloadType) (sequenceNumber timestampMs : UInt64)
    (payloadSize : UInt32) :
    signature <+: encodeHeader type sequenceNumber timestampMs payloadSize := by
  simp only [signature, encodeHeader, List.append_assoc]
  simp only [← List.append_assoc (toBytes 4 _)]
  exact List.prefix_append _ _

theorem bytes_signature (m : Message) : signature <+: m.bytes :=
  (encodeHeader_signature ..).trans (List.prefix_append _ _)

theorem signature_of_headerOk {data : List UInt8} (ok : HeaderOk data) : signature <+: data := by
  rw [ok.split]
  exact (encodeHeader_signature ..).trans (List.prefix_append _ _)

theorem inspect_unsigned {data : List UInt8} (room : headerSize ≤ data.length)
    (unsigned : ¬ signature <+: data) : (packetReader true).inspect data = .skip := by
  rw [packetReader_inspect, inspectPacket_eq_skip_iff]
  refine ⟨rfl, ?_⟩
  have bad : ¬ HeaderOk data := fun ok => unsigned (signature_of_headerOk ok)
  obtain ⟨short, -⟩ | ⟨-, magic⟩ | ⟨-, version⟩ | ⟨⟨ok, -⟩, -⟩ | ⟨⟨ok, -⟩, -⟩ := decode_cases data
  · exact absurd room (Nat.not_le.mpr short)
  · exact .inl magic
  · exact .inr version
  · exact absurd ok bad
  · exact absurd ok bad

/-- An occurrence that starts in the garbage ends before the signature behind it does. -/
theorem occursAt_of_signed {garbage rest : List UInt8} (signed : signature <+: rest) {i : Nat}
    (inside : i < garbage.length) (here : signature <+: (garbage ++ rest).drop i) :
    OccursAt (garbage ++ signature) i := by
  obtain ⟨tail, rfl⟩ := signed
  rw [← List.append_assoc, List.drop_append_of_le_length (by simp; omega)] at here
  refine List.prefix_of_prefix_length_le here (List.prefix_append _ _) ?_
  rw [List.length_drop, List.length_append]
  omega

theorem drains_behind_garbage {garbage : List UInt8} {ms : List Message} (nonempty : ms ≠ [])
    (unsigned : Unsigned garbage) :
    Drains (packetReader true) (garbage ++ (ms.map Message.bytes).flatten)
      (ms.map Message.packet) [] := by
  obtain ⟨first, later, rfl⟩ := List.exists_cons_of_ne_nil nonempty
  have whole : headerSize ≤ first.bytes.length := by
    rw [first.length_bytes]
    omega
  refine Drains.behind_skipped (fun i inside => inspect_unsigned ?_ fun here => ?_) ?_
  · simp only [List.length_drop, List.length_append, List.map_cons, List.flatten_cons]
    omega
  · refine unsigned i inside (occursAt_of_signed ?_ inside here)
    exact (bytes_signature first).trans (List.prefix_append _ _)
  · have drained := drains_messages true (first :: later) inspect_nil
    rwa [List.append_nil] at drained

theorem readAll_behind_garbage {σ : Type*} {dispatch : Packet → Receiver σ → Receiver σ}
    {act : σ → Packet → σ} {ok : Packet → Prop} (acts : ActsOn dispatch act ok)
    {garbage : List UInt8} {ms : List Message} (nonempty : ms ≠ []) (known : ∀ m ∈ ms, ok m.packet)
    (unsigned : Unsigned garbage) {reads : List (List UInt8)}
    (stream : reads.flatten = garbage ++ (ms.map Message.bytes).flatten)
    (short : reads.flatten.length < 2 ^ 32) {fuel : Nat} (enough : reads.flatten.length < fuel)
    (session : σ) :
    readAll dispatch fuel ⟨session, []⟩ reads =
      some ⟨(ms.map Message.packet).foldl act session, []⟩ := by
  have drained := drains_behind_garbage nonempty unsigned
  rw [← stream] at drained
  refine readAll_of_drains acts drained (fun p among => ⟨?_, ?_⟩) enough session
  · obtain ⟨m, member, rfl⟩ := List.mem_map.mp among
    exact known m member
  · exact (fits_of_drains drained short p among).2

/-- Garbage without a signature, then packets, cut anywhere: a dispatch that hands the packets
on and does not close the socket is given exactly the packets. -/
theorem resynchronises (garbage : List UInt8) (ms : List Message) (nonempty : ms ≠ [])
    (unsigned : Unsigned garbage) (reads : List (List UInt8))
    (stream : reads.flatten = garbage ++ (ms.map Message.bytes).flatten)
    (short : reads.flatten.length < 2 ^ 32) (σ : Type) (act : σ → Packet → σ) (session : σ)
    (fuel : Nat) (enough : reads.flatten.length < fuel) :
    readAll (handOver act) fuel ⟨session, []⟩ reads =
      some ⟨(ms.map Message.packet).foldl act session, []⟩ :=
  readAll_behind_garbage (handOver_acts act) nonempty (fun _ _ => trivial) unsigned stream short
    enough session

theorem resynchronises_heartbeat :
    readAll (handOver record) 64 ⟨[], []⟩
        [[0x30, 0x50, 0x41], Message.bytes ⟨.heartbeat, 1, 0, []⟩] =
      some ⟨[Message.packet ⟨.heartbeat, 1, 0, []⟩], []⟩ :=
  resynchronises [0x30, 0x50, 0x41] [⟨.heartbeat, 1, 0, []⟩] (by simp) (by decide)
    [[0x30, 0x50, 0x41], Message.bytes ⟨.heartbeat, 1, 0, []⟩] rfl (by decide) _ record [] 64
    (by decide)

end RemoteAccess.Resynchronisation

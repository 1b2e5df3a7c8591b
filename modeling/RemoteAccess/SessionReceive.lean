import RemoteAccess.PacketStream

/-! `SessionClient::onReadyRead`: each read is appended to `receiveBuffer_` and
the `while` loop runs on the whole. A pass leaves the loop while bytes are
missing, drops one byte of garbage, or dispatches a packet and removes it. The
dispatch on the packet type is a parameter of the loop. -/

namespace RemoteAccess.SessionReceive

open ProtocolCodec StreamFraming PacketStream

structure Receiver (σ : Type*) where
  session : σ
  receiveBuffer : List UInt8

variable {σ : Type*}

/-- One pass of the `while` loop. -/
def receiveStep (dispatch : Packet → Receiver σ → Receiver σ) (r : Receiver σ) :
    Option (Receiver σ) :=
  if r.receiveBuffer.length < 28 then none else
  match decode r.receiveBuffer with
  | .error err =>
    if err = .incompleteHeader ∨ err = .incompletePayload then none
    else some { r with receiveBuffer := r.receiveBuffer.drop 1 }
  | .ok packet =>
    let r := dispatch packet r
    some { r with receiveBuffer := r.receiveBuffer.drop (totalPacketSize packet) }

def onReadyRead (dispatch : Packet → Receiver σ → Receiver σ) (fuel : Nat)
    (r : Receiver σ) (data : List UInt8) : Option (Receiver σ) :=
  WhileLoop.run (receiveStep dispatch) fuel { r with receiveBuffer := r.receiveBuffer ++ data }

/-- One call of `onReadyRead` after the other. -/
def readAll (dispatch : Packet → Receiver σ → Receiver σ) (fuel : Nat)
    (r : Receiver σ) (reads : List (List UInt8)) : Option (Receiver σ) :=
  reads.foldlM (onReadyRead dispatch fuel) r

/-- A dispatch that works on the session and leaves the buffer alone. -/
def handOver (act : σ → Packet → σ) (p : Packet) (r : Receiver σ) : Receiver σ :=
  { r with session := act r.session p }

/-- A dispatch that works on the session for the packets `ok` holds of. -/
def ActsOn (dispatch : Packet → Receiver σ → Receiver σ) (act : σ → Packet → σ)
    (ok : Packet → Prop) : Prop :=
  ∀ p session buffer, ok p → dispatch p ⟨session, buffer⟩ = ⟨act session p, buffer⟩

theorem handOver_acts (act : σ → Packet → σ) : ActsOn (handOver act) act fun _ => True :=
  fun _ _ _ _ => rfl

/-- A packet whose `totalPacketSize` does not wrap. -/
def Fits (p : Packet) : Prop := headerSize + p.header.payloadSize.toNat < 2 ^ 32

section Reads

variable {dispatch : Packet → Receiver σ → Receiver σ} {act : σ → Packet → σ}
  {ok : Packet → Prop} {fuel : Nat}

theorem receiveStep_follows (acts : ActsOn dispatch act ok) :
    FollowsOn (packetReader true) (fun p => ok p ∧ Fits p) Receiver.mk act
      (receiveStep dispatch) where
  wait := by
    intro session buffer wait
    rw [packetReader_inspect, inspectPacket] at wait
    rw [receiveStep]
    split at wait
    · cases wait
    · next h => simp [h]
    · next h => simp [h]
    · cases wait
  skip := by
    intro session buffer skip
    obtain ⟨-, rejected⟩ := (inspectPacket_eq_skip_iff _ _).mp skip
    have long : ¬ buffer.length < 28 := by
      intro short
      have header : decode buffer = .error .incompleteHeader :=
        (decode_eq_error_iff _ _).mpr (.inl ⟨rfl, short⟩)
      simp [header] at rejected
    rw [receiveStep, if_neg long]
    obtain h | h := rejected <;> simp [h]
  item := by
    rintro session buffer p item ⟨known, fits⟩
    have accepted := (inspectPacket_eq_item_iff _ _ _).mp item
    have long : ¬ buffer.length < 28 := Nat.not_lt.mpr ((decode_eq_ok_iff _ _).mp accepted).1.size
    simp only [receiveStep, accepted, acts p session buffer known, long, if_false,
      totalPacketSize_eq fits, packetReader_size]

theorem onReadyRead_of_drains (acts : ActsOn dispatch act ok) {r : Receiver σ}
    {data : List UInt8} {packets : List Packet} {rest : List UInt8}
    (d : Drains (packetReader true) (r.receiveBuffer ++ data) packets rest)
    (all : ∀ p ∈ packets, ok p ∧ Fits p) (enough : (r.receiveBuffer ++ data).length < fuel) :
    onReadyRead dispatch fuel r data = some ⟨packets.foldl act r.session, rest⟩ :=
  (receiveStep_follows acts).run_of_drains d all enough r.session

theorem readAll_of_feeds (acts : ActsOn dispatch act ok) {r : Receiver σ}
    {reads : List (List UInt8)} {packets : List Packet} {rest : List UInt8}
    (f : Feeds (packetReader true) r.receiveBuffer reads packets rest)
    (all : ∀ p ∈ packets, ok p ∧ Fits p)
    (enough : (r.receiveBuffer ++ reads.flatten).length < fuel) :
    readAll dispatch fuel r reads = some ⟨packets.foldl act r.session, rest⟩ := by
  induction reads generalizing r packets with
  | nil =>
    obtain ⟨rfl, rfl⟩ := f
    rfl
  | cons data reads ih =>
    obtain ⟨now, left, later, d, f, rfl⟩ := f
    rw [List.flatten_cons, ← List.append_assoc, List.length_append] at enough
    rw [List.forall_mem_append] at all
    have shrinks := d.length_le
    have first : onReadyRead dispatch fuel r data = some ⟨now.foldl act r.session, left⟩ :=
      onReadyRead_of_drains acts d all.1 (by omega)
    have remaining : (left ++ reads.flatten).length ≤
        (r.receiveBuffer ++ data).length + reads.flatten.length := by
      rw [List.length_append]
      omega
    have others := @ih ⟨now.foldl act r.session, left⟩ later f all.2
      (Nat.lt_of_le_of_lt remaining enough)
    rw [readAll] at others
    rw [readAll, List.foldlM_cons, first, Option.bind_eq_bind, Option.bind_some, others,
      List.foldl_append]

theorem inspect_nil : (packetReader true).inspect [] = .wait := rfl

/-- From an empty buffer only the bytes read count, not how they were cut. -/
theorem readAll_of_drains (acts : ActsOn dispatch act ok) {reads : List (List UInt8)}
    {packets : List Packet} {rest : List UInt8}
    (d : Drains (packetReader true) reads.flatten packets rest)
    (all : ∀ p ∈ packets, ok p ∧ Fits p) (enough : reads.flatten.length < fuel) (session : σ) :
    readAll dispatch fuel ⟨session, []⟩ reads = some ⟨packets.foldl act session, rest⟩ :=
  readAll_of_feeds acts ((feeds_iff_drains inspect_nil _ _ _).mpr d) all enough

theorem fits_of_drains {stream : List UInt8} {packets : List Packet} {rest : List UInt8}
    (d : Drains (packetReader true) stream packets rest) (short : stream.length < 2 ^ 32) :
    ∀ p ∈ packets, True ∧ Fits p :=
  fun p mem => ⟨trivial, Nat.lt_of_le_of_lt (d.size_le p mem) short⟩

end Reads

section OnePacket

variable {dispatch : Packet → Receiver σ → Receiver σ} {m : Message} {session session' : σ}
  {left pending : List UInt8} {fuel : Nat}

theorem onReadyRead_cut {data : List UInt8} (start : pending ++ data <+: m.bytes)
    (proper : pending ++ data ≠ m.bytes) (enough : 0 < fuel) :
    onReadyRead dispatch fuel ⟨session, pending⟩ data = some ⟨session, pending ++ data⟩ := by
  obtain ⟨fuel, rfl⟩ := Nat.exists_eq_add_of_le' enough
  have waits := waits_on_cut true start proper
  refine WhileLoop.run_exit _ ?_
  rw [packetReader_inspect, inspectPacket] at waits
  rw [receiveStep]
  split at waits
  · cases waits
  · next h => simp [h]
  · next h => simp [h]
  · cases waits

theorem onReadyRead_message {data : List UInt8} (whole : pending ++ data = m.bytes)
    (handled : dispatch m.packet ⟨session, m.bytes⟩ = ⟨session', left⟩)
    (last : left.drop (totalPacketSize m.packet) = []) (enough : 1 < fuel) :
    onReadyRead dispatch fuel ⟨session, pending⟩ data = some ⟨session', []⟩ := by
  obtain ⟨fuel, rfl⟩ := Nat.exists_eq_add_of_le' enough
  have read := m.decode_bytes_append []
  rw [List.append_nil] at read
  have long : ¬ m.bytes.length < 28 := by
    rw [m.length_bytes, headerSize]
    omega
  have pass : receiveStep dispatch ⟨session, m.bytes⟩ = some ⟨session', []⟩ := by
    simp only [receiveStep, long, if_false, read, handled, last]
  have stop : receiveStep dispatch ⟨session', []⟩ = none := by simp [receiveStep]
  rw [onReadyRead, whole, WhileLoop.run_pass _ pass, WhileLoop.run_exit _ stop]

theorem readAll_nothing (running : 0 < fuel) {reads : List (List UInt8)}
    (nothing : reads.flatten = []) :
    readAll dispatch fuel ⟨session, []⟩ reads = some ⟨session, []⟩ := by
  obtain ⟨fuel, rfl⟩ := Nat.exists_eq_add_of_le' running
  induction reads with
  | nil => rfl
  | cons data reads ih =>
    obtain ⟨rfl, others⟩ := List.append_eq_nil_iff.mp nothing
    have stop : receiveStep dispatch ⟨session, []⟩ = none := by simp [receiveStep]
    have first : onReadyRead dispatch (fuel + 1) ⟨session, []⟩ [] = some ⟨session, []⟩ :=
      WhileLoop.run_exit _ stop
    rw [readAll, List.foldlM_cons, first]
    exact ih others

theorem readAll_message (handled : dispatch m.packet ⟨session, m.bytes⟩ = ⟨session', left⟩)
    (last : left.drop (totalPacketSize m.packet) = []) (enough : 1 < fuel)
    {reads : List (List UInt8)} (stream : pending ++ reads.flatten = m.bytes)
    (proper : pending ≠ m.bytes) :
    readAll dispatch fuel ⟨session, pending⟩ reads = some ⟨session', []⟩ := by
  have running : 0 < fuel := by omega
  induction reads generalizing pending with
  | nil => exact absurd (by simpa using stream) proper
  | cons data reads ih =>
    rw [List.flatten_cons, ← List.append_assoc] at stream
    rw [readAll, List.foldlM_cons, Option.bind_eq_bind]
    by_cases whole : pending ++ data = m.bytes
    · rw [whole, List.append_right_eq_self] at stream
      rw [onReadyRead_message whole handled last enough, Option.bind_some]
      exact readAll_nothing running stream
    · rw [onReadyRead_cut ⟨_, stream⟩ whole running, Option.bind_some]
      exact ih stream whole

end OnePacket

/-- From an empty buffer the reads hand over what a single read of their
concatenation does and leave the same bytes; encodings followed by a part of one
more come out as they were sent. -/
theorem reassembly_exact :
    (∀ reads : List (List UInt8), reads.flatten.length < 2 ^ 32 →
      ∃ (packets : List Packet) (rest : List UInt8),
        ∀ (σ : Type) (act : σ → Packet → σ) (session : σ) (fuel : Nat),
          reads.flatten.length < fuel →
          readAll (handOver act) fuel ⟨session, []⟩ reads =
              some ⟨packets.foldl act session, rest⟩ ∧
            onReadyRead (handOver act) fuel ⟨session, []⟩ reads.flatten =
              some ⟨packets.foldl act session, rest⟩) ∧
    (∀ (ms : List Message) (next : Message) (tail : List UInt8) (reads : List (List UInt8)),
      tail <+: next.bytes → tail ≠ next.bytes →
      reads.flatten = (ms.map Message.bytes).flatten ++ tail → reads.flatten.length < 2 ^ 32 →
      ∀ (σ : Type) (act : σ → Packet → σ) (session : σ) (fuel : Nat),
        reads.flatten.length < fuel →
        readAll (handOver act) fuel ⟨session, []⟩ reads =
          some ⟨(ms.map Message.packet).foldl act session, tail⟩) := by
  constructor
  · intro reads short
    obtain ⟨packets, rest, d⟩ := exists_drains (packetReader true) reads.flatten
    refine ⟨packets, rest, fun σ act session fuel enough => ⟨?_, ?_⟩⟩
    · exact readAll_of_drains (handOver_acts act) d (fits_of_drains d short) enough session
    · exact onReadyRead_of_drains (handOver_acts act) d (fits_of_drains d short) enough
  · intro ms next tail reads start proper stream short σ act session fuel enough
    have d := drains_messages true ms (waits_on_cut true start proper)
    rw [← stream] at d
    exact readAll_of_drains (handOver_acts act) d (fits_of_drains d short) enough session

end RemoteAccess.SessionReceive

import RemoteAccess.AgentServer

/-! What the agent writes to one socket. The capture thread queues one packet a
frame and the event loop writes it to every viewer; a socket that stays gets
each packet once, in the order of capture, whatever the other sockets do. -/

namespace RemoteAccess.AgentBroadcast

open ProtocolCodec SealedMessage AgentPacketHandler AgentReceive AgentServer

def sentTo (id : SocketId) : Entry → Option Plain
  | .effect other (.write packet) => if other = id then some packet else none
  | .frame other packet => if other = id then some packet else none
  | _ => none

def written (id : SocketId) (log : List Entry) : List Plain := log.filterMap (sentTo id)

theorem written_append (id : SocketId) (log more : List Entry) :
    written id (log ++ more) = written id log ++ written id more := List.filterMap_append

theorem written_other_effects {id other : SocketId} (different : other ≠ id)
    (effects : List Effect) : written id (effects.map (Entry.effect other)) = [] := by
  rw [written, List.filterMap_eq_nil_iff]
  intro entry member
  obtain ⟨e, -, rfl⟩ := List.mem_map.mp member
  cases e <;> simp [sentTo, different]

theorem written_frames (id : SocketId) (ids : List SocketId) (packet : Plain) :
    written id (ids.map (Entry.frame · packet)) = List.replicate (ids.count id) packet := by
  induction ids with
  | nil => rfl
  | cons other ids ih =>
    rw [written] at ih
    rw [written, List.map_cons, List.filterMap_cons, ih, List.count_cons]
    by_cases same : other = id
    · simp [sentTo, same, List.replicate_succ]
    · simp [sentTo, same]

/-! ### The list of clients -/

/-- A socket is listed once, and only after it was accepted. -/
structure Registered (s : Agent) : Prop where
  nodup : s.clients.Nodup
  accepted : ∀ id ∈ s.clients, id < s.nextId

theorem accept_registered {s : Agent} (peer : Peer) (registered : Registered s) :
    Registered (accept s peer) where
  nodup := by
    refine List.nodup_append.mpr ⟨registered.nodup, List.nodup_cons.mpr ⟨by simp, .nil⟩, ?_⟩
    intro id member other new same
    rw [List.mem_singleton.mp new] at same
    exact absurd same (Nat.ne_of_lt (registered.accepted id member))
  accepted := by
    intro id member
    rw [accept, List.mem_append, List.mem_singleton] at member
    obtain old | rfl := member
    · exact Nat.lt_succ_of_lt (registered.accepted id old)
    · exact Nat.lt_succ_self _

section Steps

variable {oversized : Nat → UInt64} {qCompress : List UInt8 → List UInt8} {host : Host}

theorem handleOn_clients (oversized : Nat → UInt64) (host : Host) (id : SocketId) (s : Agent)
    (packet : Packet) :
    (handleOn oversized host id s packet).clients = s.clients ∧
      (handleOn oversized host id s packet).nextId = s.nextId := by
  unfold handleOn
  split <;> exact ⟨rfl, rfl⟩

theorem step_registered {s t : Agent} {event : Event}
    (stepped : step oversized qCompress host s event = some t) (registered : Registered s) :
    Registered t := by
  cases steps_of_step oversized qCompress host stepped with
  | newConnection pending =>
    exact List.foldlRecOn pending accept registered fun s registered peer _ =>
      accept_registered peer registered
  | handled id buffer packet left =>
    obtain ⟨clients, nextId⟩ := handleOn_clients oversized host id s packet
    exact ⟨clients ▸ registered.nodup, clients ▸ nextId ▸ registered.accepted⟩
  | disconnected id =>
    exact ⟨registered.nodup.erase id, fun other member =>
      registered.accepted other (List.mem_of_mem_erase member)⟩
  | unwatched => exact registered
  | readyRead | returned | closed | captured | delivered =>
    exact ⟨registered.nodup, registered.accepted⟩

theorem run_registered {events : List Event} {s : Agent}
    (ran : run oversized qCompress host events = some s) : Registered s :=
  Transitions.run_invariant Registered ⟨List.nodup_nil, by simp [initial]⟩ step_registered ran

/-! ### One viewer -/

/-- A socket that broadcasts are written to, while any handler that runs is for
another one. -/
structure Viewing (id : SocketId) (s : Agent) : Prop where
  listed : id ∈ s.clients
  receives : s.isOpen id = true ∧ ∃ socket, s.sockets id = some socket ∧ socket.authenticated = true
  elsewhere : ∀ other buffer, s.reading = some (other, buffer) → other ≠ id

theorem Viewing.receives_eq {id : SocketId} {s : Agent} (viewing : Viewing id s) :
    AgentServer.receives s id = true := by
  obtain ⟨isOpen, socket, known, authenticated⟩ := viewing.receives
  simp [AgentServer.receives, isOpen, known, authenticated]

def spares (id : SocketId) : Event → Bool
  | .readyRead other _ | .disconnected other | .closed other => decide (other ≠ id)
  | _ => true

def captured : Event → List FrameData
  | .frameCaptured frame => [frame]
  | _ => []

/-- The socket still views, and what was written to it and is queued for it is what
was there before and the packet of a new frame. -/
structure Conserves (qCompress : List UInt8 → List UInt8) (id : SocketId) (s t : Agent)
    (frames : List FrameData) : Prop where
  viewing : Viewing id t
  written : written id t.log ++ t.queued =
    AgentBroadcast.written id s.log ++ s.queued ++ frames.map (framePacket qCompress)

theorem Viewing.unchanged {id : SocketId} {s t : Agent} (viewing : Viewing id s)
    (listed : id ∈ t.clients) (isOpen : t.isOpen id = s.isOpen id)
    (sockets : t.sockets id = s.sockets id)
    (elsewhere : ∀ other buffer, t.reading = some (other, buffer) → other ≠ id)
    (log : ∃ quiet, t.log = s.log ++ quiet ∧ AgentBroadcast.written id quiet = [])
    (queued : t.queued = s.queued) : Conserves qCompress id s t [] where
  viewing := ⟨listed, isOpen ▸ sockets ▸ viewing.receives, elsewhere⟩
  written := by
    obtain ⟨quiet, grown, nothing⟩ := log
    rw [grown, written_append, nothing, queued]
    simp

theorem accept_viewing {id : SocketId} {s : Agent} (peer : Peer) (registered : Registered s)
    (viewing : Viewing id s) : Conserves qCompress id s (accept s peer) [] := by
  have old : id ≠ s.nextId := Nat.ne_of_lt (registered.accepted id viewing.listed)
  refine viewing.unchanged (List.mem_append_left _ viewing.listed) ?_ ?_ viewing.elsewhere
    ⟨_, rfl, rfl⟩ rfl
  · exact Function.update_of_ne old _ _
  · exact Function.update_of_ne old _ _

theorem Conserves.trans {id : SocketId} {s t u : Agent} {frames more : List FrameData}
    (first : Conserves qCompress id s t frames) (second : Conserves qCompress id t u more) :
    Conserves qCompress id s u (frames ++ more) where
  viewing := second.viewing
  written := by rw [second.written, first.written, List.map_append, List.append_assoc]

theorem Viewing.refl {id : SocketId} {s : Agent} (viewing : Viewing id s) :
    Conserves qCompress id s s [] where
  viewing := viewing
  written := by simp

theorem newConnection_viewing {id : SocketId} (pending : List Peer) {s : Agent}
    (registered : Registered s) (viewing : Viewing id s) :
    Conserves qCompress id s (pending.foldl accept s) [] := by
  induction pending generalizing s with
  | nil => exact viewing.refl
  | cons peer pending ih =>
    have first : Conserves qCompress id s (accept s peer) [] :=
      accept_viewing peer registered viewing
    exact first.trans (ih (accept_registered peer registered) first.viewing)

theorem handleOn_viewing {id other : SocketId} {s : Agent} (packet : Packet)
    (different : other ≠ id) (viewing : Viewing id s) (left : List UInt8) :
    Conserves qCompress id s
      { handleOn oversized host other s packet with reading := some (other, left) } [] := by
  have elsewhere : ∀ found buffer, some (other, left) = some (found, buffer) → found ≠ id := by
    rintro found buffer ⟨⟩
    exact different
  unfold handleOn
  split
  · exact viewing.unchanged viewing.listed rfl rfl elsewhere ⟨[], by simp, rfl⟩ rfl
  · exact viewing.unchanged viewing.listed rfl (Function.update_of_ne different.symm _ _) elsewhere
      ⟨_, rfl, written_other_effects different _⟩ rfl

theorem broadcast_viewing {id : SocketId} {s : Agent} {packet : Plain} {queued : List Plain}
    (registered : Registered s) (viewing : Viewing id s) (waiting : s.queued = packet :: queued) :
    Conserves qCompress id s (broadcast { s with queued := queued } packet) [] where
  viewing := ⟨viewing.listed, viewing.receives, viewing.elsewhere⟩
  written := by
    have listed : (s.clients.filter (AgentServer.receives s)).count id = 1 := by
      rw [List.count_filter viewing.receives_eq]
      rw [registered.nodup.count, if_pos viewing.listed]
    have once : AgentBroadcast.written id
        ((s.clients.filter (AgentServer.receives { s with queued := queued })).map
          (Entry.frame · packet)) = [packet] :=
      (written_frames id _ packet).trans (congrArg (List.replicate · packet) listed)
    rw [broadcast, written_append, once, waiting]
    simp

theorem step_viewing {id : SocketId} {s t : Agent} {event : Event}
    (stepped : step oversized qCompress host s event = some t) (registered : Registered s)
    (viewing : Viewing id s) (spared : spares id event = true) :
    Conserves qCompress id s t (captured event) := by
  cases steps_of_step oversized qCompress host stepped with
  | newConnection pending => exact newConnection_viewing pending registered viewing
  | readyRead other data =>
    refine viewing.unchanged viewing.listed rfl rfl ?_ ⟨[], by simp, rfl⟩ rfl
    rintro found buffer ⟨⟩
    exact of_decide_eq_true spared
  | returned other buffer =>
    exact viewing.unchanged viewing.listed rfl rfl (by simp) ⟨[], by simp, rfl⟩ rfl
  | handled other buffer packet left reading =>
    exact handleOn_viewing packet (viewing.elsewhere other buffer reading) viewing left
  | disconnected other =>
    have stays : id ∈ s.clients.erase other :=
      (List.mem_erase_of_ne (of_decide_eq_true spared).symm).mpr viewing.listed
    exact viewing.unchanged stays rfl rfl viewing.elsewhere ⟨[], by simp, rfl⟩ rfl
  | closed other =>
    exact viewing.unchanged viewing.listed
      (Function.update_of_ne (of_decide_eq_true spared).symm _ _) rfl viewing.elsewhere
      ⟨[], by simp, rfl⟩ rfl
  | unwatched frame nobody => exact absurd viewing.listed (by simp [nobody])
  | captured frame =>
    exact ⟨⟨viewing.listed, viewing.receives, viewing.elsewhere⟩,
      by simp [AgentBroadcast.captured]⟩
  | delivered packet queued idle waiting => exact broadcast_viewing registered viewing waiting

/-- Over a run of events that are not about it, a viewer gets the packets that were
queued and those of the frames captured, each once and in order. -/
theorem run_viewing {id : SocketId} {s t : Agent} {events : List Event}
    (ran : Transitions.run (step oversized qCompress host) s events = some t)
    (registered : Registered s) (viewing : Viewing id s)
    (spared : ∀ event ∈ events, spares id event = true) :
    Conserves qCompress id s t (events.flatMap captured) := by
  induction events generalizing s with
  | nil =>
    obtain rfl := Option.some.inj ran
    exact viewing.refl
  | cons event events ih =>
    rw [Transitions.run, List.foldlM_cons, Option.bind_eq_bind, Option.bind_eq_some_iff] at ran
    obtain ⟨between, stepped, others⟩ := ran
    obtain ⟨here, later⟩ := List.forall_mem_cons.mp spared
    have first := step_viewing stepped registered viewing here
    exact first.trans (ih others (step_registered stepped registered) first.viewing later)

end Steps

/-! ### The latest frame -/

def viewers (s : Agent) : List SocketId := s.clients.filter (AgentServer.receives s)

def frameTo (id : SocketId) : Entry → Option Plain
  | .frame other packet => if other = id then some packet else none
  | _ => none

def latestFrame (id : SocketId) (log : List Entry) : Option Plain :=
  History.latest (frameTo id) log

theorem latestFrame_broadcast {id : SocketId} {s : Agent} (packet : Plain)
    (viewing : id ∈ viewers s) : latestFrame id (broadcast s packet).log = some packet := by
  refine History.latest_append_of_mem (List.mem_map_of_mem viewing) (by simp [frameTo]) ?_
  intro entry member found sent
  obtain ⟨other, -, rfl⟩ := List.mem_map.mp member
  rw [frameTo] at sent
  split_ifs at sent
  exact (Option.some.inj sent).symm

structure Quiet (s t : Agent) : Prop where
  queued : t.queued = s.queued
  latest : ∀ id, latestFrame id t.log = latestFrame id s.log

theorem Quiet.trans {s t u : Agent} (first : Quiet s t) (second : Quiet t u) : Quiet s u where
  queued := second.queued.trans first.queued
  latest id := (second.latest id).trans (first.latest id)

theorem quiet_append {s t : Agent} (queued : t.queued = s.queued) {more : List Entry}
    (log : t.log = s.log ++ more) (none : ∀ id, ∀ e ∈ more, frameTo id e = none) : Quiet s t where
  queued := queued
  latest id := by
    rw [log]
    exact History.latest_append_quiet (none id)

theorem quiet_same {s t : Agent} (queued : t.queued = s.queued) (log : t.log = s.log) :
    Quiet s t :=
  quiet_append queued (log.trans (List.append_nil _).symm) (by simp)

def isBroadcast : Event → Bool
  | .frameCaptured _ | .frameDelivered => true
  | _ => false

theorem handleOn_quiet (oversized : Nat → UInt64) (host : Host) (id : SocketId) (s : Agent)
    (packet : Packet) : Quiet s (handleOn oversized host id s packet) := by
  unfold handleOn
  split
  · exact quiet_same rfl rfl
  · refine quiet_append rfl rfl ?_
    intro other entry member
    obtain ⟨e, -, rfl⟩ := List.mem_map.mp member
    rfl

theorem step_quiet {oversized : Nat → UInt64} {qCompress : List UInt8 → List UInt8} {host : Host}
    {s t : Agent} {event : Event} (stepped : step oversized qCompress host s event = some t)
    (other : isBroadcast event = false) : Quiet s t := by
  cases steps_of_step oversized qCompress host stepped with
  | newConnection pending =>
    exact List.foldlRecOn pending accept (quiet_same rfl rfl) fun between quiet peer _ =>
      quiet.trans (quiet_append rfl rfl (by simp [frameTo]))
  | handled id buffer packet left =>
    exact (handleOn_quiet oversized host id s packet).trans (quiet_same rfl rfl)
  | readyRead | returned | disconnected | closed => exact quiet_same rfl rfl
  | unwatched | captured | delivered => cases other

end RemoteAccess.AgentBroadcast

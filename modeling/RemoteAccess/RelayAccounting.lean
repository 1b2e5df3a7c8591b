import Mathlib.Data.Finset.Card
import Mathlib.Data.UInt
import RemoteAccess.Basics.Interleaving
import RemoteAccess.RelayServer

/-! Concurrent calls of the relay. `route_packet` looks its target up and adds to two
counters, in three steps; `get_metrics` reads in three. The guards they hold meanwhile
only rule interleavings out, and are left out. -/

namespace RemoteAccess.RelayAccounting

open RelayServer Interleaving

/-- The server, and the changes to its sessions in the order in which they got the lock. -/
structure State where
  server : Server
  calls : List Call

def start : State where
  server := empty
  calls := []

inductive Request
  | registerPeer (sessionId : String) (endpoint : SocketAddr) (isAgent : Bool)
  | removeSession (sessionId : String)
  | routePacket (sessionId : String) (senderAddr : SocketAddr) (packetBytes : List UInt8)
  | getMetrics

inductive Task
  | waiting (request : Request)
  | registered
  | removed (found : Bool)
  /-- `route_packet` with a target, before its additions. -/
  | packetDue (endpoint : SocketAddr) (packetBytes : List UInt8)
  | bytesDue (endpoint : SocketAddr) (packetBytes : List UInt8)
  | routed (endpoint : Option SocketAddr) (packetBytes : List UInt8)
  | sessionsRead (activeSessions : Nat)
  | packetsRead (activeSessions : Nat) (totalPacketsRelayed : UInt64)
  | reported (metrics : RelayMetrics)

def advance (s : State) : Task → UInt64 → Option (State × Task)
  | .waiting (.registerPeer sessionId endpoint isAgent), nowMs =>
    some ({
      server := { s.server with
        sessions := registerPeer s.server.sessions sessionId endpoint isAgent nowMs }
      calls := s.calls ++ [.registerPeer sessionId endpoint isAgent nowMs] }, .registered)
  | .waiting (.removeSession sessionId), _ =>
    let (found, sessions) := removeSession s.server.sessions sessionId
    some ({
      server := { s.server with sessions := sessions }
      calls := s.calls ++ [.removeSession sessionId] }, .removed found)
  | .waiting (.routePacket sessionId senderAddr packetBytes), _ =>
    match target s.server.sessions sessionId senderAddr with
    | some endpoint => some (s, .packetDue endpoint packetBytes)
    | none => some (s, .routed none packetBytes)
  | .packetDue endpoint packetBytes, _ =>
    some ({ s with server := countPacket s.server }, .bytesDue endpoint packetBytes)
  | .bytesDue endpoint packetBytes, _ =>
    some ({ s with server := countBytes s.server packetBytes }, .routed (some endpoint) packetBytes)
  | .waiting .getMetrics, _ => some (s, .sessionsRead s.server.sessions.keys.length)
  | .sessionsRead activeSessions, _ =>
    some (s, .packetsRead activeSessions s.server.packetsRelayed)
  | .packetsRead activeSessions totalPacketsRelayed, _ =>
    some (s, .reported ⟨activeSessions, totalPacketsRelayed, s.server.bytesRelayed⟩)
  | .registered, _ | .removed _, _ | .routed .., _ | .reported _, _ => none

def run (events : List (Event Request UInt64)) : Option (Pool State Task) :=
  Interleaving.run Task.waiting advance start events

/-- With nothing in between, the steps of `route_packet` are the function. -/
theorem route_alone (s : State) (id : String) (senderAddr : SocketAddr) (packetBytes : List UInt8)
    {endpoint : SocketAddr} (found : target s.server.sessions id senderAddr = some endpoint)
    (nowMs : UInt64) :
    ((advance s (.waiting (.routePacket id senderAddr packetBytes)) nowMs).bind
      fun (s, task) => (advance s task nowMs).bind fun (s, task) => advance s task nowMs) =
    some ({ s with server := (routePacket s.server id senderAddr packetBytes).2 },
      .routed (routePacket s.server id senderAddr packetBytes).1 packetBytes) := by
  simp only [advance, found, Option.bind_some, routePacket, Option.isSome_some, if_true]

namespace Task

def finished : Task → Prop
  | registered | removed _ | routed .. | reported _ => True
  | waiting _ | packetDue .. | bytesDue .. | sessionsRead _ | packetsRead .. => False

def relayed : Task → Option (List UInt8)
  | routed (some _) packetBytes => some packetBytes
  | _ => none

/-- What the call has added to each counter. -/
def packetsAdded : Task → Nat
  | bytesDue .. | routed (some _) _ => 1
  | _ => 0

def bytesAdded : Task → Nat
  | routed (some _) packetBytes => packetBytes.length
  | _ => 0

end Task

/-! ### One step -/

structure Booked (s : State) (task : Task) (t : State) (task' : Task) : Prop where
  packets : t.server.packetsRelayed + UInt64.ofNat task.packetsAdded =
    s.server.packetsRelayed + UInt64.ofNat task'.packetsAdded
  bytes : t.server.bytesRelayed + UInt64.ofNat task.bytesAdded =
    s.server.bytesRelayed + UInt64.ofNat task'.bytesAdded
  sessions : s.server.sessions = after s.calls → t.server.sessions = after t.calls

theorem Booked.idle {s : State} {task task' : Task}
    (packets : task.packetsAdded = task'.packetsAdded)
    (bytes : task.bytesAdded = task'.bytesAdded) : Booked s task s task' where
  packets := by rw [packets]
  bytes := by rw [bytes]
  sessions same := same

theorem advance_booked {s t : State} {task task' : Task} {nowMs : UInt64}
    (moved : advance s task nowMs = some (t, task')) : Booked s task t task' := by
  cases task with
  | waiting request =>
    cases request with
    | registerPeer id endpoint isAgent =>
      obtain ⟨rfl, rfl⟩ := Prod.mk.inj (Option.some.inj moved)
      refine ⟨rfl, rfl, fun same => ?_⟩
      rw [after_concat, ← same]
      rfl
    | removeSession id =>
      obtain ⟨rfl, rfl⟩ := Prod.mk.inj (Option.some.inj moved)
      refine ⟨rfl, rfl, fun same => ?_⟩
      rw [after_concat, ← same]
      rfl
    | routePacket id senderAddr packetBytes =>
      simp only [advance] at moved
      split at moved <;> obtain ⟨rfl, rfl⟩ := Prod.mk.inj (Option.some.inj moved)
      · exact .idle rfl rfl
      · exact .idle rfl rfl
    | getMetrics =>
      obtain ⟨rfl, rfl⟩ := Prod.mk.inj (Option.some.inj moved)
      exact .idle rfl rfl
  | packetDue endpoint packetBytes =>
    obtain ⟨rfl, rfl⟩ := Prod.mk.inj (Option.some.inj moved)
    exact ⟨UInt64.add_zero _, rfl, fun same => same⟩
  | bytesDue endpoint packetBytes =>
    obtain ⟨rfl, rfl⟩ := Prod.mk.inj (Option.some.inj moved)
    exact ⟨rfl, UInt64.add_zero _, fun same => same⟩
  | sessionsRead activeSessions =>
    obtain ⟨rfl, rfl⟩ := Prod.mk.inj (Option.some.inj moved)
    exact .idle rfl rfl
  | packetsRead activeSessions total =>
    obtain ⟨rfl, rfl⟩ := Prod.mk.inj (Option.some.inj moved)
    exact .idle rfl rfl
  | registered | removed found | routed endpoint packetBytes | reported metrics => cases moved

/-! ### Runs -/

section Runs

variable {events : List (Event Request UInt64)} {p : Pool State Task}

theorem sum_ofNat (ns : List Nat) : (ns.map UInt64.ofNat).sum = UInt64.ofNat ns.sum := by
  induction ns with
  | nil => rfl
  | cons n ns ih => rw [List.map_cons, List.sum_cons, ih, List.sum_cons, UInt64.ofNat_add]

theorem run_counters (ran : run events = some p) :
    p.shared.server.packetsRelayed = UInt64.ofNat (p.tasks.map Task.packetsAdded).sum ∧
    p.shared.server.bytesRelayed = UInt64.ofNat (p.tasks.map Task.bytesAdded).sum := by
  have packets := run_balance (fun s : State => s.server.packetsRelayed)
    (fun task : Task => UInt64.ofNat task.packetsAdded) (fun request => rfl)
    (fun moved => (advance_booked moved).packets) ran
  have bytes := run_balance (fun s : State => s.server.bytesRelayed)
    (fun task : Task => UInt64.ofNat task.bytesAdded) (fun request => rfl)
    (fun moved => (advance_booked moved).bytes) ran
  rw [← sum_ofNat, ← sum_ofNat, List.map_map, List.map_map]
  exact ⟨packets.trans (zero_add _), bytes.trans (zero_add _)⟩

theorem run_sessions (ran : run events = some p) :
    p.shared.server.sessions = after p.shared.calls := by
  refine Transitions.run_invariant
    (fun p : Pool State Task => p.shared.server.sessions = after p.shared.calls) rfl ?_ ran
  intro p q event stepped before
  obtain ⟨call, -, rfl⟩ | ⟨i, nowMs, task, task', -, here, moved, -⟩ := step_cases stepped
  · exact before
  · exact (advance_booked moved).sessions before

end Runs

theorem Task.added_of_finished (task : Task) (finished : task.finished) :
    task.packetsAdded = task.relayed.elim 0 (fun _ => 1) ∧
      task.bytesAdded = task.relayed.elim 0 List.length := by
  cases task with
  | waiting request | packetDue endpoint packetBytes | bytesDue endpoint packetBytes
  | sessionsRead activeSessions | packetsRead activeSessions total => cases finished
  | registered | removed found | reported metrics => exact ⟨rfl, rfl⟩
  | routed endpoint packetBytes =>
    cases endpoint with
    | none => exact ⟨rfl, rfl⟩
    | some endpoint => exact ⟨rfl, rfl⟩

theorem sums_of_finished {tasks : List Task} (finished : ∀ task ∈ tasks, task.finished) :
    (tasks.map Task.packetsAdded).sum = (tasks.filterMap Task.relayed).length ∧
      (tasks.map Task.bytesAdded).sum = ((tasks.filterMap Task.relayed).map List.length).sum := by
  induction tasks with
  | nil => exact ⟨rfl, rfl⟩
  | cons task tasks ih =>
    obtain ⟨packets, bytes⟩ := ih fun other member => finished other (by simp [member])
    obtain ⟨one, length⟩ := task.added_of_finished (finished task (by simp))
    rw [List.map_cons, List.sum_cons, List.map_cons, List.sum_cons, packets, bytes, one, length]
    cases relayed : task.relayed with
    | none =>
      rw [List.filterMap_cons_none relayed]
      exact ⟨Nat.zero_add _, Nat.zero_add _⟩
    | some packetBytes =>
      rw [List.filterMap_cons_some relayed, List.map_cons, List.sum_cons]
      exact ⟨Nat.add_comm _ _, rfl⟩

/-! ### The sessions that are left -/

def registers (sessionId : String) : Call → Option Bool
  | .registerPeer id .. => if id = sessionId then some true else none
  | .removeSession id => if id = sessionId then some false else none

/-- The sessions with a registration since their last removal. -/
def registeredSessions (calls : List Call) : Finset String :=
  (calls.map Call.sessionId).toFinset.filter fun id =>
    History.latest (registers id) calls = some true

theorem registers_other {call : Call} {id : String} (other : id ≠ call.sessionId) :
    registers id call = none := by
  cases call with
  | registerPeer sessionId endpoint isAgent nowMs => exact if_neg (Ne.symm other)
  | removeSession sessionId => exact if_neg (Ne.symm other)

theorem mem_after_iff (calls : List Call) (id : String) :
    id ∈ after calls ↔ History.latest (registers id) calls = some true := by
  induction calls using List.reverseRecOn with
  | nil => exact iff_of_false (AList.notMem_empty id) (by simp [History.latest])
  | append_singleton calls call ih =>
    rw [after_concat]
    by_cases same : id = call.sessionId
    · cases call with
      | registerPeer sessionId endpoint isAgent nowMs =>
        have here : registers id (.registerPeer sessionId endpoint isAgent nowMs) = some true :=
          if_pos same.symm
        rw [History.latest_append_cons here (by simp)]
        exact iff_of_true ((AList.mem_insert _).mpr (.inl same)) rfl
      | removeSession sessionId =>
        have here : registers id (.removeSession sessionId) = some false := if_pos same.symm
        rw [History.latest_append_cons here (by simp)]
        exact iff_of_false (fun member => (AList.mem_erase.mp member).1 same) (by simp)
    · have other := registers_other same
      rw [History.latest_append_quiet (by simpa using other), ← ih, ← AList.lookup_isSome,
        lookup_apply_other _ same, AList.lookup_isSome]

theorem length_keys_after (calls : List Call) :
    (after calls).keys.length = (registeredSessions calls).card := by
  rw [← List.toFinset_card_of_nodup (after calls).keys_nodup]
  congr 1
  ext id
  rw [List.mem_toFinset, ← AList.mem_keys, mem_after_iff, registeredSessions, Finset.mem_filter,
    List.mem_toFinset]
  refine ⟨fun latest => ⟨?_, latest⟩, fun both => both.2⟩
  obtain ⟨before, call, since, rfl, value, -⟩ := (History.latest_eq_some_iff _ _).mp latest
  refine List.mem_map.mpr ⟨call, by simp, ?_⟩
  by_contra other
  rw [registers_other (Ne.symm other)] at value
  cases value

/-- A call of `get_metrics` with nothing in between. -/
def metricsCall (i : Nat) (nowMs : UInt64) : List (Event Request UInt64) :=
  [.spawn .getMetrics, .advance i nowMs, .advance i nowMs, .advance i nowMs]

theorem run_metricsCall {events : List (Event Request UInt64)} {p : Pool State Task}
    (ran : run events = some p) (nowMs : UInt64) :
    run (events ++ metricsCall p.tasks.length nowMs) =
      some { p with tasks := p.tasks ++ [.reported (getMetrics p.shared.server)] } := by
  unfold run Interleaving.run at ran ⊢
  rw [Transitions.run_append, ran, Option.bind_some]
  simp [metricsCall, Transitions.run, Interleaving.step, advance, getMetrics]

theorem accounting_loses_nothing {events : List (Event Request UInt64)} {p : Pool State Task}
    (ran : run events = some p) (finished : ∀ task ∈ p.tasks, task.finished) (nowMs : UInt64) :
    ∃ metrics, run (events ++ metricsCall p.tasks.length nowMs) =
        some { p with tasks := p.tasks ++ [.reported metrics] } ∧
      metrics.totalPacketsRelayed.toNat = (p.tasks.filterMap Task.relayed).length % 2 ^ 64 ∧
      metrics.totalBytesRelayed.toNat =
        ((p.tasks.filterMap Task.relayed).map List.length).sum % 2 ^ 64 ∧
      metrics.activeSessions = (registeredSessions p.shared.calls).card := by
  refine ⟨getMetrics p.shared.server, run_metricsCall ran nowMs, ?_⟩
  obtain ⟨packets, bytes⟩ := run_counters ran
  obtain ⟨relayed, lengths⟩ := sums_of_finished finished
  refine ⟨?_, ?_, ?_⟩
  · rw [getMetrics, packets, relayed]
    exact UInt64.toNat_ofNat'
  · rw [getMetrics, bytes, lengths]
    exact UInt64.toNat_ofNat'
  · rw [getMetrics, run_sessions ran]
    exact length_keys_after _

def benchClient : SocketAddr := .v4 0xc0a8010f 48000

def benchAgent : SocketAddr := .v4 0x0a000058 18443

/-- A packet of the benchmark's session is routed while it is removed. -/
def benchmark : List (Event Request UInt64) :=
  [.spawn (.registerPeer "bench-sess-100k" benchClient false), .advance 0 0,
    .spawn (.registerPeer "bench-sess-100k" benchAgent true), .advance 1 0,
    .spawn (.routePacket "bench-sess-100k" benchClient [0xaa, 0xaa]), .advance 2 0, .advance 2 0,
    .spawn (.removeSession "bench-sess-100k"), .advance 3 0, .advance 2 0]

theorem accounting_loses_nothing_benchmark :
    ∃ p metrics, run (benchmark ++ metricsCall 4 0) = some p ∧
      p.tasks = [.registered, .registered, .routed (some benchAgent) [0xaa, 0xaa], .removed true,
        .reported metrics] ∧
      metrics.totalBytesRelayed.toNat = 2 := by
  obtain ⟨p, ran, tasks⟩ : ∃ p, run benchmark = some p ∧ p.tasks = [.registered, .registered,
      .routed (some benchAgent) [0xaa, 0xaa], .removed true] := ⟨_, rfl, rfl⟩
  have finished : ∀ task ∈ p.tasks, task.finished := by
    rw [tasks]
    simp [Task.finished]
  obtain ⟨metrics, reported, -, bytes, -⟩ := accounting_loses_nothing ran finished 0
  rw [tasks] at reported bytes
  exact ⟨_, metrics, reported, rfl, bytes⟩

end RemoteAccess.RelayAccounting

import RemoteAccess.AgentServer
import RemoteAccess.SessionSend
import RemoteAccess.SocketWrite
import Mathlib.Data.Nat.ModEq

/-! Every call of `encryptPayload` in a run of a client and an agent. All of them
use the one session key, so a nonce is used again whenever a sequence number is.
The client numbers its packets from 1 in each connection, the agent answers an
`AuthRequest` under the number of the request, and a frame has the number the
capture backend gave it. `sends`, `answers` and `frames` are the history of the
run by site, `calls` the same calls in the order they were made. -/

namespace RemoteAccess.NonceUse

open ProtocolCodec SealedMessage AgentPacketHandler AgentServer SessionSend QtText
open SocketWrite (fits room_of_fits)

structure System where
  client : Sender
  agent : Agent
  /-- Packets the client has sealed in its current connection. -/
  position : Nat
  /-- The client's packets, each with its position in its connection. -/
  sends : List (Nat × Plain)
  /-- Answered requests with their answers. -/
  answers : List (Plain × Plain)
  frames : List Plain
  calls : List Plain

def start : System where
  client := SessionSend.initial
  agent := AgentServer.initial
  position := 0
  sends := []
  answers := []
  frames := []
  calls := []

inductive Event
  | connectToHost (password : QString)
  | call (k : Call)
  | socketDisconnected
  | newConnection (pending : List Peer)
  | handle (id : SocketId) (m : Plain)
  | clientDisconnected (id : SocketId)
  | frameCaptured (frame : FrameData)

variable (oversized : Nat → UInt64) (qCompress : List UInt8 → List UInt8) (host : Host)

/-- The `connected` signal comes only to a socket that is not connected. -/
def allowed (c : Sender) : Call → Bool
  | .onConnected => !c.connected
  | _ => true

/-- `handle` takes any packet the client has sent, in any order. -/
def step (s : System) : Event → Option System
  | .connectToHost password =>
    some { s with client := { s.client with connected := false, requestedPassword := password } }
  | .call k =>
    if allowed s.client k then
      let (client, packets) := k.perform s.client
      let position := if packets.isEmpty then s.position else k.countsFrom 0 s.position + 1
      some { s with
        client := client
        position := position
        sends := s.sends ++ packets.map (position, ·)
        calls := s.calls ++ packets }
    else none
  | .socketDisconnected => some { s with client := { s.client with connected := false } }
  | .newConnection pending =>
    (AgentServer.step oversized qCompress host s.agent (.newConnection pending)).map fun agent =>
      { s with agent := agent }
  | .handle id m =>
    match s.agent.sockets id with
    | none => none
    | some socket =>
      if m ∈ s.sends.map Prod.snd ∧ fits m then
        let packet := (m.message oversized).packet
        let replies := (handleClientPacket oversized host socket packet).2.filterMap Effect.sealed
        some { s with
          agent := handleOn oversized host id s.agent packet
          answers := s.answers ++ replies.map (m, ·)
          calls := s.calls ++ replies }
      else none
  | .clientDisconnected id =>
    (AgentServer.step oversized qCompress host s.agent (.disconnected id)).map fun agent =>
      { s with agent := agent }
  | .frameCaptured frame =>
    -- the callback returns before it encrypts when there are no clients
    let packets := if s.agent.clients.isEmpty then [] else [framePacket qCompress frame]
    (AgentServer.step oversized qCompress host s.agent (.frameCaptured frame)).map fun agent =>
      { s with agent := agent, frames := s.frames ++ packets, calls := s.calls ++ packets }

def run (events : List Event) : Option System :=
  Transitions.run (step oversized qCompress host) start events

/-! ### Where the calls come from -/

structure Invariant (s : System) : Prop where
  counter : s.client.inputSequence = UInt64.ofNat s.position
  numbered : ∀ x ∈ s.sends, x.2.seq = UInt64.ofNat x.1
  answered : ∀ x ∈ s.answers, x.1 ∈ s.sends.map Prod.snd ∧
    x.2 = authResponse x.1.seq (passwordAccepted host.dynamicOtp x.1.plaintext)
  sources : ∀ m, m ∈ s.calls ↔
    m ∈ s.sends.map Prod.snd ∨ m ∈ s.answers.map Prod.snd ∨ m ∈ s.frames

theorem invariant_start : Invariant host start where
  counter := rfl
  numbered := by simp [start]
  answered := by simp [start]
  sources := by simp [start]

variable {host}

theorem Invariant.sent {s : System} (inv : Invariant host s) (client : Sender) (position : Nat)
    {m : Plain} (counter : client.inputSequence = UInt64.ofNat position)
    (numbered : m.seq = UInt64.ofNat position) :
    Invariant host { s with
      client := client
      position := position
      sends := s.sends ++ [(position, m)]
      calls := s.calls ++ [m] } where
  counter := counter
  numbered := by
    intro x member
    rw [List.mem_append, List.mem_singleton] at member
    obtain old | rfl := member
    · exact inv.numbered x old
    · exact numbered
  answered := by
    intro x member
    obtain ⟨request, reply⟩ := inv.answered x member
    rw [List.map_append]
    exact ⟨List.mem_append_left _ request, reply⟩
  sources := by
    intro other
    simp only [List.mem_append, List.map_append, List.map_cons, List.map_nil, inv.sources other]
    tauto

theorem Invariant.replied {s : System} (inv : Invariant host s) (agent : Agent) {m : Plain}
    (sent : m ∈ s.sends.map Prod.snd) :
    Invariant host { s with
      agent := agent
      answers := s.answers ++
        [(m, authResponse m.seq (passwordAccepted host.dynamicOtp m.plaintext))]
      calls := s.calls ++
        [authResponse m.seq (passwordAccepted host.dynamicOtp m.plaintext)] } where
  counter := inv.counter
  numbered := inv.numbered
  answered := by
    intro x member
    rw [List.mem_append, List.mem_singleton] at member
    obtain old | rfl := member
    · exact inv.answered x old
    · exact ⟨sent, rfl⟩
  sources := by
    intro other
    simp only [List.mem_append, List.map_append, List.map_cons, List.map_nil, inv.sources other]
    tauto

theorem Invariant.captured {s : System} (inv : Invariant host s) (agent : Agent)
    (packets : List Plain) :
    Invariant host { s with
      agent := agent, frames := s.frames ++ packets, calls := s.calls ++ packets } where
  counter := inv.counter
  numbered := inv.numbered
  answered := inv.answered
  sources := by
    intro other
    simp only [List.mem_append, inv.sources other]
    tauto

theorem Invariant.silent {s : System} (inv : Invariant host s) (agent : Agent) (client : Sender)
    (counter : client.inputSequence = s.client.inputSequence) :
    Invariant host { s with agent := agent, client := client } where
  counter := counter.trans inv.counter
  numbered := inv.numbered
  answered := inv.answered
  sources := inv.sources

theorem step_invariant {s t : System} {event : Event}
    (stepped : step oversized qCompress host s event = some t) (inv : Invariant host s) :
    Invariant host t := by
  cases event with
  | connectToHost password =>
    obtain rfl := Option.some.inj stepped
    exact inv.silent s.agent _ rfl
  | call k =>
    simp only [step] at stepped
    by_cases ok : allowed s.client k = true
    · rw [if_pos ok] at stepped
      obtain rfl := Option.some.inj stepped
      obtain nothing | ⟨c, -, counted, sent⟩ := k.perform_cases s.client
      · simpa [nothing] using inv
      · have seq : c.inputSequence + 1 = UInt64.ofNat (k.countsFrom 0 s.position + 1) := by
          rw [counted, inv.counter]
          cases k <;> simp [Call.countsFrom]
        rw [sent]
        exact inv.sent _ (k.countsFrom 0 s.position + 1) seq seq
    · rw [if_neg ok] at stepped
      cases stepped
  | socketDisconnected =>
    obtain rfl := Option.some.inj stepped
    exact inv.silent s.agent _ rfl
  | newConnection pending =>
    simp only [step] at stepped
    obtain ⟨agent, -, rfl⟩ := Option.map_eq_some_iff.mp stepped
    exact inv.silent agent s.client rfl
  | handle id m =>
    simp only [step] at stepped
    split at stepped
    · cases stepped
    · split_ifs at stepped with deliverable
      · obtain ⟨sent, whole⟩ := deliverable
        obtain rfl := Option.some.inj stepped
        rw [sealed_message oversized (room_of_fits whole)]
        by_cases answered : m.type = .authRequest ∧ m.plaintext ≠ []
        · rw [if_pos answered]
          exact inv.replied _ sent
        · rw [if_neg answered, List.map_nil, List.append_nil, List.append_nil]
          exact inv.silent _ s.client rfl
  | clientDisconnected id =>
    simp only [step] at stepped
    obtain ⟨agent, -, rfl⟩ := Option.map_eq_some_iff.mp stepped
    exact inv.silent agent s.client rfl
  | frameCaptured frame =>
    simp only [step] at stepped
    obtain ⟨agent, -, rfl⟩ := Option.map_eq_some_iff.mp stepped
    exact inv.captured agent _

theorem run_invariant {events : List Event} {s : System}
    (ran : run oversized qCompress host events = some s) : Invariant host s :=
  Transitions.run_invariant (Invariant host) (invariant_start host)
    (step_invariant oversized qCompress) ran

/-! ### No nonce twice -/

def NoReuse (calls : List Plain) : Prop :=
  ∀ a ∈ calls, ∀ b ∈ calls, nonceOf a.seq = nonceOf b.seq → a.plaintext = b.plaintext

variable (host) in
structure Repeats (s : System) : Prop where
  connections : ∀ x ∈ s.sends, ∀ y ∈ s.sends, x.1 ≡ y.1 [MOD 2 ^ 64] →
    x.2.plaintext = y.2.plaintext
  answers : ∀ x ∈ s.answers,
    x.1.plaintext = [if passwordAccepted host.dynamicOtp x.1.plaintext then 0 else 1]
  frames : ∀ f ∈ s.frames, ∀ g ∈ s.frames, f.seq = g.seq → f.plaintext = g.plaintext
  overlap : ∀ f ∈ s.frames, ∀ x ∈ s.sends, f.seq.toNat ≡ x.1 [MOD 2 ^ 64] →
    f.plaintext = x.2.plaintext

theorem ofNat_eq_iff (m n : Nat) : UInt64.ofNat m = UInt64.ofNat n ↔ m ≡ n [MOD 2 ^ 64] := by
  rw [← UInt64.toNat_inj, UInt64.toNat_ofNat', UInt64.toNat_ofNat']
  rfl

/-- Where the run repeats itself, an answer is the request over again. -/
theorem Repeats.source {s : System} (inv : Invariant host s) (repeats : Repeats host s) {a : Plain}
    (call : a ∈ s.calls) : a ∈ s.frames ∨ ∃ x ∈ s.sends, a.seq = UInt64.ofNat x.1 ∧
      a.plaintext = x.2.plaintext := by
  obtain sent | answer | frame := (inv.sources a).mp call
  · obtain ⟨x, member, rfl⟩ := List.mem_map.mp sent
    exact .inr ⟨x, member, inv.numbered x member, rfl⟩
  · obtain ⟨⟨request, reply⟩, member, rfl⟩ := List.mem_map.mp answer
    obtain ⟨sent, value⟩ := inv.answered _ member
    obtain ⟨x, origin, same⟩ := List.mem_map.mp sent
    simp only at value same
    refine .inr ⟨x, origin, ?_, ?_⟩
    · simp only [value, authResponse, ← inv.numbered x origin, same]
    · simpa only [value, authResponse, same] using (repeats.answers _ member).symm
  · exact .inl frame

/-- In every run no nonce is used for two plaintexts exactly when the run repeats
itself wherever its numbers do. -/
theorem no_reuse_iff_repeats (events : List Event) (s : System)
    (ran : run oversized qCompress host events = some s) :
    NoReuse s.calls ↔ Repeats host s := by
  have inv := run_invariant oversized qCompress ran
  constructor
  · intro unique
    have sent : ∀ x ∈ s.sends, x.2 ∈ s.calls := fun x member =>
      (inv.sources _).mpr (.inl (List.mem_map_of_mem member))
    have frame : ∀ f ∈ s.frames, f ∈ s.calls := fun f member =>
      (inv.sources f).mpr (.inr (.inr member))
    constructor
    · intro x memx y memy same
      apply unique _ (sent x memx) _ (sent y memy)
      rw [inv.numbered x memx, inv.numbered y memy, (ofNat_eq_iff _ _).mpr same]
    · intro x member
      obtain ⟨request, reply⟩ := inv.answered x member
      have answer : x.2 ∈ s.calls :=
        (inv.sources _).mpr (.inr (.inl (List.mem_map_of_mem member)))
      have same := unique x.1 ((inv.sources _).mpr (.inl request)) x.2 answer
        (by simp only [reply, authResponse])
      simpa only [reply, authResponse] using same
    · intro f memf g memg same
      exact unique f (frame f memf) g (frame g memg) (congrArg nonceOf same)
    · intro f memf x memx same
      apply unique f (frame f memf) x.2 (sent x memx)
      rw [inv.numbered x memx, ← (ofNat_eq_iff _ _).mpr same, UInt64.ofNat_toNat]
  · intro repeats a calla b callb same
    have seq := nonceOf_injective same
    obtain framea | ⟨x, memx, seqx, plainx⟩ := repeats.source inv calla
    · obtain frameb | ⟨y, memy, seqy, plainy⟩ := repeats.source inv callb
      · exact repeats.frames a framea b frameb seq
      · rw [plainy]
        apply repeats.overlap a framea y memy
        rw [← ofNat_eq_iff, UInt64.ofNat_toNat, seq, seqy]
    · obtain frameb | ⟨y, memy, seqy, plainy⟩ := repeats.source inv callb
      · rw [plainx]
        refine (repeats.overlap b frameb x memx ?_).symm
        rw [← ofNat_eq_iff, UInt64.ofNat_toNat, ← seq, seqx]
      · rw [plainx, plainy]
        apply repeats.connections x memx y memy
        rw [← ofNat_eq_iff, ← seqx, ← seqy, seq]

/-- A connection and one action, with nobody to answer. -/
theorem no_reuse_iff_repeats_action :
    ∃ s, run (fun _ => 1) id ⟨true, true, []⟩
        [.call .onConnected, .call (.sendSessionControlAction 1)] = some s ∧ NoReuse s.calls := by
  obtain ⟨s, ran, sends, answers, frames⟩ : ∃ s, run (fun _ => 1) id ⟨true, true, []⟩
      [.call .onConnected, .call (.sendSessionControlAction 1)] = some s ∧
        s.sends = [(1, ⟨.authRequest, 1, 0, []⟩), (2, ⟨.sessionControl, 2, 0, [1, 0, 0, 0]⟩)] ∧
        s.answers = [] ∧ s.frames = [] := ⟨_, rfl, rfl, rfl, rfl⟩
  refine ⟨s, ran, (no_reuse_iff_repeats (fun _ => 1) id _ s ran).mpr ?_⟩
  constructor
  · rw [sends]
    simp [Nat.ModEq]
  · simp [answers]
  · simp [frames]
  · simp [frames]

/-! ### One login -/

def login : Plain := ⟨.authRequest, 1, 0, [0x61, 0x64, 0x6D, 0x69, 0x6E, 0x31, 0x32, 0x33]⟩

variable (host) in
theorem step_handle {s : System} {id : SocketId} {socket : ClientSocket} {m : Plain}
    (known : s.agent.sockets id = some socket) (sent : m ∈ s.sends.map Prod.snd) (whole : fits m)
    (request : m.type = .authRequest ∧ m.plaintext ≠ []) :
    ∃ t, step oversized qCompress host s (.handle id m) = some t ∧
      t.calls = s.calls ++ [authResponse m.seq (passwordAccepted host.dynamicOtp m.plaintext)] := by
  simp only [step, known, if_pos (And.intro sent whole),
    sealed_message oversized (room_of_fits whole), if_pos request]
  exact ⟨_, rfl, rfl⟩

/-- The agent's answer to the master password is sealed under the nonce of the
request. -/
theorem login_reuses_nonce :
    ∃ s, run (fun _ => 1) id ⟨true, true, []⟩
        [.connectToHost masterPassword, .call .onConnected,
          .newConnection [⟨false, literal ['1', '0', '.', '0', '.', '0', '.', '2']⟩],
          .handle 0 login] = some s ∧
      s.calls = [login, authResponse 1 true] ∧ ¬ NoReuse s.calls := by
  obtain ⟨s, earlier, known, sends, calls⟩ : ∃ s, run (fun _ => 1) id ⟨true, true, []⟩
      [.connectToHost masterPassword, .call .onConnected,
        .newConnection [⟨false, literal ['1', '0', '.', '0', '.', '0', '.', '2']⟩]] = some s ∧
        s.agent.sockets 0 = some ⟨false, false⟩ ∧ s.sends = [(1, login)] ∧ s.calls = [login] :=
    ⟨_, rfl, rfl, rfl, rfl⟩
  obtain ⟨t, answered, answer⟩ := step_handle (fun _ => 1) id ⟨true, true, []⟩ known
    (m := login) (by simp [sends]) (by decide) (by decide)
  have accepted : passwordAccepted [] login.plaintext = true := by decide
  have log : t.calls = [login, authResponse 1 true] := by
    rw [answer, calls, accepted]
    rfl
  refine ⟨t, ?_, log, ?_⟩
  · rw [run] at earlier ⊢
    refine (Transitions.run_concat [_, _, _] (Event.handle 0 login)).trans ?_
    rw [earlier, Option.bind_some, answered]
  · intro unique
    have same := unique login (by simp [log]) (authResponse 1 true) (by simp [log]) rfl
    exact absurd same (by decide)

end RemoteAccess.NonceUse

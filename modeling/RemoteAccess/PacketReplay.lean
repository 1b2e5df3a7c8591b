import RemoteAccess.NonceUse

/-! Packets of one connection as an attacker on the path delivers them: each any
number of times, in any order. The handler keeps no record of the sequence
numbers it has seen, so it takes a copy for a packet of its own. -/

namespace RemoteAccess.PacketReplay

open ProtocolCodec SealedMessage QtText AgentPacketHandler SessionSend NonceUse
open SocketWrite (fits room_of_fits)

/-- One packet handed to `handleClientPacket`, by its place among those sent. -/
structure Delivery where
  index : Nat
  /-- Whether the socket was authenticated before. -/
  authenticated : Bool
  effects : List Effect

structure Connection where
  client : Sender
  sent : List Plain
  socket : ClientSocket
  log : List Delivery

/-- The connection after `onConnected` and `newConnection`. -/
def start (requestedPassword : QString) (loopback : Bool) : Connection where
  client := (onConnected { initial with requestedPassword := requestedPassword }).1
  sent := (onConnected { initial with requestedPassword := requestedPassword }).2
  socket := { authenticated := loopback, isLoopback := loopback }
  log := []

inductive Event
  | call (k : Call)
  | deliver (index : Nat)

variable (oversized : Nat → UInt64) (host : Host)

def step (s : Connection) : Event → Option Connection
  | .call k =>
    if allowed s.client k then
      let (client, packets) := k.perform s.client
      some { s with client := client, sent := s.sent ++ packets }
    else none
  | .deliver index =>
    match s.sent[index]? with
    | none => none
    | some m =>
      if fits m then
        let (socket, effects) :=
          handleClientPacket oversized host s.socket (m.message oversized).packet
        some { s with socket := socket, log := s.log ++ [⟨index, s.socket.authenticated, effects⟩] }
      else none

def run (requestedPassword : QString) (loopback : Bool) (events : List Event) : Option Connection :=
  Transitions.run (step oversized host) (start requestedPassword loopback) events

/-! ### What one delivery does -/

def acts : Effect → Bool
  | .injectEvent _ | .setClipboardText _ | .executeAction _ => true
  | _ => false

def acting (isLoopback : Bool) (m : Plain) : Bool :=
  if m.type = .inputEvent then
    decide (24 ≤ m.plaintext.length) && host.hasInputBackend && !isLoopback
  else if m.type = .clipboardData then !m.plaintext.isEmpty && host.hasClipboard
  else if m.type = .sessionControl then decide (4 ≤ m.plaintext.length)
  else false

section Handlers

variable {host} {socket : ClientSocket} {plaintext : List UInt8}

theorem countP_handleInputEvent : (handleInputEvent host socket plaintext).countP acts =
    (decide (24 ≤ plaintext.length) && host.hasInputBackend && !socket.isLoopback).toNat := by
  unfold handleInputEvent
  split_ifs with long backend loopback <;> simp [acts, *]

theorem countP_handleClipboardData : (handleClipboardData host plaintext).countP acts =
    (!plaintext.isEmpty && host.hasClipboard).toNat := by
  unfold handleClipboardData
  dsimp only
  split_ifs with empty clipboard <;> simp [acts, *]

theorem countP_handleSessionControl : (handleSessionControl plaintext).countP acts =
    (decide (4 ≤ plaintext.length)).toNat := by
  unfold handleSessionControl
  dsimp only
  split_ifs with long <;> simp [acts, List.countP_cons, long]

end Handlers

variable {host} in
theorem countP_handleClientPacket {socket : ClientSocket} {m : Plain} (whole : fits m) :
    (handleClientPacket oversized host socket (m.message oversized).packet).2.countP acts =
      (socket.authenticated && acting host socket.isLoopback m).toNat := by
  rw [handleClientPacket_message oversized (room_of_fits whole), acting]
  by_cases auth : m.type = .authRequest
  · rw [if_pos auth, auth]
    simp only [PayloadType.authRequest, PayloadType.inputEvent, PayloadType.clipboardData,
      PayloadType.sessionControl]
    split_ifs <;> simp_all [acts]
  rw [if_neg auth]
  cases socket.authenticated with
  | false => rfl
  | true =>
    rw [if_neg (not_not.mpr rfl), Bool.true_and]
    split_ifs
    · exact countP_handleInputEvent
    · exact countP_handleClipboardData
    · exact countP_handleSessionControl
    · rfl

/-! ### What a run does -/

def deliveries (s : Connection) (index : Nat) : List Delivery :=
  s.log.filter fun d => d.index = index

def caused (s : Connection) (index : Nat) : Nat :=
  ((deliveries s index).flatMap Delivery.effects).countP acts

def accepted (s : Connection) (index : Nat) : Nat :=
  (deliveries s index).countP Delivery.authenticated

/-- Each delivery did what its packet does. -/
def Accounted (s : Connection) : Prop :=
  ∀ d ∈ s.log, ∃ m, s.sent[d.index]? = some m ∧
    d.effects.countP acts = (d.authenticated && acting host s.socket.isLoopback m).toNat

variable {host}

theorem step_accounted {s t : Connection} {event : Event}
    (stepped : step oversized host s event = some t) (known : Accounted host s) :
    Accounted host t := by
  cases event with
  | call k =>
    simp only [step] at stepped
    split_ifs at stepped
    obtain rfl := Option.some.inj stepped
    intro d member
    obtain ⟨m, sent, did⟩ := known d member
    obtain ⟨inside, -⟩ := List.getElem?_eq_some_iff.mp sent
    exact ⟨m, (List.getElem?_append_left inside).trans sent, did⟩
  | deliver index =>
    simp only [step] at stepped
    split at stepped
    · cases stepped
    · next m sent =>
      split_ifs at stepped with whole
      obtain rfl := Option.some.inj stepped
      have loopback := handleClientPacket_isLoopback oversized host s.socket
        (m.message oversized).packet
      intro d member
      simp only [loopback]
      rw [List.mem_append, List.mem_singleton] at member
      obtain old | rfl := member
      · exact known d old
      · exact ⟨m, sent, countP_handleClientPacket oversized whole⟩

theorem countP_flatMap_effects {log : List Delivery} {b : Bool}
    (each : ∀ d ∈ log, d.effects.countP acts = (d.authenticated && b).toNat) :
    (log.flatMap Delivery.effects).countP acts =
      if b then log.countP Delivery.authenticated else 0 := by
  induction log with
  | nil => simp
  | cons d log ih =>
    obtain ⟨first, others⟩ := List.forall_mem_cons.mp each
    rw [List.flatMap_cons, List.countP_append, first, ih others, List.countP_cons]
    cases b with
    | false => simp
    | true =>
      rw [Bool.and_true, if_pos rfl, if_pos rfl, Nat.add_comm]
      cases d.authenticated <;> rfl

theorem Accounted.caused_eq {s : Connection} (known : Accounted host s) {index : Nat} {m : Plain}
    (sent : s.sent[index]? = some m) :
    caused s index = if acting host s.socket.isLoopback m then accepted s index else 0 := by
  apply countP_flatMap_effects
  intro d member
  obtain ⟨old, same⟩ := List.mem_filter.mp member
  obtain ⟨m', sent', did⟩ := known d old
  rw [of_decide_eq_true same, sent] at sent'
  obtain rfl := Option.some.inj sent'
  exact did

theorem Accounted.caused_eq_zero {s : Connection} (known : Accounted host s) {index : Nat}
    (unsent : s.sent[index]? = none) : caused s index = 0 := by
  have nothing : deliveries s index = [] := by
    rw [deliveries, List.filter_eq_nil_iff]
    intro d member same
    obtain ⟨m, sent, -⟩ := known d member
    rw [of_decide_eq_true same, unsent] at sent
    cases sent
  rw [caused, nothing]
  rfl

/-- In every run each packet acts at most once exactly when none that acts is
delivered to the authenticated socket a second time. -/
theorem acts_once_iff (requestedPassword : QString) (loopback : Bool) (events : List Event)
    (s : Connection) (ran : run oversized host requestedPassword loopback events = some s) :
    (∀ index, caused s index ≤ 1) ↔
      ∀ index m, s.sent[index]? = some m → acting host s.socket.isLoopback m = true →
        accepted s index ≤ 1 := by
  have known : Accounted host s :=
    Transitions.run_invariant (Accounted host) (by simp [Accounted, start])
      (step_accounted oversized) ran
  constructor
  · intro once index m sent acts
    have count := known.caused_eq sent
    rw [if_pos acts] at count
    exact count ▸ once index
  · intro unrepeated index
    cases sent : s.sent[index]? with
    | none => exact known.caused_eq_zero sent ▸ Nat.zero_le 1
    | some m =>
      rw [known.caused_eq sent]
      split_ifs with acts
      · exact unrepeated index m sent acts
      · exact Nat.zero_le 1

/-! ### One press, delivered twice -/

def press : Call := .sendInputEvent 2 640 360 1 0 0 0

def pressPacket : Plain := ⟨.inputEvent, 2, 0, inputPlaintext 2 640 360 1 0 0⟩

def agent : Host := ⟨true, true, []⟩

theorem login_granted : handleClientPacket oversized agent ⟨false, false⟩
    (login.message oversized).packet =
      (⟨true, false⟩, [.setAuthenticated true, .write (authResponse 1 true)]) := by
  have accepted : passwordAccepted agent.dynamicOtp login.plaintext = true := by decide
  rw [handleClientPacket_message oversized (by decide), accepted]
  rfl

theorem press_injected : handleClientPacket oversized agent ⟨true, false⟩
    (pressPacket.message oversized).packet =
      (⟨true, false⟩, [.injectEvent (eventOf pressPacket.plaintext)]) := by
  rw [handleClientPacket_message oversized (by decide)]
  rfl

variable (host) in
theorem step_deliver {s : Connection} {index : Nat} {m : Plain} {before socket : ClientSocket}
    {effects : List Effect} (sent : s.sent[index]? = some m) (known : s.socket = before)
    (whole : fits m)
    (handled : handleClientPacket oversized host before (m.message oversized).packet =
      (socket, effects)) :
    ∃ t, step oversized host s (.deliver index) = some t ∧ t.sent = s.sent ∧ t.socket = socket ∧
      t.log = s.log ++ [⟨index, before.authenticated, effects⟩] := by
  subst known
  simp only [step, sent, if_pos whole, handled]
  exact ⟨_, rfl, rfl, rfl, rfl⟩

theorem run_press : ∃ s, run oversized agent masterPassword false
    [.call press, .deliver 0, .deliver 1] = some s ∧ s.sent = [login, pressPacket] ∧
      s.socket = ⟨true, false⟩ ∧
      s.log = [⟨0, false, [.setAuthenticated true, .write (authResponse 1 true)]⟩,
        ⟨1, true, [.injectEvent (eventOf pressPacket.plaintext)]⟩] := by
  obtain ⟨s, called, sent, socket, log⟩ : ∃ s,
      step oversized agent (start masterPassword false) (.call press) = some s ∧
        s.sent = [login, pressPacket] ∧ s.socket = ⟨false, false⟩ ∧ s.log = [] :=
    ⟨_, rfl, by decide, rfl, rfl⟩
  have request : s.sent[0]? = some login := by rw [sent]; rfl
  obtain ⟨s₁, first, sent₁, socket₁, log₁⟩ :=
    step_deliver oversized agent request socket (by decide) (login_granted oversized)
  have event : s₁.sent[1]? = some pressPacket := by rw [sent₁, sent]; rfl
  obtain ⟨s₂, second, sent₂, socket₂, log₂⟩ :=
    step_deliver oversized agent event socket₁ (by decide) (press_injected oversized)
  refine ⟨s₂, ?_, by rw [sent₂, sent₁, sent], socket₂, by rw [log₂, log₁, log]; rfl⟩
  simp only [run, Transitions.run, List.foldlM_cons, List.foldlM_nil, called, first, second,
    Option.bind_eq_bind, Option.bind_some, Option.pure_def]

theorem acts_once_iff_press :
    ∃ s, run (fun _ => 1) agent masterPassword false [.call press, .deliver 0, .deliver 1] =
      some s ∧ ∀ index, caused s index ≤ 1 := by
  obtain ⟨s, ran, -, -, log⟩ := run_press fun _ => 1
  refine ⟨s, ran, (acts_once_iff (fun _ => 1) masterPassword false _ s ran).mpr ?_⟩
  intro index m sent acts
  rw [accepted, deliveries, log, List.filter_cons, List.filter_cons]
  split_ifs <;> simp

/-- A copy of the press is injected like the first. -/
theorem replayed_press_injected_twice :
    ∃ s, run (fun _ => 1) agent masterPassword false
        [.call press, .deliver 0, .deliver 1, .deliver 1] = some s ∧
      s.log.map Delivery.effects = [[.setAuthenticated true, .write (authResponse 1 true)],
        [.injectEvent (eventOf pressPacket.plaintext)],
        [.injectEvent (eventOf pressPacket.plaintext)]] ∧
      ¬ ∀ index, caused s index ≤ 1 := by
  obtain ⟨s, earlier, sent, socket, log⟩ := run_press fun _ => 1
  have event : s.sent[1]? = some pressPacket := by rw [sent]; rfl
  obtain ⟨t, replayed, -, -, log'⟩ :=
    step_deliver (fun _ => 1) agent event socket (by decide) (press_injected fun _ => 1)
  refine ⟨t, ?_, by rw [log', log]; rfl, fun once => ?_⟩
  · rw [run] at earlier ⊢
    refine (Transitions.run_concat [_, _, _] (Event.deliver 1)).trans ?_
    rw [earlier, Option.bind_some, replayed]
  · have twice : caused t 1 = 2 := by
      rw [caused, deliveries, log', log]
      rfl
    exact absurd (twice ▸ once 1) (by decide)

end RemoteAccess.PacketReplay

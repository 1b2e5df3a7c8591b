import RemoteAccess.AuditLog
import RemoteAccess.Basics.History
import RemoteAccess.Basics.Interleaving
import RemoteAccess.SignalingServer

/-! Concurrent calls of the rendezvous server. What a session's status and keys can
become follows from what one step does to the map of sessions. -/

namespace RemoteAccess.SignalingSessions

open SignalingServer Interleaving

variable {Uuid : Type}

inductive Call
  | registerPeer (deviceId : String) (isAgent : Bool)
  | initiateSession (clientDeviceId targetAgentId clientPublicKeyHex : String)
  | acceptSession (sessionId agentPublicKeyHex : String)
  | closeSession (sessionId : String)
  | getSession (sessionId : String)

inductive Answer
  | registered
  | initiated (result : Except String SignalingSession)
  | accepted (sessionId : String) (result : Except String SignalingSession)
  | closed (sessionId : String) (found : Bool)
  | got (sessionId : String) (session : Option SignalingSession)

/-- The server, the UUIDs drawn so far, and what the calls have returned. -/
structure State (Uuid : Type) where
  server : Server
  used : List Uuid
  answers : List Answer

def start : State Uuid where
  server := SignalingServer.empty
  used := []
  answers := []

inductive Task
  | waiting (call : Call)
  /-- `initiate_session` after `is_peer_online`. -/
  | targetOnline (clientDeviceId targetAgentId clientPublicKeyHex : String)
  | returned

/-- `Uuid::new_v4()` and `Utc::now()`. -/
structure Draw (Uuid : Type) where
  id : Uuid
  nowMs : UInt64

def State.answer (s : State Uuid) (a : Answer) : State Uuid × Task :=
  ({ s with answers := s.answers ++ [a] }, .returned)

section Steps

variable [DecidableEq Uuid] (simple : Uuid → String)

/-- A call gets the lock it waits for. A UUID that was drawn before is not drawn
again. -/
def advance (s : State Uuid) : Task → Draw Uuid → Option (State Uuid × Task)
  | .waiting (.registerPeer deviceId isAgent), _ =>
    some ({ s with server := registerPeer s.server deviceId isAgent }.answer .registered)
  | .waiting (.initiateSession clientDeviceId targetAgentId clientPublicKeyHex), _ =>
    if isPeerOnline s.server targetAgentId then
      some (s, .targetOnline clientDeviceId targetAgentId clientPublicKeyHex)
    else some (s.answer (.initiated (.error (offlineError targetAgentId))))
  | .targetOnline clientDeviceId targetAgentId clientPublicKeyHex, draw =>
    if draw.id ∈ s.used then none
    else
      let session := newSession simple clientDeviceId targetAgentId clientPublicKeyHex draw.id
        draw.nowMs
      some ({ s with
        server := insertSession s.server session
        used := draw.id :: s.used }.answer (.initiated (.ok session)))
  | .waiting (.acceptSession sessionId agentPublicKeyHex), _ =>
    let (result, server) := acceptSession s.server sessionId agentPublicKeyHex
    some ({ s with server := server }.answer (.accepted sessionId result))
  | .waiting (.closeSession sessionId), _ =>
    let (found, server) := closeSession s.server sessionId
    some ({ s with server := server }.answer (.closed sessionId found))
  | .waiting (.getSession sessionId), _ =>
    some (s.answer (.got sessionId (getSession s.server sessionId)))
  | .returned, _ => none

abbrev step := Interleaving.step Task.waiting (advance simple)

abbrev begin : Pool (State Uuid) Task where
  shared := start
  tasks := []

def run (events : List (Event Call (Draw Uuid))) : Option (Pool (State Uuid) Task) :=
  Transitions.run (step simple) begin events

end Steps

/-- The session id and the key of the `accept_session` that takes its step. -/
def accepting (p : Pool (State Uuid) Task) : Event Call (Draw Uuid) → Option (String × String)
  | .spawn _ => none
  | .advance i _ =>
    match p.tasks[i]? with
    | some (.waiting (.acceptSession sessionId agentPublicKeyHex)) =>
      some (sessionId, agentPublicKeyHex)
    | _ => none

def Answer.success : Answer → Option (String × SignalingSession)
  | accepted sessionId (.ok session) => some (sessionId, session)
  | _ => none

/-- The session in an answer of `accept_session` or `get_session`. -/
def Answer.carried : Answer → Option (String × SignalingSession)
  | accepted sessionId (.ok session) | got sessionId (some session) => some (sessionId, session)
  | _ => none

/-! ### One step -/

inductive Moved (simple : Uuid → String) (s : State Uuid) :
    Option (String × String) → State Uuid → Prop
  /-- No session changes; the answers carry none, or one as it is. -/
  | quiet {accepts server} (more : List Answer)
      (same : server.activeSessions = s.server.activeSessions)
      (missed : ∀ id key, accepts = some (id, key) → s.server.activeSessions id = none)
      (unsuccessful : ∀ e ∈ more, e.success = none)
      (current : ∀ e ∈ more, ∀ id session, e.carried = some (id, session) →
        s.server.activeSessions id = some session) :
      Moved simple s accepts { s with server := server, answers := s.answers ++ more }
  | initiated {client target clientKey u nowMs} (fresh : u ∉ s.used) :
      Moved simple s none
        { server := insertSession s.server (newSession simple client target clientKey u nowMs)
          used := u :: s.used
          answers := s.answers ++ [.initiated (.ok (newSession simple client target clientKey u
            nowMs))] }
  | accepted {id key session} (known : s.server.activeSessions id = some session) :
      Moved simple s (some (id, key))
        { s with
          server := put s.server id
            { session with agentPublicKeyHex := some key, status := .active }
          answers := s.answers ++ [.accepted id (.ok
            { session with agentPublicKeyHex := some key, status := .active })] }
  | closed {id session} (known : s.server.activeSessions id = some session) :
      Moved simple s none
        { s with
          server := put s.server id { session with status := .terminated }
          answers := s.answers ++ [.closed id true] }

theorem Moved.refl (simple : Uuid → String) (s : State Uuid) : Moved simple s none s := by
  have nothing : Moved simple s none _ := .quiet [] rfl (by simp) (by simp) (by simp)
  rwa [List.append_nil] at nothing

theorem Answer.success_eq_none {a : Answer} (empty : a.carried = none) : a.success = none := by
  cases a with
  | accepted id result =>
    cases result with
    | error e => rfl
    | ok session => cases empty
  | _ => rfl

section Moved

variable {simple : Uuid → String} {s : State Uuid}

theorem Moved.plain {accepts : Option (String × String)} {server : Server} {a : Answer}
    (same : server.activeSessions = s.server.activeSessions)
    (missed : ∀ id key, accepts = some (id, key) → s.server.activeSessions id = none)
    (empty : a.carried = none) :
    Moved simple s accepts { s with server := server, answers := s.answers ++ [a] } := by
  refine .quiet [a] same missed ?_ ?_
  · intro e member
    rw [List.mem_singleton.mp member, Answer.success_eq_none empty]
  · intro e member id session carried
    rw [List.mem_singleton.mp member, empty] at carried
    cases carried

theorem acceptSession_moved (s : State Uuid) (id key : String) :
    Moved simple s (some (id, key)) { s with
      server := (acceptSession s.server id key).2
      answers := s.answers ++ [.accepted id (acceptSession s.server id key).1] } := by
  obtain missing | ⟨session, known⟩ := Option.eq_none_or_eq_some (s.server.activeSessions id)
  · rw [acceptSession_of_none missing]
    refine .plain rfl ?_ rfl
    rintro _ _ ⟨⟩
    exact missing
  · rw [acceptSession_of_some known]
    exact .accepted known

theorem closeSession_moved (s : State Uuid) (id : String) :
    Moved simple s none { s with
      server := (closeSession s.server id).2
      answers := s.answers ++ [.closed id (closeSession s.server id).1] } := by
  obtain missing | ⟨session, known⟩ := Option.eq_none_or_eq_some (s.server.activeSessions id)
  · rw [closeSession_of_none missing]
    exact .plain rfl (by simp) rfl
  · rw [closeSession_of_some known]
    exact .closed known

theorem getSession_moved (s : State Uuid) (id : String) :
    Moved simple s none { s with answers := s.answers ++ [.got id (getSession s.server id)] } := by
  rw [getSession]
  cases known : s.server.activeSessions id with
  | none => exact .plain rfl (by simp) rfl
  | some session =>
    refine .quiet [.got id (some session)] rfl (by simp) (by simp [Answer.success]) ?_
    intro e member id' session' carried
    rw [List.mem_singleton.mp member] at carried
    obtain ⟨rfl, rfl⟩ := Prod.mk.inj (Option.some.inj carried)
    exact known

variable [DecidableEq Uuid]

theorem step_moved {p q : Pool (State Uuid) Task} {event : Event Call (Draw Uuid)}
    (stepped : step simple p event = some q) :
    Moved simple p.shared (accepting p event) q.shared := by
  obtain ⟨call, rfl, rfl⟩ | ⟨i, draw, task, task', rfl, here, moved, -⟩ :=
    Interleaving.step_cases stepped
  · exact Moved.refl simple p.shared
  · rw [accepting, here]
    cases task with
    | targetOnline client target clientKey =>
      simp only [advance] at moved
      split at moved
      · cases moved
      · next fresh =>
        obtain ⟨shared, -⟩ := Prod.mk.inj (Option.some.inj moved)
        exact shared ▸ .initiated fresh
    | returned => cases moved
    | waiting call =>
      cases call with
      | registerPeer deviceId isAgent =>
        obtain ⟨shared, -⟩ := Prod.mk.inj (Option.some.inj moved)
        exact shared ▸ .plain rfl (by simp) rfl
      | initiateSession client target clientKey =>
        simp only [advance] at moved
        split at moved
        · obtain ⟨shared, -⟩ := Prod.mk.inj (Option.some.inj moved)
          exact shared ▸ Moved.refl simple p.shared
        · obtain ⟨shared, -⟩ := Prod.mk.inj (Option.some.inj moved)
          exact shared ▸ .plain rfl (by simp) rfl
      | acceptSession id key =>
        obtain ⟨shared, -⟩ := Prod.mk.inj (Option.some.inj moved)
        exact shared ▸ acceptSession_moved p.shared id key
      | closeSession id =>
        obtain ⟨shared, -⟩ := Prod.mk.inj (Option.some.inj moved)
        exact shared ▸ closeSession_moved p.shared id
      | getSession id =>
        obtain ⟨shared, -⟩ := Prod.mk.inj (Option.some.inj moved)
        exact shared ▸ getSession_moved p.shared id

end Moved

/-! ### The order of the states -/

def Forward (s t : Server) : Prop :=
  ∀ id session, s.activeSessions id = some session →
    ∃ later, t.activeSessions id = some later ∧ session.status.rank ≤ later.status.rank

theorem Forward.refl (s : Server) : Forward s s :=
  fun _ session known => ⟨session, known, Nat.le_refl _⟩

theorem Forward.trans {s t u : Server} (first : Forward s t) (second : Forward t u) :
    Forward s u := by
  intro id session known
  obtain ⟨later, there, up⟩ := first id session known
  obtain ⟨last, known, further⟩ := second id later there
  exact ⟨last, known, Nat.le_trans up further⟩

theorem forward_put_iff {s : Server} {id : String} {session : SignalingSession}
    (known : s.activeSessions id = some session) (changed : SignalingSession) :
    Forward s (put s id changed) ↔ session.status.rank ≤ changed.status.rank := by
  constructor
  · intro forward
    obtain ⟨later, found, up⟩ := forward id session known
    rw [put_self] at found
    exact Option.some.inj found ▸ up
  · intro up id' session' there
    by_cases same : id' = id
    · obtain rfl := Option.some.inj (known.symm.trans (same ▸ there))
      exact ⟨changed, by rw [same, put_self], up⟩
    · exact ⟨session', by rwa [put_of_ne same], Nat.le_refl _⟩

theorem SessionStatus.rank_le_active_iff (status : SessionStatus) :
    status.rank ≤ SessionStatus.active.rank ↔ status ≠ .terminated := by
  cases status <;> simp [SessionStatus.rank]

theorem SessionStatus.rank_le_terminated (status : SessionStatus) :
    status.rank ≤ SessionStatus.terminated.rank := by
  cases status <;> simp [SessionStatus.rank]

section Runs

variable {simple : Uuid → String}

theorem Moved.keyed {s t : State Uuid} {accepts : Option (String × String)}
    (moved : Moved simple s accepts t) (ok : Keyed simple s.used s.server) :
    Keyed simple t.used t.server := by
  cases moved with
  | quiet more same =>
    intro id session known
    exact ok id session (same ▸ known)
  | initiated fresh => exact Keyed.insertSession _ _ _ _ ok
  | accepted known => exact ok.put known rfl
  | closed known => exact ok.put known rfl

variable (simple_injective : Function.Injective simple)

include simple_injective in
/-- Only an acceptance after the end takes a session back. -/
theorem Moved.forward_iff {s t : State Uuid} {accepts : Option (String × String)}
    (moved : Moved simple s accepts t) (ok : Keyed simple s.used s.server) :
    Forward s.server t.server ↔ ∀ id key session, accepts = some (id, key) →
      s.server.activeSessions id = some session → session.status ≠ .terminated := by
  cases moved with
  | quiet more same missed =>
    constructor
    · intro _ id key session accepts known
      rw [missed id key accepts] at known
      cases known
    · intro _ id session known
      exact ⟨session, same ▸ known, Nat.le_refl _⟩
  | initiated fresh =>
    refine iff_of_true (fun id session known => ⟨session, ?_, Nat.le_refl _⟩) (by simp)
    exact (ok.insertSession_keeps simple_injective fresh ..).sessions known
  | @accepted id key session known =>
    rw [forward_put_iff known, SessionStatus.rank_le_active_iff]
    constructor
    · rintro open_ id' key' session' ⟨⟩ there
      exact Option.some.inj (known.symm.trans there) ▸ open_
    · intro all
      exact all id key session rfl known
  | closed known =>
    exact iff_of_true ((forward_put_iff known _).mpr (SessionStatus.rank_le_terminated _)) (by simp)

end Runs

theorem run_keyed [DecidableEq Uuid] {simple : Uuid → String}
    {events : List (Event Call (Draw Uuid))} {p : Pool (State Uuid) Task}
    (ran : run simple events = some p) : Keyed simple p.shared.used p.shared.server := by
  refine Transitions.run_invariant
    (fun p : Pool (State Uuid) Task => Keyed simple p.shared.used p.shared.server) ?_ ?_ ran
  · intro id session known
    cases known
  · intro p q event stepped ok
    exact (step_moved stepped).keyed ok

/-- No session's status goes backwards in the run, from any point of it to any later one. -/
def OnlyForward [DecidableEq Uuid] (simple : Uuid → String)
    (events : List (Event Call (Draw Uuid))) : Prop :=
  ∀ before between after p q, events = before ++ between ++ after →
    run simple before = some p → run simple (before ++ between) = some q →
    Forward p.shared.server q.shared.server

/-- An `accept_session` that takes its step finds no terminated session. -/
def AcceptsBeforeEnd (p : Pool (State Uuid) Task) (event : Event Call (Draw Uuid)) : Prop :=
  ∀ id key session, accepting p event = some (id, key) →
    p.shared.server.activeSessions id = some session → session.status ≠ .terminated

theorem accepting_steps [DecidableEq Uuid] (simple : Uuid → String) {p : Pool (State Uuid) Task}
    {event : Event Call (Draw Uuid)} {id key : String}
    (accepts : accepting p event = some (id, key)) :
    ∃ q, step simple p event = some q := by
  cases event with
  | spawn call => cases accepts
  | advance i draw =>
    simp only [accepting] at accepts
    split at accepts
    · next id' key' here =>
      simp [step, Interleaving.step, here, advance]
    · cases accepts

theorem sessions_only_forward_iff [DecidableEq Uuid] {simple : Uuid → String}
    (simple_injective : Function.Injective simple) (events : List (Event Call (Draw Uuid))) :
    OnlyForward simple events ↔
      Transitions.Throughout (step simple) AcceptsBeforeEnd begin events := by
  have stepwise : OnlyForward simple events ↔
      Transitions.Throughout (step simple) (fun p event => ∀ q, step simple p event = some q →
        Forward p.shared.server q.shared.server) begin events :=
    Transitions.ordered_iff_throughout
      (fun p q : Pool (State Uuid) Task => Forward p.shared.server q.shared.server)
      (fun p => Forward.refl _) Forward.trans events
  refine stepwise.trans ⟨fun all => ?_, fun all => ?_⟩
  · intro before event after p split reached id key session accepts known
    obtain ⟨q, stepped⟩ := accepting_steps simple accepts
    have ok := run_keyed reached
    exact ((step_moved stepped).forward_iff simple_injective ok).mp
      (all before event after p split reached q stepped) id key session accepts known
  · intro before event after p split reached q stepped
    have ok := run_keyed reached
    exact ((step_moved stepped).forward_iff simple_injective ok).mpr
      (all before event after p split reached)

def device : Draw (List UInt8) := ⟨List.replicate 16 0x5a, 7⟩

def deviceSession : String := newSessionId AuditLog.hexEncode device.id

def initiation : List (Event Call (Draw (List UInt8))) :=
  [.spawn (.registerPeer "rap-dev-agent-001" true), .advance 0 device,
    .spawn (.initiateSession "rap-dev-client-002" "rap-dev-agent-001" "0102"),
    .advance 1 device, .advance 1 device]

/-- The client closes the session before the agent accepts it. -/
def lateAcceptance : List (Event Call (Draw (List UInt8))) :=
  [.spawn (.closeSession deviceSession), .advance 2 device,
    .spawn (.acceptSession deviceSession "100f"), .advance 3 device]

/-- The agent accepts twice with the one key it has, and then the client closes. -/
def timelyAcceptance : List (Event Call (Draw (List UInt8))) :=
  [.spawn (.acceptSession deviceSession "100f"), .advance 2 device,
    .spawn (.acceptSession deviceSession "100f"), .advance 3 device,
    .spawn (.closeSession deviceSession), .advance 4 device]

theorem throughout_timely
    {P : Pool (State (List UInt8)) Task → Event Call (Draw (List UInt8)) → Prop}
    (quiet : ∀ {p event}, accepting p event = none → P p event)
    (accepts : ∀ {p i session}, accepting p (.advance i device) = some (deviceSession, "100f") →
      p.shared.server.activeSessions deviceSession = some session → session.status ≠ .terminated →
      session.agentPublicKeyHex ∈ [none, some "100f"] → P p (.advance i device)) :
    Transitions.Throughout (step AuditLog.hexEncode) P begin (initiation ++ timelyAcceptance) := by
  -- the session is initiated in five events
  refine .cons (quiet rfl) rfl (.cons (quiet rfl) rfl (.cons (quiet rfl) rfl ?_))
  refine .cons (quiet rfl) rfl (.cons (quiet rfl) rfl (.cons (quiet rfl) rfl ?_))
  refine .cons (accepts rfl rfl (by decide) (by decide)) rfl (.cons (quiet rfl) rfl ?_)
  refine .cons (accepts rfl rfl (by decide) (by decide)) rfl (.cons (quiet rfl) rfl ?_)
  exact .cons (quiet rfl) rfl Transitions.throughout_nil

theorem sessions_only_forward_iff_timely :
    OnlyForward AuditLog.hexEncode (initiation ++ timelyAcceptance) := by
  refine (sessions_only_forward_iff AuditLog.hexEncode_injective _).mpr
    (throughout_timely (fun quiet id key session accepts => ?_) ?_)
  · rw [quiet] at accepts
    cases accepts
  · intro p i session here known ended _ id key session' accepts known'
    obtain ⟨rfl, rfl⟩ := Prod.mk.inj (Option.some.inj (here.symm.trans accepts))
    obtain rfl := Option.some.inj (known.symm.trans known')
    exact ended

theorem late_acceptance_goes_backwards :
    ¬ OnlyForward AuditLog.hexEncode (initiation ++ lateAcceptance) := by
  intro forward
  obtain ⟨p, reached, terminated⟩ : ∃ p,
      run AuditLog.hexEncode (initiation ++ lateAcceptance.take 2) = some p ∧
        (p.shared.server.activeSessions deviceSession).map (·.status) = some .terminated :=
    ⟨_, rfl, rfl⟩
  obtain ⟨q, ran, active⟩ : ∃ q,
      run AuditLog.hexEncode (initiation ++ lateAcceptance.take 2 ++ lateAcceptance.drop 2) =
          some q ∧
        (q.shared.server.activeSessions deviceSession).map (·.status) = some .active :=
    ⟨_, rfl, rfl⟩
  obtain ⟨session, known, ended⟩ := Option.map_eq_some_iff.mp terminated
  obtain ⟨later, found, up⟩ := forward _ _ [] p q rfl reached ran _ session known
  rw [found, Option.map_some] at active
  rw [ended, Option.some.inj active] at up
  exact absurd up (by decide)

/-! ### The keys of a session -/

def SameKeys (a b : SignalingSession) : Prop :=
  a.clientPublicKeyHex = b.clientPublicKeyHex ∧ a.agentPublicKeyHex = b.agentPublicKeyHex

/-- After a successful `accept_session` every answer about the session has its keys. -/
def KeysFixed (answers : List Answer) : Prop :=
  History.EachAfter (fun before e => ∀ a ∈ before, ∀ id first later,
    a.success = some (id, first) → e.carried = some (id, later) → SameKeys later first) answers

/-- An `accept_session` that takes its step on a session with an agent's key brings
that key. -/
def AcceptsSameKey (p : Pool (State Uuid) Task) (event : Event Call (Draw Uuid)) : Prop :=
  ∀ id key session held, accepting p event = some (id, key) →
    p.shared.server.activeSessions id = some session →
    session.agentPublicKeyHex = some held → key = held

/-- The session is there, with the keys of this one, which was accepted. -/
def Stored (s : Server) (id : String) (first : SignalingSession) : Prop :=
  ∃ now held, s.activeSessions id = some now ∧ SameKeys now first ∧
    first.agentPublicKeyHex = some held

theorem Stored.put {s : Server} {id id' : String} {session changed first : SignalingSession}
    (known : s.activeSessions id = some session)
    (client : changed.clientPublicKeyHex = session.clientPublicKeyHex)
    (agent : ∀ held, session.agentPublicKeyHex = some held →
      changed.agentPublicKeyHex = some held)
    (stored : Stored s id' first) : Stored (put s id changed) id' first := by
  obtain ⟨now, held, there, ⟨same_client, same_agent⟩, has⟩ := stored
  by_cases same : id' = id
  · obtain rfl := Option.some.inj (known.symm.trans (same ▸ there))
    refine ⟨changed, held, by rw [same, put_self], ⟨client.trans same_client, ?_⟩, has⟩
    rw [agent held (same_agent.trans has), has]
  · exact ⟨now, held, by rwa [put_of_ne same], ⟨same_client, same_agent⟩, has⟩

/-- What the answers say, against the sessions. -/
structure Fixed (simple : Uuid → String) (s : State Uuid) : Prop where
  keyed : Keyed simple s.used s.server
  fixed : KeysFixed s.answers
  stored : ∀ a ∈ s.answers, ∀ id first, a.success = some (id, first) → Stored s.server id first

theorem Fixed.append {simple : Uuid → String} {s : State Uuid} (before : Fixed simple s)
    {server : Server} {used : List Uuid} {more : List Answer} (keyed : Keyed simple used server)
    (stays : ∀ id first, Stored s.server id first → Stored server id first)
    (unsuccessful : ∀ e ∈ more, e.success = none)
    (current : ∀ e ∈ more, ∀ id session, e.carried = some (id, session) →
      s.server.activeSessions id = some session) :
    Fixed simple { server := server, used := used, answers := s.answers ++ more } := by
  refine ⟨keyed, before.fixed.append ?_, ?_⟩
  · rintro earlier e since rfl a member id first later success carried
    obtain old | new := List.mem_append.mp member
    · obtain ⟨now, held, there, keys, -⟩ := before.stored a old id first success
      have here := current e (by simp) id later carried
      exact Option.some.inj (there.symm.trans here) ▸ keys
    · rw [unsuccessful a (by simp [new])] at success
      cases success
  · intro a member id first success
    obtain old | new := List.mem_append.mp member
    · exact stays id first (before.stored a old id first success)
    · rw [unsuccessful a new] at success
      cases success

theorem Moved.fixed {simple : Uuid → String} (simple_injective : Function.Injective simple)
    {s t : State Uuid} {accepts : Option (String × String)} (moved : Moved simple s accepts t)
    (same : ∀ id key session held, accepts = some (id, key) →
      s.server.activeSessions id = some session →
      session.agentPublicKeyHex = some held → key = held)
    (before : Fixed simple s) : Fixed simple t := by
  have keyed := moved.keyed before.keyed
  cases moved with
  | quiet more unchanged missed unsuccessful current =>
    refine before.append keyed ?_ unsuccessful current
    rintro id first ⟨now, held, there, keys⟩
    exact ⟨now, held, unchanged ▸ there, keys⟩
  | initiated fresh =>
    refine before.append keyed ?_ (by simp [Answer.success]) (by simp [Answer.carried])
    rintro id first ⟨now, held, there, keys⟩
    exact ⟨now, held, (before.keyed.insertSession_keeps simple_injective fresh ..).sessions there,
      keys⟩
  | closed known =>
    refine before.append keyed ?_ (by simp [Answer.success]) (by simp [Answer.carried])
    intro id first stored
    exact stored.put known rfl fun held has => has
  | @accepted id key session known =>
    -- the session before the step has the key that each earlier success has
    have stays : ∀ a ∈ s.answers, ∀ id' first, a.success = some (id', first) →
        Stored (put s.server id { session with
          agentPublicKeyHex := some key
          status := .active }) id' first := by
      intro a member id' first success
      refine (before.stored a member id' first success).put known rfl fun held has => ?_
      rw [same id key session held rfl known has]
    refine ⟨keyed, before.fixed.concat ?_, ?_⟩
    · rintro a member id' first later success ⟨⟩
      obtain ⟨now, held, there, keys, -⟩ := stays a member id first success
      rw [put_self] at there
      exact Option.some.inj there ▸ keys
    · intro a member id' first success
      obtain old | new := List.mem_append.mp member
      · exact stays a old id' first success
      · rw [List.mem_singleton.mp new] at success
        cases success
        exact ⟨_, key, put_self .., ⟨rfl, rfl⟩, rfl⟩

/-- An agent's key comes from a success. -/
def Backed (s : State Uuid) : Prop :=
  ∀ id session held, s.server.activeSessions id = some session →
    session.agentPublicKeyHex = some held →
    ∃ a ∈ s.answers, ∃ first, a.success = some (id, first) ∧
      first.agentPublicKeyHex = some held

theorem Moved.backed {simple : Uuid → String} {s t : State Uuid}
    {accepts : Option (String × String)} (moved : Moved simple s accepts t) (before : Backed s) :
    Backed t := by
  have older : ∀ id session held, s.server.activeSessions id = some session →
      session.agentPublicKeyHex = some held → ∀ more : List Answer,
      ∃ a ∈ s.answers ++ more, ∃ first, a.success = some (id, first) ∧
        first.agentPublicKeyHex = some held := by
    intro id session held there has more
    obtain ⟨a, member, backs⟩ := before id session held there has
    exact ⟨a, List.mem_append_left more member, backs⟩
  intro id' session' held there has
  cases moved with
  | quiet more unchanged => exact older id' session' held (unchanged ▸ there) has more
  | initiated fresh =>
    obtain ⟨-, rfl⟩ | ⟨-, old⟩ := PartialMap.cases_of_update there
    · cases has
    · exact older id' session' held old has _
  | accepted known =>
    obtain ⟨rfl, rfl⟩ | ⟨-, old⟩ := PartialMap.cases_of_update there
    · exact ⟨_, List.mem_append_right _ (List.mem_singleton_self _), _, rfl, has⟩
    · exact older id' session' held old has _
  | @closed id session known =>
    obtain ⟨rfl, rfl⟩ | ⟨-, old⟩ := PartialMap.cases_of_update there
    · exact older id' session held known has _
    · exact older id' session' held old has _

/-- Another key would be in an answer after the first one. -/
theorem Moved.same_key {simple : Uuid → String} {s t : State Uuid} {id key held : String}
    {session : SignalingSession} (moved : Moved simple s (some (id, key)) t) (backed : Backed s)
    (fixed : KeysFixed t.answers) (known : s.server.activeSessions id = some session)
    (has : session.agentPublicKeyHex = some held) : key = held := by
  obtain ⟨a, member, first, success, carries⟩ := backed id session held known has
  cases moved with
  | quiet more unchanged missed =>
    rw [missed id key rfl] at known
    cases known
  | accepted there =>
    obtain ⟨-, same⟩ := fixed s.answers _ [] rfl a member id first _ success rfl
    exact Option.some.inj (same.trans carries)

theorem Moved.answers_append {simple : Uuid → String} {s t : State Uuid}
    {accepts : Option (String × String)} (moved : Moved simple s accepts t) :
    s.answers <+: t.answers := by
  cases moved <;> exact List.prefix_append ..

theorem KeysFixed.of_prefix {answers more : List Answer} (fixed : KeysFixed more)
    (shorter : answers <+: more) : KeysFixed answers := by
  obtain ⟨rest, rfl⟩ := shorter
  exact fixed.left

theorem answers_append [DecidableEq Uuid] {simple : Uuid → String}
    {before after : List (Event Call (Draw Uuid))} {p q : Pool (State Uuid) Task}
    (reached : run simple before = some p) (ran : run simple (before ++ after) = some q) :
    p.shared.answers <+: q.shared.answers := by
  rw [run, Transitions.run_append] at ran
  rw [run] at reached
  rw [reached, Option.bind_some] at ran
  refine Transitions.run_invariant
    (fun q : Pool (State Uuid) Task => p.shared.answers <+: q.shared.answers)
    (List.prefix_refl _) ?_ ran
  intro q r event stepped so_far
  exact so_far.trans (step_moved stepped).answers_append

theorem keys_fixed_iff [DecidableEq Uuid] {simple : Uuid → String}
    (simple_injective : Function.Injective simple) {events : List (Event Call (Draw Uuid))}
    {p : Pool (State Uuid) Task} (ran : run simple events = some p) :
    KeysFixed p.shared.answers ↔
      Transitions.Throughout (step simple) AcceptsSameKey begin events := by
  constructor
  · rintro fixed before event after q rfl reached id key session held accepts known has
    obtain ⟨r, stepped⟩ := accepting_steps simple accepts
    have moved := step_moved stepped
    have backed : Backed q.shared := by
      refine Transitions.run_invariant
        (fun q : Pool (State Uuid) Task => Backed q.shared) ?_ ?_ reached
      · intro id session held known
        cases known
      · intro p q event stepped
        exact (step_moved stepped).backed
    have further : run simple (before ++ [event]) = some r := by
      rw [run, Transitions.run_concat]
      exact (congrArg (Option.bind · _) reached).trans stepped
    rw [accepts] at moved
    refine moved.same_key backed (fixed.of_prefix ?_) known has
    have ran' : run simple (before ++ [event] ++ after) = some p := by simpa using ran
    exact answers_append further ran'
  · intro all
    have holds : Fixed simple p.shared := by
      refine all.invariant (fun p : Pool (State Uuid) Task => Fixed simple p.shared) ran ?_ ?_
      · refine ⟨?_, History.eachAfter_nil _, by simp [start]⟩
        intro id session known
        cases known
      · intro p q event same stepped
        exact (step_moved stepped).fixed simple_injective same
    exact holds.fixed

theorem keys_fixed_iff_timely :
    ∃ p, run AuditLog.hexEncode (initiation ++ timelyAcceptance) = some p ∧
      KeysFixed p.shared.answers := by
  obtain ⟨p, ran⟩ : ∃ p, run AuditLog.hexEncode (initiation ++ timelyAcceptance) = some p :=
    ⟨_, rfl⟩
  refine ⟨p, ran, (keys_fixed_iff AuditLog.hexEncode_injective ran).mpr
    (throughout_timely (fun quiet id key session held accepts => ?_) ?_)⟩
  · rw [quiet] at accepts
    cases accepts
  · intro p i session here known _ keys id key session' held accepts known' has
    obtain ⟨rfl, rfl⟩ := Prod.mk.inj (Option.some.inj (here.symm.trans accepts))
    obtain rfl := Option.some.inj (known.symm.trans known')
    rw [has, List.mem_pair] at keys
    exact (Option.some.inj (keys.resolve_left (Option.some_ne_none held))).symm

/-- Somebody else who knows the session's id accepts it again. -/
def secondAcceptance : List (Event Call (Draw (List UInt8))) :=
  [.spawn (.acceptSession deviceSession "100f"), .advance 2 device,
    .spawn (.acceptSession deviceSession "ffff"), .advance 3 device]

theorem second_acceptance_changes_the_key :
    ∃ p, run AuditLog.hexEncode (initiation ++ secondAcceptance) = some p ∧
      ¬ KeysFixed p.shared.answers := by
  obtain ⟨p, before, first, later, ran, answers, keys⟩ : ∃ p before first later,
      run AuditLog.hexEncode (initiation ++ secondAcceptance) = some p ∧
        p.shared.answers = before ++ [.accepted deviceSession (.ok first),
          .accepted deviceSession (.ok later)] ∧
        (first.agentPublicKeyHex, later.agentPublicKeyHex) = (some "100f", some "ffff") :=
    ⟨_, [_, _], _, _, rfl, rfl, rfl⟩
  refine ⟨p, ran, fun fixed => ?_⟩
  obtain ⟨-, same⟩ := fixed (before ++ [.accepted deviceSession (.ok first)])
    (.accepted deviceSession (.ok later)) [] (by rw [answers, List.append_cons, List.append_assoc])
    (.accepted deviceSession (.ok first)) (by simp) deviceSession first later rfl rfl
  obtain ⟨one, other⟩ := Prod.mk.inj keys
  rw [one, other] at same
  exact absurd same (by decide)

end RemoteAccess.SignalingSessions

import RemoteAccess.ApiGateway

/-! Which session requests the gateway grants, whatever its handlers do meanwhile: those whose
target another handler has registered by the moment the request looks for it. -/

namespace RemoteAccess.GatewaySessions

open AuditLog IdentityStore SignalingServer Interleaving ApiGateway

variable {Uuid : Type}

/-- The handler has registered this device as a peer. -/
def Announced : Handler → Device → Prop
  | .peerRegistered _ device, d | .registered _ device _, d => device = d
  | _, _ => False

def Holds : Handler → InitiateSessionRequest → SignalingSession → Prop
  | .sessionInserted req session, r, s | .initiated req session _, r, s => req = r ∧ session = s
  | _, _, _ => False

def Refused : Handler → InitiateSessionRequest → String → Prop
  | .targetOffline req err, r, e | .failed req err _, r, e => req = r ∧ err = e
  | _, _, _ => False

structure MadeFor (req : InitiateSessionRequest) (session : SignalingSession) : Prop where
  client : session.clientDeviceId = req.clientDeviceId
  agent : session.agentDeviceId = req.targetAgentId
  clientKey : session.clientPublicKeyHex = req.clientPublicKeyHex
  agentKey : session.agentPublicKeyHex = none
  status : session.status = .initiated

/-- What a session handler may rely on beside `Known`. -/
def Told (s : State Uuid) : Handler → Prop
  | .targetOnline req => s.signaling.onlinePeers req.targetAgentId = some true
  | .sessionInserted req session | .initiated req session _ =>
    s.signaling.onlinePeers req.targetAgentId = some true ∧ MadeFor req session
  | .targetOffline req err | .failed req err _ => err = offlineError req.targetAgentId
  | .waiting _ | .deviceInserted .. | .tokenInserted .. | .peerRegistered .. | .registered ..
  | .created .. => True

theorem Told.mono {s t : State Uuid} {h : Handler} (told : Told s h) (grows : Grows s t) :
    Told t h := by
  cases h with
  | targetOnline req => exact grows.signaling.agents told
  | sessionInserted req session => exact ⟨grows.signaling.agents told.1, told.2⟩
  | initiated req session event => exact ⟨grows.signaling.agents told.1, told.2⟩
  | targetOffline req err => exact told
  | failed req err event => exact told
  | _ => trivial

section Steps

variable [DecidableEq Uuid] {sha256 : List UInt8 → List UInt8} {simple hyphenated : Uuid → String}
  {s t : State Uuid} {h h' : Handler} {draw : Draw Uuid}

theorem isPeerOnline_iff (server : Server) (id : String) :
    isPeerOnline server id = true ↔ server.onlinePeers id = some true := by
  rw [isPeerOnline]
  cases server.onlinePeers id with
  | none => simp
  | some agent => simp

/-- What a logging step makes of a handler. -/
inductive Logs : Handler → (AuditEvent → Handler) → Prop
  | registered (req : RegistrationRequest) (device : Device) :
    Logs (.peerRegistered req device) (.registered req device)
  | initiated (req : InitiateSessionRequest) (session : SignalingSession) :
    Logs (.sessionInserted req session) (.initiated req session)
  | failed (req : InitiateSessionRequest) (err : String) :
    Logs (.targetOffline req err) (.failed req err)
  | created (fields : Fields) : Logs (.waiting (.createAuditLog fields)) (.created fields)

inductive Moves (simple : Uuid → String) (s t : State Uuid) : Handler → Handler → Prop
  | insertDevice (req : RegistrationRequest) (device : Device) (same : t.signaling = s.signaling) :
    Moves simple s t (.waiting (.registerDevice req)) (.deviceInserted req device)
  | insertToken (req : RegistrationRequest) (device : Device) (same : t.signaling = s.signaling) :
    Moves simple s t (.deviceInserted req device) (.tokenInserted req device)
  | registerPeer (req : RegistrationRequest) (device : Device)
    (peer : t.signaling = registerPeer s.signaling device.deviceId true) :
    Moves simple s t (.tokenInserted req device) (.peerRegistered req device)
  | online (req : InitiateSessionRequest) (same : t.signaling = s.signaling)
    (found : isPeerOnline s.signaling req.targetAgentId = true) :
    Moves simple s t (.waiting (.initiateSession req)) (.targetOnline req)
  | offline (req : InitiateSessionRequest) (same : t.signaling = s.signaling)
    (missing : ¬ isPeerOnline s.signaling req.targetAgentId = true) :
    Moves simple s t (.waiting (.initiateSession req))
      (.targetOffline req (offlineError req.targetAgentId))
  | insertSession (req : InitiateSessionRequest) (u : Uuid) (nowMs : UInt64)
    (stored : t.signaling = insertSession s.signaling (newSession simple req.clientDeviceId
      req.targetAgentId req.clientPublicKeyHex u nowMs)) :
    Moves simple s t (.targetOnline req) (.sessionInserted req (newSession simple
      req.clientDeviceId req.targetAgentId req.clientPublicKeyHex u nowMs))
  | log {h : Handler} {done : AuditEvent → Handler} (logs : Logs h done) (event : AuditEvent)
    (same : t.signaling = s.signaling) : Moves simple s t h (done event)

theorem advance_moves (moved : advance sha256 simple hyphenated s h draw = some (t, h')) :
    Moves simple s t h h' := by
  have logged : ∀ {fields done}, log sha256 hyphenated s fields draw done = some (t, h') →
      Logs h done → Moves simple s t h h' := by
    intro fields done moved logs
    obtain ⟨event, rfl, rfl, -⟩ := log_cases moved
    exact .log logs event rfl
  cases h with
  | waiting request =>
    cases request with
    | registerDevice req =>
      simp only [advance] at moved
      split_ifs at moved
      obtain ⟨rfl, rfl⟩ := Prod.mk.inj (Option.some.inj moved)
      exact .insertDevice req _ rfl
    | initiateSession req =>
      simp only [advance] at moved
      split_ifs at moved with found
      · obtain ⟨rfl, rfl⟩ := Prod.mk.inj (Option.some.inj moved)
        exact .online req rfl found
      · obtain ⟨rfl, rfl⟩ := Prod.mk.inj (Option.some.inj moved)
        exact .offline req rfl found
    | createAuditLog fields => exact logged moved (.created fields)
  | deviceInserted req device =>
    obtain ⟨rfl, rfl⟩ := Prod.mk.inj (Option.some.inj moved)
    exact .insertToken req device rfl
  | tokenInserted req device =>
    obtain ⟨rfl, rfl⟩ := Prod.mk.inj (Option.some.inj moved)
    exact .registerPeer req device rfl
  | peerRegistered req device => exact logged moved (.registered req device)
  | registered req device event => cases moved
  | targetOnline req =>
    simp only [advance] at moved
    split_ifs at moved
    obtain ⟨rfl, rfl⟩ := Prod.mk.inj (Option.some.inj moved)
    exact .insertSession req _ _ rfl
  | sessionInserted req session => exact logged moved (.initiated req session)
  | initiated req session event => cases moved
  | targetOffline req err => exact logged moved (.failed req err)
  | failed req err event => cases moved
  | created fields event => cases moved

omit [DecidableEq Uuid] in
theorem Moves.announced (moves : Moves simple s t h h') :
    (∀ id, t.signaling.onlinePeers id = some true → s.signaling.onlinePeers id = some true ∨
      ∃ device, Announced h' device ∧ device.deviceId = id) ∧
    ∀ device, Announced h device → Announced h' device := by
  have still : t.signaling.onlinePeers = s.signaling.onlinePeers →
      ∀ id, t.signaling.onlinePeers id = some true → s.signaling.onlinePeers id = some true ∨
        ∃ device, Announced h' device ∧ device.deviceId = id :=
    fun same id online => .inl (same ▸ online)
  cases moves with
  | insertDevice req device same => exact ⟨still (same ▸ rfl), fun _ => False.elim⟩
  | insertToken req device same => exact ⟨still (same ▸ rfl), fun _ => False.elim⟩
  | registerPeer req device peer =>
    refine ⟨fun id online => ?_, fun _ => False.elim⟩
    rw [peer] at online
    obtain ⟨rfl, -⟩ | ⟨-, old⟩ := PartialMap.cases_of_update online
    · exact .inr ⟨device, rfl, rfl⟩
    · exact .inl old
  | online req same => exact ⟨still (same ▸ rfl), fun _ => False.elim⟩
  | offline req same => exact ⟨still (same ▸ rfl), fun _ => False.elim⟩
  | insertSession req u nowMs stored => exact ⟨still (stored ▸ rfl), fun _ => False.elim⟩
  | log logs event same =>
    refine ⟨still (same ▸ rfl), fun device made => ?_⟩
    cases logs with
    | registered req device => exact made
    | initiated req session => exact made
    | failed req err => exact made
    | created fields => exact made

omit [DecidableEq Uuid] in
theorem Moves.told (moves : Moves simple s t h h') (grows : Grows s t) (told : Told s h) :
    Told t h' := by
  have later := told.mono grows
  cases moves with
  | insertDevice req device => trivial
  | insertToken req device => trivial
  | registerPeer req device => trivial
  | online req same found => exact grows.signaling.agents ((isPeerOnline_iff _ _).mp found)
  | offline req => rfl
  | insertSession req u nowMs => exact ⟨later, ⟨rfl, rfl, rfl, rfl, rfl⟩⟩
  | log logs event same =>
    cases logs with
    | registered req device => trivial
    | initiated req session => exact later
    | failed req err => exact later
    | created fields => trivial

theorem advance_keeps_told (simple_injective : Function.Injective simple) :
    Keeps Handler.waiting (advance sha256 simple hyphenated) (Invariant sha256 simple)
      fun s h => Known s h ∧ Told s h where
  begins _ _ := ⟨trivial, trivial⟩
  shared moved inv known := (advance_spec simple_injective moved inv known.1).1
  own moved inv known := by
    obtain ⟨-, grows, next⟩ := advance_spec simple_injective moved inv known.1
    exact ⟨next, (advance_moves moved).told grows known.2⟩
  others moved inv known _ told := by
    have grows := (advance_spec simple_injective moved inv known.1).2.1
    exact ⟨told.1.mono grows, told.2.mono grows⟩

variable {events : List (Event Request (Draw Uuid))} {pool : Pool (State Uuid) Handler}

theorem online_iff (simple_injective : Function.Injective simple)
    (ran : run sha256 simple hyphenated events = some pool) (id : String) :
    pool.shared.signaling.onlinePeers id = some true ↔
      ∃ h ∈ pool.tasks, ∃ device, Announced h device ∧ device.deviceId = id := by
  constructor
  · exact claimed_owned (fun s id => s.signaling.onlinePeers id = some true)
      (fun h id => ∃ device, Announced h device ∧ device.deviceId = id)
      (fun moved online => (advance_moves moved).announced.1 _ online)
      (fun moved owned =>
        owned.imp fun _ made => made.imp_left ((advance_moves moved).announced.2 _))
      (fun id online => by cases online) ran id
  · rintro ⟨h, member, device, announced, rfl⟩
    have known := (((advance_keeps_told simple_injective).run invariant_start ran).2 h member).1
    cases h with
    | peerRegistered req made =>
      obtain rfl : made = device := announced
      exact known.2.2
    | registered req made event =>
      obtain rfl : made = device := announced
      exact known.2.2.1
    | _ => exact announced.elim

/-- Every request looks its target up once: it goes on exactly if a registration has registered
that device by then, and is refused for that reason otherwise. -/
theorem decided_when_looked_up (simple_injective : Function.Injective simple)
    (ran : run sha256 simple hyphenated events = some pool) {i : Nat} {req : InitiateSessionRequest}
    (here : pool.tasks[i]? = some (.waiting (.initiateSession req))) (draw : Draw Uuid) :
    ∃ next, run sha256 simple hyphenated (events ++ [.advance i draw]) = some next ∧
      next.shared = pool.shared ∧
      ((∃ h ∈ pool.tasks, ∃ device, Announced h device ∧ device.deviceId = req.targetAgentId) ∧
          next.tasks[i]? = some (.targetOnline req) ∨
        (¬ ∃ h ∈ pool.tasks, ∃ device, Announced h device ∧ device.deviceId = req.targetAgentId) ∧
          next.tasks[i]? = some (.targetOffline req (offlineError req.targetAgentId))) := by
  obtain ⟨inside, -⟩ := List.getElem?_eq_some_iff.mp here
  have again : ∀ next, step Handler.waiting (advance sha256 simple hyphenated) pool
      (.advance i draw) = some next →
      run sha256 simple hyphenated (events ++ [.advance i draw]) = some next := by
    intro next stepped
    unfold ApiGateway.run Interleaving.run at *
    rw [Transitions.run_concat, ran, Option.bind_some, stepped]
  have registered := online_iff simple_injective ran req.targetAgentId
  rw [← isPeerOnline_iff] at registered
  by_cases online : isPeerOnline pool.shared.signaling req.targetAgentId = true
  · refine ⟨⟨pool.shared, pool.tasks.set i (.targetOnline req)⟩, again _ ?_, rfl,
      .inl ⟨registered.mp online, List.getElem?_set_self inside⟩⟩
    simp only [step, here, advance, if_pos online]
  · refine ⟨⟨pool.shared, pool.tasks.set i (.targetOffline req (offlineError req.targetAgentId))⟩,
      again _ ?_, rfl, .inr ⟨mt registered.mpr online, List.getElem?_set_self inside⟩⟩
    simp only [step, here, advance, if_neg online]

end Steps

/-- In every interleaving a session is stored with the data of its request, between the client
that asked and a device that some handler registered: on record, with its token, and online. A
request that was refused names its target. -/
theorem sessions_reach_registered_agents [DecidableEq Uuid] (sha256 : List UInt8 → List UInt8)
    {simple : Uuid → String} (simple_injective : Function.Injective simple)
    (hyphenated : Uuid → String) (events : List (Event Request (Draw Uuid)))
    (pool : Pool (State Uuid) Handler) (ran : run sha256 simple hyphenated events = some pool) :
    (∀ h ∈ pool.tasks, ∀ req session, Holds h req session →
      MadeFor req session ∧ pool.shared.signaling.activeSessions session.sessionId = some session ∧
      ∃ other ∈ pool.tasks, ∃ device, Announced other device ∧
        device.deviceId = req.targetAgentId ∧ Recorded pool.shared.identity device ∧
        pool.shared.identity.tokens device.authToken = some device.deviceId) ∧
    (∀ h ∈ pool.tasks, ∀ req err, Refused h req err → err = offlineError req.targetAgentId) ∧
    ∀ i req, pool.tasks[i]? = some (.waiting (.initiateSession req)) → ∀ draw, ∃ next,
      run sha256 simple hyphenated (events ++ [.advance i draw]) = some next ∧
      next.shared = pool.shared ∧
      ((∃ h ∈ pool.tasks, ∃ device, Announced h device ∧ device.deviceId = req.targetAgentId) ∧
          next.tasks[i]? = some (.targetOnline req) ∨
        (¬ ∃ h ∈ pool.tasks, ∃ device, Announced h device ∧ device.deviceId = req.targetAgentId) ∧
          next.tasks[i]? = some (.targetOffline req (offlineError req.targetAgentId))) := by
  have all := ((advance_keeps_told simple_injective).run invariant_start ran).2
  refine ⟨fun h member req session holds => ?_, fun h member req err refused => ?_,
    fun i req here draw => decided_when_looked_up simple_injective ran here draw⟩
  · obtain ⟨made, stored, online⟩ : MadeFor req session ∧
        pool.shared.signaling.activeSessions session.sessionId = some session ∧
        pool.shared.signaling.onlinePeers req.targetAgentId = some true := by
      obtain ⟨known, told⟩ := all h member
      cases h with
      | sessionInserted req' session' =>
        obtain ⟨rfl, rfl⟩ := holds
        exact ⟨told.2, known, told.1⟩
      | initiated req' session' event =>
        obtain ⟨rfl, rfl⟩ := holds
        exact ⟨told.2, known.1, told.1⟩
      | _ => exact holds.elim
    obtain ⟨other, found, device, announced, same⟩ :=
      (online_iff simple_injective ran req.targetAgentId).mp online
    refine ⟨made, stored, other, found, device, announced, same, ?_⟩
    have known := (all other found).1
    cases other with
    | peerRegistered req' device' =>
      obtain rfl : device' = device := announced
      exact ⟨known.1, known.2.1⟩
    | registered req' device' event =>
      obtain rfl : device' = device := announced
      exact ⟨known.1, known.2.1⟩
    | _ => exact announced.elim
  · obtain ⟨-, told⟩ := all h member
    cases h with
    | targetOffline req' err' =>
      obtain ⟨rfl, rfl⟩ := refused
      exact told
    | failed req' err' event =>
      obtain ⟨rfl, rfl⟩ := refused
      exact told
    | _ => exact refused.elim

def request : InitiateSessionRequest where
  clientDeviceId := "client-001"
  targetAgentId := newDeviceId hexEncode (List.replicate 16 0x5a)
  clientPublicKeyHex := "abcd"

/-- A session with a device whose registration has yet to be logged. -/
def early : List (Event Request (Draw (List UInt8))) :=
  [.spawn (.initiateSession request),
    .spawn (.registerDevice ⟨"dell-latitude-7480", "Linux Ubuntu 24.04", "0102"⟩),
    .advance 1 ⟨List.replicate 16 0x5a, List.replicate 16 0xc3, 7, ""⟩,
    .advance 1 ⟨[], [], 7, ""⟩, .advance 1 ⟨[], [], 7, ""⟩, .advance 0 ⟨[], [], 8, ""⟩,
    .advance 0 ⟨List.replicate 16 0x3c, [], 8, ""⟩]

theorem sessions_reach_registered_agents_early :
    ∃ pool session, run SecureHash.digest hexEncode hyphenated early = some pool ∧
      MadeFor request session ∧
      pool.shared.signaling.activeSessions session.sessionId = some session := by
  obtain ⟨pool, session, ran, held⟩ : ∃ pool session,
      run SecureHash.digest hexEncode hyphenated early = some pool ∧
        pool.tasks[0]? = some (.sessionInserted request session) := ⟨_, _, rfl, rfl⟩
  obtain ⟨granted, -⟩ := sessions_reach_registered_agents SecureHash.digest
    hexEncode_injective hyphenated early pool ran
  obtain ⟨made, stored, -⟩ := granted _ (List.mem_of_getElem? held) request session ⟨rfl, rfl⟩
  exact ⟨pool, session, ran, made, stored⟩

end RemoteAccess.GatewaySessions

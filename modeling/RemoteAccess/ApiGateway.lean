import RemoteAccess.AuditLog
import RemoteAccess.Basics.Interleaving
import RemoteAccess.Basics.SecureHash
import RemoteAccess.IdentityStore
import RemoteAccess.SignalingServer

/-! The three handlers of the gateway that write, running concurrently on the
stores of three services. A handler gives way at every lock it waits for, so a
registration is four steps and a session two or three, with anything of the other
handlers in between. -/

namespace RemoteAccess.ApiGateway

open AuditLog IdentityStore SignalingServer Interleaving

variable {Uuid : Type}

/-- The stores of `AppState`, and the UUIDs drawn so far. -/
structure State (Uuid : Type) where
  identity : Store
  signaling : Server
  audit : List AuditEvent
  used : List Uuid

def start : State Uuid where
  identity := IdentityStore.empty
  signaling := SignalingServer.empty
  audit := []
  used := []

structure InitiateSessionRequest where
  clientDeviceId : String
  targetAgentId : String
  clientPublicKeyHex : String

inductive Request
  | registerDevice (req : RegistrationRequest)
  | initiateSession (req : InitiateSessionRequest)
  | createAuditLog (fields : Fields)

/-- Where a handler is. Each that has logged keeps the event it logged. -/
inductive Handler
  | waiting (request : Request)
  | deviceInserted (req : RegistrationRequest) (device : Device)
  | tokenInserted (req : RegistrationRequest) (device : Device)
  | peerRegistered (req : RegistrationRequest) (device : Device)
  | registered (req : RegistrationRequest) (device : Device) (event : AuditEvent)
  | targetOnline (req : InitiateSessionRequest)
  | sessionInserted (req : InitiateSessionRequest) (session : SignalingSession)
  | initiated (req : InitiateSessionRequest) (session : SignalingSession) (event : AuditEvent)
  | targetOffline (req : InitiateSessionRequest) (err : String)
  | failed (req : InitiateSessionRequest) (err : String) (event : AuditEvent)
  | created (fields : Fields) (event : AuditEvent)

/-- Two calls of `Uuid::new_v4()`, and the two clocks. -/
structure Draw (Uuid : Type) where
  first : Uuid
  second : Uuid
  nowMs : UInt64
  timestamp : String

def registerFields (req : RegistrationRequest) (device : Device) : Fields where
  eventType := "DEVICE_REGISTER"
  actor := req.hostname
  resource := device.deviceId
  status := "SUCCESS"
  details := "Registered new remote desktop agent device"

def connectFields (req : InitiateSessionRequest) (session : SignalingSession) : Fields where
  eventType := "SESSION_CONNECT"
  actor := req.clientDeviceId
  resource := req.targetAgentId
  status := "SUCCESS"
  details := "Initiated session " ++ session.sessionId

def failedFields (req : InitiateSessionRequest) (err : String) : Fields where
  eventType := "SESSION_CONNECT"
  actor := req.clientDeviceId
  resource := req.targetAgentId
  status := "FAILED"
  details := err

section Steps

variable [DecidableEq Uuid] (sha256 : List UInt8 → List UInt8) (simple hyphenated : Uuid → String)

/-- `log_event`, whose event id is one more UUID. -/
def log (s : State Uuid) (fields : Fields) (draw : Draw Uuid)
    (done : AuditEvent → Handler) : Option (State Uuid × Handler) :=
  if draw.first ∈ s.used then none
  else
    (logEvent sha256 s.audit fields ⟨hyphenated draw.first, draw.timestamp⟩).map
      fun (event, audit) => ({ s with audit := audit, used := draw.first :: s.used }, done event)

/-- A handler gets the lock it waits for. -/
def advance (s : State Uuid) : Handler → Draw Uuid → Option (State Uuid × Handler)
  | .waiting (.registerDevice req), draw =>
    if draw.first ∈ s.used ∨ draw.second ∈ s.used ∨ draw.first = draw.second then none
    else
      let device := newDevice simple req draw.first draw.second draw.nowMs
      some ({ s with
        identity := insertDevice s.identity device
        used := draw.first :: draw.second :: s.used }, .deviceInserted req device)
  | .deviceInserted req device, _ =>
    some ({ s with identity := insertToken s.identity device }, .tokenInserted req device)
  | .tokenInserted req device, _ =>
    some ({ s with signaling := registerPeer s.signaling device.deviceId true },
      .peerRegistered req device)
  | .peerRegistered req device, draw =>
    log sha256 hyphenated s (registerFields req device) draw (.registered req device)
  | .waiting (.initiateSession req), _ =>
    if isPeerOnline s.signaling req.targetAgentId then some (s, .targetOnline req)
    else some (s, .targetOffline req (offlineError req.targetAgentId))
  | .targetOnline req, draw =>
    if draw.first ∈ s.used then none
    else
      let session := newSession simple req.clientDeviceId req.targetAgentId
        req.clientPublicKeyHex draw.first draw.nowMs
      some ({ s with
        signaling := insertSession s.signaling session
        used := draw.first :: s.used }, .sessionInserted req session)
  | .sessionInserted req session, draw =>
    log sha256 hyphenated s (connectFields req session) draw (.initiated req session)
  | .targetOffline req err, draw =>
    log sha256 hyphenated s (failedFields req err) draw (.failed req err)
  | .waiting (.createAuditLog fields), draw =>
    log sha256 hyphenated s fields draw (.created fields)
  | .registered .., _ | .initiated .., _ | .failed .., _ | .created .., _ => none

def run (events : List (Event Request (Draw Uuid))) : Option (Pool (State Uuid) Handler) :=
  Interleaving.run Handler.waiting (advance sha256 simple hyphenated) start events

end Steps

namespace Handler

def logged : Handler → Option AuditEvent
  | registered _ _ event | initiated _ _ event | failed _ _ event | created _ event => some event
  | waiting _ | deviceInserted .. | tokenInserted .. | peerRegistered .. | targetOnline _
  | sessionInserted .. | targetOffline .. => none

def finished (h : Handler) : Prop := h.logged ≠ none

def ownsDevice : Handler → String → Prop
  | deviceInserted _ device, id | tokenInserted _ device, id | peerRegistered _ device, id
  | registered _ device _, id => device.deviceId = id
  | _, _ => False

def ownsSession : Handler → String → Prop
  | sessionInserted _ session, id | initiated _ session _, id => session.sessionId = id
  | _, _ => False

end Handler

/-! ### One step -/

structure LoggedWith (audit : List AuditEvent) (f : Fields) (event : AuditEvent) : Prop where
  recorded : event ∈ audit
  eventType : event.eventType = f.eventType
  actor : event.actor = f.actor
  resource : event.resource = f.resource
  status : event.status = f.status
  details : event.details = f.details

/-- What a handler may rely on, whatever the others do. -/
def Known (s : State Uuid) : Handler → Prop
  | .waiting _ | .targetOnline _ | .targetOffline .. => True
  | .deviceInserted _ device => Recorded s.identity device
  | .tokenInserted _ device => Recorded s.identity device ∧
      s.identity.tokens device.authToken = some device.deviceId
  | .peerRegistered _ device => Recorded s.identity device ∧
      s.identity.tokens device.authToken = some device.deviceId ∧
      s.signaling.onlinePeers device.deviceId = some true
  | .registered req device event => Recorded s.identity device ∧
      s.identity.tokens device.authToken = some device.deviceId ∧
      s.signaling.onlinePeers device.deviceId = some true ∧
      LoggedWith s.audit (registerFields req device) event
  | .sessionInserted _ session =>
    s.signaling.activeSessions session.sessionId = some session
  | .initiated req session event =>
    s.signaling.activeSessions session.sessionId = some session ∧
      LoggedWith s.audit (connectFields req session) event
  | .failed req err event => LoggedWith s.audit (failedFields req err) event
  | .created fields event => LoggedWith s.audit fields event

structure Grows (s t : State Uuid) : Prop where
  identity : IdentityStore.Keeps s.identity t.identity
  signaling : SignalingServer.Keeps s.signaling t.signaling
  audit : s.audit ⊆ t.audit

theorem Grows.refl (s : State Uuid) : Grows s s := ⟨.refl _, .refl _, List.Subset.refl _⟩

theorem LoggedWith.mono {audit audit' : List AuditEvent} {f : Fields} {event : AuditEvent}
    (known : LoggedWith audit f event) (sub : audit ⊆ audit') : LoggedWith audit' f event :=
  { known with recorded := sub known.recorded }

theorem Known.mono {s t : State Uuid} {h : Handler} (known : Known s h) (grows : Grows s t) :
    Known t h := by
  cases h with
  | waiting request => trivial
  | deviceInserted req device => exact Recorded.mono known grows.identity
  | tokenInserted req device =>
    exact ⟨known.1.mono grows.identity, grows.identity.tokens known.2⟩
  | peerRegistered req device =>
    exact ⟨known.1.mono grows.identity, grows.identity.tokens known.2.1,
      grows.signaling.agents known.2.2⟩
  | registered req device event =>
    exact ⟨known.1.mono grows.identity, grows.identity.tokens known.2.1,
      grows.signaling.agents known.2.2.1, known.2.2.2.mono grows.audit⟩
  | targetOnline req => trivial
  | sessionInserted req session => exact grows.signaling.sessions known
  | initiated req session event =>
    exact ⟨grows.signaling.sessions known.1, known.2.mono grows.audit⟩
  | targetOffline req err => trivial
  | failed req err event => exact LoggedWith.mono known grows.audit
  | created fields event => exact LoggedWith.mono known grows.audit

structure Invariant (sha256 : List UInt8 → List UInt8) (simple : Uuid → String)
    (s : State Uuid) : Prop where
  identity : Consistent simple s.used s.identity
  sessions : Keyed simple s.used s.signaling
  audit : Chained sha256 s.audit

section Steps

variable [DecidableEq Uuid] {sha256 : List UInt8 → List UInt8} {simple hyphenated : Uuid → String}
  {s t : State Uuid} {h h' : Handler} {draw : Draw Uuid}

theorem log_cases {fields : Fields} {done : AuditEvent → Handler}
    (moved : log sha256 hyphenated s fields draw done = some (t, h')) :
    ∃ event, h' = done event ∧
      t = { s with audit := s.audit ++ [event], used := draw.first :: s.used } ∧
      Linked sha256 s.audit event ∧ s.audit.length < maxEvents ∧
      LoggedWith (s.audit ++ [event]) fields event := by
  unfold log at moved
  split_ifs at moved
  obtain ⟨⟨event, audit⟩, called, same⟩ := Option.map_eq_some_iff.mp moved
  obtain ⟨rfl, rfl⟩ := Prod.mk.inj same
  obtain ⟨rfl, link, room, type, actor, resource, status, details⟩ := logEvent_cases called
  exact ⟨event, rfl, rfl, link, room, by simp, type, actor, resource, status, details⟩

theorem log_spec {fields : Fields} {done : AuditEvent → Handler}
    (moved : log sha256 hyphenated s fields draw done = some (t, h'))
    (inv : Invariant sha256 simple s) :
    Invariant sha256 simple t ∧ Grows s t ∧
      ∃ event, h' = done event ∧ LoggedWith t.audit fields event := by
  obtain ⟨event, rfl, rfl, link, room, logged⟩ := log_cases moved
  exact ⟨⟨inv.identity.weaken (by simp), inv.sessions.weaken (by simp),
    inv.audit.concat link room⟩, ⟨.refl _, .refl _, by simp⟩, event, rfl, logged⟩

theorem advance_spec (simple_injective : Function.Injective simple)
    (moved : advance sha256 simple hyphenated s h draw = some (t, h'))
    (inv : Invariant sha256 simple s) (known : Known s h) :
    Invariant sha256 simple t ∧ Grows s t ∧ Known t h' := by
  cases h with
  | waiting request =>
    cases request with
    | registerDevice req =>
      simp only [advance] at moved
      split_ifs at moved with taken
      obtain ⟨rfl, rfl⟩ := Prod.mk.inj (Option.some.inj moved)
      obtain ⟨freshu, freshv, -⟩ : draw.first ∉ s.used ∧ draw.second ∉ s.used ∧
          draw.first ≠ draw.second := by simpa using taken
      refine ⟨⟨inv.identity.insertDevice simple_injective req draw.nowMs freshu freshv,
        inv.sessions.weaken (by simp), inv.audit⟩, ⟨?_, .refl _, List.Subset.refl _⟩, ?_⟩
      · exact inv.identity.insertDevice_keeps simple_injective req draw.nowMs freshu
      · exact ⟨_, Function.update_self .., .refl _⟩
    | initiateSession req =>
      simp only [advance] at moved
      split_ifs at moved
      · obtain ⟨rfl, rfl⟩ := Prod.mk.inj (Option.some.inj moved)
        exact ⟨inv, .refl _, trivial⟩
      · obtain ⟨rfl, rfl⟩ := Prod.mk.inj (Option.some.inj moved)
        exact ⟨inv, .refl _, trivial⟩
    | createAuditLog fields =>
      obtain ⟨inv', grows, event, rfl, logged⟩ := log_spec moved inv
      exact ⟨inv', grows, logged⟩
  | deviceInserted req device =>
    obtain ⟨rfl, rfl⟩ := Prod.mk.inj (Option.some.inj moved)
    have keeps := inv.identity.insertToken_keeps known
    exact ⟨⟨inv.identity.insertToken known, inv.sessions, inv.audit⟩,
      ⟨keeps, .refl _, List.Subset.refl _⟩, Recorded.mono known keeps,
      Function.update_self ..⟩
  | tokenInserted req device =>
    obtain ⟨rfl, rfl⟩ := Prod.mk.inj (Option.some.inj moved)
    obtain ⟨recorded, token⟩ := known
    exact ⟨⟨inv.identity, inv.sessions, inv.audit⟩,
      ⟨.refl _, registerPeer_keeps _ _, List.Subset.refl _⟩, recorded, token,
      Function.update_self ..⟩
  | peerRegistered req device =>
    obtain ⟨inv', grows, event, rfl, logged⟩ := log_spec moved inv
    obtain ⟨recorded, token, online⟩ := known
    exact ⟨inv', grows, recorded.mono grows.identity, grows.identity.tokens token,
      grows.signaling.agents online, logged⟩
  | registered req device event => cases moved
  | targetOnline req =>
    simp only [advance] at moved
    split_ifs at moved with fresh
    obtain ⟨rfl, rfl⟩ := Prod.mk.inj (Option.some.inj moved)
    refine ⟨⟨inv.identity.weaken (by simp), inv.sessions.insertSession _ _ _ _, inv.audit⟩,
      ⟨.refl _, ?_, List.Subset.refl _⟩, Function.update_self ..⟩
    exact inv.sessions.insertSession_keeps simple_injective fresh _ _ _ _
  | sessionInserted req session =>
    obtain ⟨inv', grows, event, rfl, logged⟩ := log_spec moved inv
    exact ⟨inv', grows, grows.signaling.sessions known, logged⟩
  | initiated req session event => cases moved
  | targetOffline req err =>
    obtain ⟨inv', grows, event, rfl, logged⟩ := log_spec moved inv
    exact ⟨inv', grows, logged⟩
  | failed req err event => cases moved
  | created fields event => cases moved

theorem advance_keeps (simple_injective : Function.Injective simple) :
    Interleaving.Keeps Handler.waiting (advance sha256 simple hyphenated)
      (Invariant sha256 simple) Known where
  begins _ _ := trivial
  shared moved inv known := (advance_spec simple_injective moved inv known).1
  own moved inv known := (advance_spec simple_injective moved inv known).2.2
  others moved inv known _ told := told.mono (advance_spec simple_injective moved inv known).2.1

omit [DecidableEq Uuid] in
theorem invariant_start : Invariant sha256 simple start where
  identity := consistent_empty simple
  sessions _ _ known := by cases known
  audit := chained_nil sha256

/-! ### Who did it -/

/-- A handler keeps the device and the session it made, and a device or session
that is new is its own. -/
structure Answers (s t : State Uuid) (h h' : Handler) : Prop where
  device : ∀ {id}, h.ownsDevice id → h'.ownsDevice id
  session : ∀ {id}, h.ownsSession id → h'.ownsSession id
  new_device : ∀ {id}, t.identity.devices id ≠ none →
    s.identity.devices id ≠ none ∨ h'.ownsDevice id
  new_session : ∀ {id}, t.signaling.activeSessions id ≠ none →
    s.signaling.activeSessions id ≠ none ∨ h'.ownsSession id

omit [DecidableEq Uuid] in
theorem Answers.of_same (devices : t.identity.devices = s.identity.devices)
    (sessions : t.signaling.activeSessions = s.signaling.activeSessions)
    (device : ∀ {id}, h.ownsDevice id → h'.ownsDevice id)
    (session : ∀ {id}, h.ownsSession id → h'.ownsSession id) : Answers s t h h' where
  device := device
  session := session
  new_device known := .inl (devices ▸ known)
  new_session known := .inl (sessions ▸ known)

theorem advance_answers (moved : advance sha256 simple hyphenated s h draw = some (t, h')) :
    Answers s t h h' := by
  have logs : ∀ {fields done}, log sha256 hyphenated s fields draw done = some (t, h') →
      (∀ event id, h.ownsDevice id → (done event).ownsDevice id) →
      (∀ event id, h.ownsSession id → (done event).ownsSession id) → Answers s t h h' := by
    intro fields done moved device session
    obtain ⟨event, rfl, rfl, -⟩ := log_cases moved
    exact .of_same rfl rfl (device event _) (session event _)
  cases h with
  | waiting request =>
    cases request with
    | registerDevice req =>
      simp only [advance] at moved
      split_ifs at moved
      obtain ⟨rfl, rfl⟩ := Prod.mk.inj (Option.some.inj moved)
      refine ⟨False.elim, False.elim, fun known => ?_, .inl⟩
      obtain ⟨d, found⟩ := Option.ne_none_iff_exists'.mp known
      obtain ⟨rfl, -⟩ | ⟨-, old⟩ := PartialMap.cases_of_update found
      · exact .inr rfl
      · exact .inl (by simp [old])
    | initiateSession req =>
      simp only [advance] at moved
      split_ifs at moved
      · obtain ⟨rfl, rfl⟩ := Prod.mk.inj (Option.some.inj moved)
        exact .of_same rfl rfl False.elim False.elim
      · obtain ⟨rfl, rfl⟩ := Prod.mk.inj (Option.some.inj moved)
        exact .of_same rfl rfl False.elim False.elim
    | createAuditLog fields => exact logs moved (fun _ _ => False.elim) fun _ _ => False.elim
  | deviceInserted req device =>
    obtain ⟨rfl, rfl⟩ := Prod.mk.inj (Option.some.inj moved)
    exact .of_same rfl rfl id False.elim
  | tokenInserted req device =>
    obtain ⟨rfl, rfl⟩ := Prod.mk.inj (Option.some.inj moved)
    exact .of_same rfl rfl id False.elim
  | peerRegistered req device => exact logs moved (fun _ _ => id) fun _ _ => False.elim
  | registered req device event => cases moved
  | targetOnline req =>
    simp only [advance] at moved
    split_ifs at moved
    obtain ⟨rfl, rfl⟩ := Prod.mk.inj (Option.some.inj moved)
    refine ⟨False.elim, False.elim, .inl, fun known => ?_⟩
    obtain ⟨session, found⟩ := Option.ne_none_iff_exists'.mp known
    obtain ⟨rfl, -⟩ | ⟨-, old⟩ := PartialMap.cases_of_update found
    · exact .inr rfl
    · exact .inl (by simp [old])
  | sessionInserted req session => exact logs moved (fun _ _ => False.elim) fun _ _ => id
  | initiated req session event => cases moved
  | targetOffline req err => exact logs moved (fun _ _ => False.elim) fun _ _ => False.elim
  | failed req err event => cases moved
  | created fields event => cases moved

theorem advance_logged (moved : advance sha256 simple hyphenated s h draw = some (t, h')) :
    h.logged = none ∧ t.audit = s.audit ++ h'.logged.toList := by
  have logs : ∀ {fields done}, log sha256 hyphenated s fields draw done = some (t, h') →
      (∀ event, (done event).logged = some event) →
      t.audit = s.audit ++ h'.logged.toList := by
    intro fields done moved keeps
    obtain ⟨event, rfl, rfl, -⟩ := log_cases moved
    rw [keeps, Option.toList_some]
  have quiet : ∀ {u : State Uuid} {next : Handler}, some (u, next) = some (t, h') →
      u.audit = s.audit → next.logged = none → t.audit = s.audit ++ h'.logged.toList := by
    intro u next moved same silent
    obtain ⟨rfl, rfl⟩ := Prod.mk.inj (Option.some.inj moved)
    rw [silent, Option.toList_none, List.append_nil, same]
  cases h with
  | waiting request =>
    refine ⟨rfl, ?_⟩
    cases request with
    | registerDevice req =>
      simp only [advance] at moved
      split_ifs at moved
      exact quiet moved rfl rfl
    | initiateSession req =>
      simp only [advance] at moved
      split_ifs at moved
      · exact quiet moved rfl rfl
      · exact quiet moved rfl rfl
    | createAuditLog fields => exact logs moved fun _ => rfl
  | deviceInserted req device => exact ⟨rfl, quiet moved rfl rfl⟩
  | tokenInserted req device => exact ⟨rfl, quiet moved rfl rfl⟩
  | peerRegistered req device => exact ⟨rfl, logs moved fun _ => rfl⟩
  | registered req device event => cases moved
  | targetOnline req =>
    simp only [advance] at moved
    split_ifs at moved
    exact ⟨rfl, quiet moved rfl rfl⟩
  | sessionInserted req session => exact ⟨rfl, logs moved fun _ => rfl⟩
  | initiated req session event => cases moved
  | targetOffline req err => exact ⟨rfl, logs moved fun _ => rfl⟩
  | failed req err event => cases moved
  | created fields event => cases moved

/-- Every event in the log is one handler's own. -/
def Accounted (s : Pool (State Uuid) Handler) : Prop :=
  (s.tasks.filterMap Handler.logged).Perm s.shared.audit

theorem step_accounted {s t : Pool (State Uuid) Handler} {event : Event Request (Draw Uuid)}
    (stepped : step Handler.waiting (advance sha256 simple hyphenated) s event = some t)
    (before : Accounted s) : Accounted t := by
  unfold Accounted at *
  obtain ⟨request, -, rfl⟩ | ⟨i, draw, h, h', -, here, moved, after⟩ := step_cases stepped
  · rw [List.filterMap_append, List.filterMap_cons_none rfl, List.filterMap_nil, List.append_nil]
    exact before
  · obtain ⟨pending, logged⟩ := advance_logged moved
    rw [after, logged]
    exact (filterMap_set_perm here pending h').trans (before.append_right _)

/-! ### When every handler has returned -/

variable {events : List (Event Request (Draw Uuid))} {pool : Pool (State Uuid) Handler}

theorem finished_device (ran : run sha256 simple hyphenated events = some pool)
    (finished : ∀ h ∈ pool.tasks, h.finished) {id : String} {device : Device}
    (stored : pool.shared.identity.devices id = some device) :
    ∃ req made event, Handler.registered req made event ∈ pool.tasks ∧ made.deviceId = id := by
  obtain ⟨h, member, owns⟩ := claimed_owned (fun s id => s.identity.devices id ≠ none)
    Handler.ownsDevice (fun moved => (advance_answers moved).new_device)
    (fun moved => (advance_answers moved).device)
    (fun id known => known rfl) ran id (by simp [stored])
  have ended := finished h member
  cases h with
  | registered req made event => exact ⟨req, made, event, member, owns⟩
  | initiated req session event => exact owns.elim
  | failed req err event => exact owns.elim
  | created fields event => exact owns.elim
  | _ => exact absurd rfl ended

theorem finished_session (ran : run sha256 simple hyphenated events = some pool)
    (finished : ∀ h ∈ pool.tasks, h.finished) {id : String} {session : SignalingSession}
    (stored : pool.shared.signaling.activeSessions id = some session) :
    ∃ req made event, Handler.initiated req made event ∈ pool.tasks ∧ made.sessionId = id := by
  obtain ⟨h, member, owns⟩ := claimed_owned
    (fun s id => s.signaling.activeSessions id ≠ none) Handler.ownsSession
    (fun moved => (advance_answers moved).new_session)
    (fun moved => (advance_answers moved).session) (fun id known => known rfl) ran id
    (by simp [stored])
  have ended := finished h member
  cases h with
  | initiated req made event => exact ⟨req, made, event, member, owns⟩
  | registered req made event => exact owns.elim
  | failed req err event => exact owns.elim
  | created fields event => exact owns.elim
  | _ => exact absurd rfl ended

/-- Once all handlers have returned, every device has its token, is online and in
the log; every session and every refused request is in the log; and the log is
one valid chain with one event of each handler. -/
theorem no_action_escapes_the_log (simple_injective : Function.Injective simple)
    (events : List (Event Request (Draw Uuid))) (pool : Pool (State Uuid) Handler)
    (ran : run sha256 simple hyphenated events = some pool)
    (finished : ∀ h ∈ pool.tasks, h.finished) :
    (∀ id device, pool.shared.identity.devices id = some device →
      pool.shared.identity.tokens device.authToken = some id ∧
      pool.shared.signaling.onlinePeers id = some true ∧
      ∃ event ∈ pool.shared.audit, event.eventType = "DEVICE_REGISTER" ∧ event.resource = id) ∧
    (∀ id session, pool.shared.signaling.activeSessions id = some session →
      session.sessionId = id ∧
      ∃ event ∈ pool.shared.audit, event.eventType = "SESSION_CONNECT" ∧
        event.status = "SUCCESS" ∧
        ∃ before after, event.details = before ++ session.sessionId ++ after) ∧
    (∀ req err event, Handler.failed req err event ∈ pool.tasks →
      event ∈ pool.shared.audit ∧ event.eventType = "SESSION_CONNECT" ∧
        event.status = "FAILED" ∧ event.actor = req.clientDeviceId ∧
        event.resource = req.targetAgentId ∧ event.details = err) ∧
    (pool.tasks.filterMap Handler.logged).Perm pool.shared.audit ∧ pool.shared.audit.Nodup ∧
    (verifyIntegrity sha256 pool.shared.audit).isValid = true := by
  obtain ⟨inv, known⟩ := (advance_keeps simple_injective).run invariant_start ran
  have initially : Accounted { shared := (start : State Uuid), tasks := [] } := List.Perm.nil
  have accounted : Accounted pool :=
    Transitions.run_invariant Accounted initially step_accounted ran
  refine ⟨?_, ?_, ?_, accounted, inv.audit.nodup, (verifyIntegrity_chained inv.audit).1⟩
  · intro id device stored
    obtain ⟨req, made, event, member, rfl⟩ := finished_device ran finished stored
    obtain ⟨⟨device', here, same⟩, token, online, logged⟩ := known _ member
    obtain rfl := Option.some.inj (here.symm.trans stored)
    rw [same.authToken]
    exact ⟨token, online, event, logged.recorded, logged.eventType, logged.resource⟩
  · intro id session stored
    obtain ⟨req, made, event, member, rfl⟩ := finished_session ran finished stored
    obtain ⟨here, logged⟩ := known _ member
    obtain rfl := Option.some.inj (here.symm.trans stored)
    refine ⟨rfl, event, logged.recorded, logged.eventType, logged.status,
      "Initiated session ", "", ?_⟩
    rw [logged.details, String.append_empty]
    rfl
  · intro req err event member
    have logged : LoggedWith _ _ _ := known _ member
    exact ⟨logged.recorded, logged.eventType, logged.status, logged.actor, logged.resource,
      logged.details⟩

end Steps

/-- `Uuid::to_string()` of sixteen bytes. -/
def hyphenated (u : List UInt8) : String :=
  hexEncode (u.take 4) ++ "-" ++ hexEncode ((u.drop 4).take 2) ++ "-" ++
    hexEncode ((u.drop 6).take 2) ++ "-" ++ hexEncode ((u.drop 8).take 2) ++ "-" ++
    hexEncode (u.drop 10)

/-- A device registers while a session with it is asked for, and one with a device that is
not there. -/
def gathering : List (Event Request (Draw (List UInt8))) :=
  [.spawn (.registerDevice ⟨"dell-latitude-7480", "Linux Ubuntu 24.04", "0102"⟩),
    .spawn (.initiateSession
      ⟨"client-001", newDeviceId hexEncode (List.replicate 16 0x5a), "abcd"⟩),
    .spawn (.initiateSession ⟨"client-002", "agent-404", "ef01"⟩),
    .advance 0 ⟨List.replicate 16 0x5a, List.replicate 16 0xc3, 7, ""⟩,
    .advance 2 ⟨[], [], 7, ""⟩, .advance 0 ⟨[], [], 7, ""⟩, .advance 0 ⟨[], [], 7, ""⟩,
    .advance 1 ⟨[], [], 8, ""⟩, .advance 1 ⟨List.replicate 16 0x3c, [], 8, ""⟩,
    .advance 2 ⟨List.replicate 16 0x01, [], 8, "2026-01-01T00:00:00+00:00"⟩,
    .advance 0 ⟨List.replicate 16 0x02, [], 9, "2026-01-01T00:00:01+00:00"⟩,
    .advance 1 ⟨List.replicate 16 0x03, [], 9, "2026-01-01T00:00:02+00:00"⟩]

theorem no_action_escapes_the_log_gathering :
    ∃ pool id device sessionId session,
      run SecureHash.digest hexEncode hyphenated gathering = some pool ∧
      pool.shared.identity.devices id = some device ∧
      pool.shared.signaling.activeSessions sessionId = some session ∧
      (pool.shared.identity.tokens device.authToken = some id ∧
        pool.shared.signaling.onlinePeers id = some true ∧
        ∃ event ∈ pool.shared.audit, event.eventType = "DEVICE_REGISTER" ∧ event.resource = id) ∧
      (session.sessionId = sessionId ∧
        ∃ event ∈ pool.shared.audit, event.eventType = "SESSION_CONNECT" ∧
          event.status = "SUCCESS" ∧
          ∃ before after, event.details = before ++ session.sessionId ++ after) ∧
      (∃ event ∈ pool.shared.audit, event.status = "FAILED" ∧ event.actor = "client-002") ∧
      (pool.tasks.filterMap Handler.logged).Perm pool.shared.audit ∧ pool.shared.audit.Nodup ∧
      (verifyIntegrity SecureHash.digest pool.shared.audit).isValid = true := by
  obtain ⟨pool, id, device, sessionId, session, err, first, second, third, ran, stored, open_,
    tasks⟩ : ∃ pool id device sessionId session err first second third,
      run SecureHash.digest hexEncode hyphenated gathering = some pool ∧
      pool.shared.identity.devices id = some device ∧
      pool.shared.signaling.activeSessions sessionId = some session ∧
      pool.tasks = [.registered ⟨"dell-latitude-7480", "Linux Ubuntu 24.04", "0102"⟩ device first,
        .initiated ⟨"client-001", newDeviceId hexEncode (List.replicate 16 0x5a), "abcd"⟩ session
          second,
        .failed ⟨"client-002", "agent-404", "ef01"⟩ err third] :=
    ⟨_, newDeviceId hexEncode (List.replicate 16 0x5a), _,
      newSessionId hexEncode (List.replicate 16 0x3c), _, _, _, _, _, rfl, rfl, rfl, rfl⟩
  have finished : ∀ h ∈ pool.tasks, h.finished := by
    rw [tasks]
    simp [Handler.finished, Handler.logged]
  obtain ⟨devices, sessions, refusals, accounted, distinct, valid⟩ :=
    no_action_escapes_the_log hexEncode_injective gathering pool ran finished
  obtain ⟨recorded, -, status, actor, -⟩ := refusals ⟨"client-002", "agent-404", "ef01"⟩ err third
    (by simp [tasks])
  exact ⟨pool, id, device, sessionId, session, ran, stored, open_, devices id device stored,
    sessions sessionId session open_, ⟨third, recorded, status, actor⟩, accounted, distinct, valid⟩

end RemoteAccess.ApiGateway

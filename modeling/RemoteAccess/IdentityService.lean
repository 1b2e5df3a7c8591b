import RemoteAccess.AuditLog
import RemoteAccess.Basics.Interleaving
import RemoteAccess.IdentityStore

/-! Concurrent calls of the identity service. Each lock is taken on its own, so a
registration and an authentication take two steps and other calls come in
between. The guard that `authenticate` keeps on the tokens while it waits for the
devices only rules interleavings out, and is left out. -/

namespace RemoteAccess.IdentityService

open IdentityStore Interleaving

variable {Uuid : Type}

/-- The maps, and the UUIDs drawn so far. -/
structure State (Uuid : Type) where
  store : Store
  used : List Uuid

inductive Call
  | registerDevice (req : RegistrationRequest)
  | authenticate (authToken : String)
  | setPresence (deviceId : String) (isOnline : Bool)
  | getDevice (deviceId : String)
  | listDevices

inductive Task
  | waiting (call : Call)
  /-- `register_device` before its second insertion. -/
  | inserted (req : RegistrationRequest) (device : Device)
  | registered (req : RegistrationRequest) (response : RegistrationResponse)
  /-- `authenticate` before its second lookup. -/
  | tokenFound (authToken deviceId : String)
  | authenticated (authToken : String) (device : Option Device)
  | presenceSet (done : Bool)
  | deviceFound (device : Option Device)
  /-- The stored devices, in the order of the map. -/
  | listed

/-- `Uuid::new_v4()` twice, and `Utc::now()`. -/
structure Draw (Uuid : Type) where
  device : Uuid
  token : Uuid
  nowMs : UInt64

section Steps

variable [DecidableEq Uuid] (simple : Uuid → String)

/-- A UUID that was drawn before is not drawn again. -/
def advance (s : State Uuid) : Task → Draw Uuid → Option (State Uuid × Task)
  | .waiting (.registerDevice req), draw =>
    if draw.device ∈ s.used ∨ draw.token ∈ s.used ∨ draw.device = draw.token then none
    else
      let device := newDevice simple req draw.device draw.token draw.nowMs
      some ({ store := insertDevice s.store device, used := draw.device :: draw.token :: s.used },
        .inserted req device)
  | .inserted req device, _ =>
    some ({ s with store := insertToken s.store device }, .registered req (response device))
  | .waiting (.authenticate authToken), _ =>
    match s.store.tokens authToken with
    | some deviceId => some (s, .tokenFound authToken deviceId)
    | none => some (s, .authenticated authToken none)
  | .tokenFound authToken deviceId, _ =>
    some (s, .authenticated authToken (s.store.devices deviceId))
  | .waiting (.setPresence deviceId isOnline), draw =>
    let (store, done) := setPresence s.store deviceId isOnline draw.nowMs
    some ({ s with store := store }, .presenceSet done)
  | .waiting (.getDevice deviceId), _ => some (s, .deviceFound (s.store.devices deviceId))
  | .waiting .listDevices, _ => some (s, .listed)
  | .registered .., _ | .authenticated .., _ | .presenceSet _, _ | .deviceFound _, _
  | .listed, _ => none

def run (events : List (Event Call (Draw Uuid))) : Option (Pool (State Uuid) Task) :=
  Interleaving.run Task.waiting (advance simple) { store := empty, used := [] } events

end Steps

structure RegisteredFor (req : RegistrationRequest) (device : Device) : Prop where
  hostname : device.hostname = req.hostname
  osName : device.osName = req.osName
  publicKeyHex : device.publicKeyHex = req.publicKeyHex

/-- What a call may rely on, whatever the others do. -/
def Known (s : State Uuid) : Task → Prop
  | .inserted req device => RegisteredFor req device ∧ Recorded s.store device
  | .registered req resp => ∃ device, RegisteredFor req device ∧ resp = response device ∧
      Recorded s.store device ∧ s.store.tokens device.authToken = some device.deviceId
  | .tokenFound authToken deviceId => s.store.tokens authToken = some deviceId
  | .authenticated authToken (some device) =>
    device.authToken = authToken ∧ s.store.tokens authToken = some device.deviceId
  | .authenticated _ none | .waiting _ | .presenceSet _ | .deviceFound _ | .listed => True

theorem Known.mono {s t : State Uuid} {task : Task} (known : Known s task)
    (keeps : Keeps s.store t.store) : Known t task := by
  cases task with
  | waiting call => trivial
  | inserted req device => exact ⟨known.1, known.2.mono keeps⟩
  | registered req resp =>
    obtain ⟨device, made, rfl, recorded, token⟩ := known
    exact ⟨device, made, rfl, recorded.mono keeps, keeps.tokens token⟩
  | tokenFound authToken deviceId => exact keeps.tokens known
  | authenticated authToken device =>
    cases device with
    | none => trivial
    | some device => exact ⟨known.1, keeps.tokens known.2⟩
  | presenceSet done => trivial
  | deviceFound device => trivial
  | listed => trivial

section Steps

variable [DecidableEq Uuid] {simple : Uuid → String}

theorem advance_spec (simple_injective : Function.Injective simple) {s t : State Uuid}
    {task task' : Task} {draw : Draw Uuid}
    (moved : advance simple s task draw = some (t, task'))
    (ok : Consistent simple s.used s.store) (known : Known s task) :
    Consistent simple t.used t.store ∧ Keeps s.store t.store ∧ Known t task' := by
  cases task with
  | waiting call =>
    cases call with
    | registerDevice req =>
      simp only [advance] at moved
      split_ifs at moved with taken
      obtain ⟨rfl, rfl⟩ := Prod.mk.inj (Option.some.inj moved)
      obtain ⟨freshu, freshv, -⟩ : draw.device ∉ s.used ∧ draw.token ∉ s.used ∧
          draw.device ≠ draw.token := by simpa using taken
      exact ⟨ok.insertDevice simple_injective req draw.nowMs freshu freshv,
        ok.insertDevice_keeps simple_injective req draw.nowMs freshu, ⟨rfl, rfl, rfl⟩, _,
        Function.update_self .., .refl _⟩
    | authenticate authToken =>
      simp only [advance] at moved
      split at moved
      · next deviceId found =>
        obtain ⟨rfl, rfl⟩ := Prod.mk.inj (Option.some.inj moved)
        exact ⟨ok, .refl _, found⟩
      · obtain ⟨rfl, rfl⟩ := Prod.mk.inj (Option.some.inj moved)
        exact ⟨ok, .refl _, trivial⟩
    | setPresence deviceId isOnline =>
      obtain ⟨rfl, rfl⟩ := Prod.mk.inj (Option.some.inj moved)
      exact ⟨ok.setPresence deviceId isOnline draw.nowMs, setPresence_keeps .., trivial⟩
    | getDevice deviceId =>
      obtain ⟨rfl, rfl⟩ := Prod.mk.inj (Option.some.inj moved)
      exact ⟨ok, .refl _, trivial⟩
    | listDevices =>
      obtain ⟨rfl, rfl⟩ := Prod.mk.inj (Option.some.inj moved)
      exact ⟨ok, .refl _, trivial⟩
  | inserted req device =>
    obtain ⟨rfl, rfl⟩ := Prod.mk.inj (Option.some.inj moved)
    obtain ⟨made, recorded⟩ := known
    have keeps := ok.insertToken_keeps recorded
    exact ⟨ok.insertToken recorded, keeps, device, made, rfl, recorded.mono keeps,
      Function.update_self ..⟩
  | tokenFound authToken deviceId =>
    obtain ⟨rfl, rfl⟩ := Prod.mk.inj (Option.some.inj moved)
    refine ⟨ok, .refl _, ?_⟩
    obtain ⟨device, here, token⟩ := ok.issued known
    rw [here]
    refine ⟨token, ?_⟩
    rw [ok.key here]
    exact known
  | registered req resp => cases moved
  | authenticated authToken device => cases moved
  | presenceSet done => cases moved
  | deviceFound device => cases moved
  | listed => cases moved

theorem advance_keeps (simple_injective : Function.Injective simple) :
    Interleaving.Keeps Task.waiting (advance simple)
      (fun s => Consistent simple s.used s.store) Known where
  begins _ _ := trivial
  shared moved ok known := (advance_spec simple_injective moved ok known).1
  own moved ok known := (advance_spec simple_injective moved ok known).2.2
  others moved ok known _ told := told.mono (advance_spec simple_injective moved ok known).2.1

/-- However the calls interleave, a token in the map belongs to a stored device;
an authentication returns the device its token is mapped to; and what a
registration has returned is good for authentication from then on. -/
theorem token_authenticates_its_device (simple_injective : Function.Injective simple)
    (events : List (Event Call (Draw Uuid))) (s : Pool (State Uuid) Task)
    (ran : run simple events = some s) :
    (∀ authToken deviceId, s.shared.store.tokens authToken = some deviceId →
      ∃ device, s.shared.store.devices deviceId = some device ∧
        device.authToken = authToken) ∧
    (∀ authToken device, Task.authenticated authToken (some device) ∈ s.tasks →
      device.authToken = authToken ∧
        s.shared.store.tokens authToken = some device.deviceId) ∧
    ∀ req resp, Task.registered req resp ∈ s.tasks →
      ∀ later t, run simple (events ++ later) = some t →
        (∀ draw, advance simple t.shared (.waiting (.authenticate resp.authToken)) draw =
          some (t.shared, .tokenFound resp.authToken resp.deviceId)) ∧
        ∃ device, (∀ draw, advance simple t.shared
            (.tokenFound resp.authToken resp.deviceId) draw =
              some (t.shared, .authenticated resp.authToken (some device))) ∧
          device.deviceId = resp.deviceId ∧ device.hostname = req.hostname ∧
          device.osName = req.osName ∧ device.publicKeyHex = req.publicKeyHex := by
  obtain ⟨ok, known⟩ := (advance_keeps simple_injective).run (consistent_empty simple) ran
  refine ⟨fun _ _ => ok.issued, fun _ _ returned => known _ returned, ?_⟩
  intro req resp returned later t again
  have stays := finished_stays (fun _ _ => rfl) ran again returned
  obtain ⟨-, known⟩ := (advance_keeps simple_injective).run (consistent_empty simple) again
  obtain ⟨device, made, rfl, ⟨stored, here, same⟩, token⟩ := known _ stays
  have found : t.shared.store.tokens (response device).authToken =
      some (response device).deviceId := token
  have looked : t.shared.store.devices (response device).deviceId = some stored := here
  refine ⟨fun draw => ?_, stored, fun draw => ?_, same.deviceId,
    same.hostname.trans made.hostname, same.osName.trans made.osName,
    same.publicKeyHex.trans made.publicKeyHex⟩
  · simp only [advance, found]
  · simp only [advance, looked]

def dellRequest : RegistrationRequest := ⟨"dell-latitude-7480", "Linux Ubuntu 24.04", "0102"⟩

def dellDraw : Draw (List UInt8) := ⟨List.replicate 16 0x5a, List.replicate 16 0xc3, 7⟩

theorem token_authenticates_its_device_offline :
    ∃ (s t : Pool (State (List UInt8)) Task) (resp : RegistrationResponse),
      run AuditLog.hexEncode [.spawn (.registerDevice dellRequest), .advance 0 dellDraw,
        .advance 0 dellDraw] = some s ∧
      Task.registered dellRequest resp ∈ s.tasks ∧
      run AuditLog.hexEncode ([.spawn (.registerDevice dellRequest), .advance 0 dellDraw,
          .advance 0 dellDraw] ++
        [.spawn (.setPresence (newDeviceId AuditLog.hexEncode dellDraw.device) false),
          .advance 1 dellDraw]) = some t ∧
      ∀ draw, advance AuditLog.hexEncode t.shared (.waiting (.authenticate resp.authToken)) draw =
        some (t.shared, .tokenFound resp.authToken resp.deviceId) := by
  obtain ⟨s, resp, ran, returned⟩ : ∃ s resp, run AuditLog.hexEncode
      [.spawn (.registerDevice dellRequest), .advance 0 dellDraw, .advance 0 dellDraw] =
        some s ∧ s.tasks = [Task.registered dellRequest resp] := ⟨_, _, rfl, rfl⟩
  obtain ⟨t, again⟩ : ∃ t, run AuditLog.hexEncode
      ([.spawn (.registerDevice dellRequest), .advance 0 dellDraw, .advance 0 dellDraw] ++
        [.spawn (.setPresence (newDeviceId AuditLog.hexEncode dellDraw.device) false),
          .advance 1 dellDraw]) = some t := ⟨_, rfl⟩
  obtain ⟨-, -, good⟩ := token_authenticates_its_device AuditLog.hexEncode_injective _ s ran
  have member : Task.registered dellRequest resp ∈ s.tasks := by
    rw [returned]
    exact List.mem_singleton.mpr rfl
  exact ⟨s, t, resp, ran, member, again, (good _ resp member _ t again).1⟩

end Steps

end RemoteAccess.IdentityService

import Mathlib.Data.List.Basic
import RemoteAccess.Basics.PartialMap

/-! The two maps of the identity service and what the service does to them under
one lock at a time. A registration inserts the device first and its token in a
second step, so between the two the device has a token nobody can use yet. What
ties the maps together holds at every moment; what is on record is never lost. -/

namespace RemoteAccess.IdentityStore

structure Device where
  deviceId : String
  hostname : String
  osName : String
  publicKeyHex : String
  authToken : String
  createdAtMs : UInt64
  lastSeenMs : UInt64
  isOnline : Bool
deriving DecidableEq

structure RegistrationRequest where
  hostname : String
  osName : String
  publicKeyHex : String

structure RegistrationResponse where
  success : Bool
  deviceId : String
  authToken : String
  message : String

/-- The two `HashMap`s. -/
structure Store where
  devices : String → Option Device
  tokens : String → Option String

def empty : Store where
  devices _ := none
  tokens _ := none

section Registration

/-! `simple` is how the `uuid` crate writes a UUID without hyphens. -/

variable {Uuid : Type} (simple : Uuid → String)

def newDeviceId (u : Uuid) : String := "rap-dev-" ++ simple u
def newAuthToken (u : Uuid) : String := "rap-token-" ++ simple u

def newDevice (req : RegistrationRequest) (u v : Uuid) (nowMs : UInt64) : Device where
  deviceId := newDeviceId simple u
  hostname := req.hostname
  osName := req.osName
  publicKeyHex := req.publicKeyHex
  authToken := newAuthToken simple v
  createdAtMs := nowMs
  lastSeenMs := nowMs
  isOnline := true

end Registration

def response (device : Device) : RegistrationResponse where
  success := true
  deviceId := device.deviceId
  authToken := device.authToken
  message := "Device successfully registered in Control Plane"

def insertDevice (s : Store) (device : Device) : Store :=
  { s with devices := Function.update s.devices device.deviceId (some device) }

def insertToken (s : Store) (device : Device) : Store :=
  { s with tokens := Function.update s.tokens device.authToken (some device.deviceId) }

def setPresence (s : Store) (deviceId : String) (isOnline : Bool) (nowMs : UInt64) :
    Store × Bool :=
  match s.devices deviceId with
  | some device =>
    let device := { device with isOnline := isOnline, lastSeenMs := nowMs }
    ({ s with devices := Function.update s.devices deviceId (some device) }, true)
  | none => (s, false)

/-! ### What is on record stays -/

structure SameDevice (d d' : Device) : Prop where
  deviceId : d'.deviceId = d.deviceId
  hostname : d'.hostname = d.hostname
  osName : d'.osName = d.osName
  publicKeyHex : d'.publicKeyHex = d.publicKeyHex
  authToken : d'.authToken = d.authToken
  createdAtMs : d'.createdAtMs = d.createdAtMs

theorem SameDevice.refl (d : Device) : SameDevice d d := ⟨rfl, rfl, rfl, rfl, rfl, rfl⟩

theorem SameDevice.trans {a b c : Device} (first : SameDevice a b) (second : SameDevice b c) :
    SameDevice a c where
  deviceId := second.deviceId.trans first.deviceId
  hostname := second.hostname.trans first.hostname
  osName := second.osName.trans first.osName
  publicKeyHex := second.publicKeyHex.trans first.publicKeyHex
  authToken := second.authToken.trans first.authToken
  createdAtMs := second.createdAtMs.trans first.createdAtMs

structure Keeps (s t : Store) : Prop where
  devices : ∀ {id d}, s.devices id = some d → ∃ d', t.devices id = some d' ∧ SameDevice d d'
  tokens : ∀ {token id}, s.tokens token = some id → t.tokens token = some id

theorem Keeps.refl (s : Store) : Keeps s s where
  devices known := ⟨_, known, .refl _⟩
  tokens known := known

def Recorded (s : Store) (d : Device) : Prop :=
  ∃ d', s.devices d.deviceId = some d' ∧ SameDevice d d'

theorem Recorded.mono {s t : Store} {d : Device} (known : Recorded s d) (keeps : Keeps s t) :
    Recorded t d := by
  obtain ⟨d', here, same⟩ := known
  obtain ⟨d'', there, again⟩ := keeps.devices here
  exact ⟨d'', there, same.trans again⟩

/-! ### What ties the maps together -/

section Consistency

variable {Uuid : Type} (simple : Uuid → String)

/-- `used` are the UUIDs drawn so far. -/
structure Consistent (used : List Uuid) (s : Store) : Prop where
  key : ∀ {id d}, s.devices id = some d → d.deviceId = id
  drawn : ∀ {id d}, s.devices id = some d →
    ∃ u ∈ used, ∃ v ∈ used, id = newDeviceId simple u ∧ d.authToken = newAuthToken simple v
  own_token : ∀ {id id' d d'}, s.devices id = some d → s.devices id' = some d' →
    d.authToken = d'.authToken → id = id'
  issued : ∀ {token id}, s.tokens token = some id →
    ∃ d, s.devices id = some d ∧ d.authToken = token

theorem consistent_empty : Consistent simple [] empty where
  key known := by cases known
  drawn known := by cases known
  own_token known := by cases known
  issued known := by cases known

variable {simple} {used : List Uuid} {s : Store}

theorem Consistent.weaken {more : List Uuid} (ok : Consistent simple used s)
    (sub : used ⊆ more) : Consistent simple more s where
  key := ok.key
  drawn known := by
    obtain ⟨u, memu, v, memv, id, token⟩ := ok.drawn known
    exact ⟨u, sub memu, v, sub memv, id, token⟩
  own_token := ok.own_token
  issued := ok.issued

section Insert

variable (simple_injective : Function.Injective simple)
include simple_injective

theorem newDeviceId_injective {u v : Uuid} (same : newDeviceId simple u = newDeviceId simple v) :
    u = v :=
  simple_injective (String.append_right_inj _ |>.mp same)

theorem newAuthToken_injective {u v : Uuid}
    (same : newAuthToken simple u = newAuthToken simple v) : u = v :=
  simple_injective (String.append_right_inj _ |>.mp same)

variable {u v : Uuid} (req : RegistrationRequest) (nowMs : UInt64)

theorem Consistent.fresh_id (ok : Consistent simple used s) (fresh : u ∉ used) :
    s.devices (newDeviceId simple u) = none := by
  cases known : s.devices (newDeviceId simple u) with
  | none => rfl
  | some d =>
    obtain ⟨u', mem, -, -, same, -⟩ := ok.drawn known
    rw [newDeviceId_injective simple_injective same] at fresh
    exact absurd mem fresh

theorem Consistent.fresh_token (ok : Consistent simple used s) (fresh : v ∉ used) {id : String}
    {d : Device} (known : s.devices id = some d) : d.authToken ≠ newAuthToken simple v := by
  obtain ⟨-, -, v', mem, -, token⟩ := ok.drawn known
  intro same
  rw [token] at same
  rw [← newAuthToken_injective simple_injective same] at fresh
  exact fresh mem

theorem Consistent.insertDevice_keeps (ok : Consistent simple used s) (fresh : u ∉ used) :
    Keeps s (insertDevice s (newDevice simple req u v nowMs)) where
  devices known :=
    ⟨_, PartialMap.update_of_none (ok.fresh_id simple_injective fresh) known, .refl _⟩
  tokens known := known

theorem Consistent.insertDevice (ok : Consistent simple used s) (freshu : u ∉ used)
    (freshv : v ∉ used) :
    Consistent simple (u :: v :: used) (insertDevice s (newDevice simple req u v nowMs)) where
  key known := by
    obtain ⟨rfl, rfl⟩ | ⟨-, old⟩ := PartialMap.cases_of_update known
    · rfl
    · exact ok.key old
  drawn known := by
    obtain ⟨rfl, rfl⟩ | ⟨-, old⟩ := PartialMap.cases_of_update known
    · exact ⟨u, by simp, v, by simp, rfl, rfl⟩
    · obtain ⟨u', memu, v', memv, same⟩ := ok.drawn old
      exact ⟨u', by simp [memu], v', by simp [memv], same⟩
  own_token known known' same := by
    obtain ⟨rfl, rfl⟩ | ⟨-, old⟩ := PartialMap.cases_of_update known <;>
      obtain ⟨rfl, rfl⟩ | ⟨-, old'⟩ := PartialMap.cases_of_update known'
    · rfl
    · exact absurd same.symm (ok.fresh_token simple_injective freshv old')
    · exact absurd same (ok.fresh_token simple_injective freshv old)
    · exact ok.own_token old old' same
  issued known := by
    obtain ⟨d, here, same⟩ := ok.issued known
    exact ⟨d, PartialMap.update_of_none (ok.fresh_id simple_injective freshu) here, same⟩

end Insert

theorem Consistent.insertToken_keeps (ok : Consistent simple used s) {d : Device}
    (known : Recorded s d) : Keeps s (insertToken s d) where
  devices known := ⟨_, known, .refl _⟩
  tokens := by
    intro token id issued
    by_cases new : token = d.authToken
    · subst new
      -- the token may be in the map already, but then for this device
      obtain ⟨d', here, same⟩ := known
      obtain ⟨d'', there, token⟩ := ok.issued issued
      have one := ok.own_token there here (by rw [token, same.authToken])
      rw [one]
      exact Function.update_self ..
    · exact (Function.update_of_ne new ..).trans issued

theorem Consistent.insertToken (ok : Consistent simple used s) {d : Device}
    (known : Recorded s d) : Consistent simple used (insertToken s d) where
  key := ok.key
  drawn := ok.drawn
  own_token := ok.own_token
  issued issued := by
    obtain ⟨rfl, rfl⟩ | ⟨-, old⟩ := PartialMap.cases_of_update issued
    · obtain ⟨d', here, same⟩ := known
      exact ⟨d', here, same.authToken⟩
    · exact ok.issued old

theorem setPresence_cases (s : Store) (deviceId : String) (isOnline : Bool) (nowMs : UInt64) :
    (setPresence s deviceId isOnline nowMs).1 = s ∨
    ∃ d d', s.devices deviceId = some d ∧ SameDevice d d' ∧
      (setPresence s deviceId isOnline nowMs).1 =
        { s with devices := Function.update s.devices deviceId (some d') } := by
  unfold setPresence
  cases known : s.devices deviceId with
  | none => exact .inl rfl
  | some d =>
    exact .inr ⟨d, { d with isOnline := isOnline, lastSeenMs := nowMs }, rfl,
      ⟨rfl, rfl, rfl, rfl, rfl, rfl⟩, rfl⟩

section Update

variable {id : String} {d d' : Device} (known : s.devices id = some d) (same : SameDevice d d')
include known same

theorem keeps_update : Keeps s { s with devices := Function.update s.devices id (some d') } where
  devices := by
    intro other e here
    by_cases this : other = id
    · subst this
      obtain rfl := Option.some.inj (known.symm.trans here)
      exact ⟨d', Function.update_self .., same⟩
    · exact ⟨e, (Function.update_of_ne this ..).trans here, .refl e⟩
  tokens issued := issued

theorem before_update {other : String} {e : Device}
    (here : Function.update s.devices id (some d') other = some e) :
    ∃ e', s.devices other = some e' ∧ SameDevice e' e := by
  obtain ⟨rfl, rfl⟩ | ⟨-, old⟩ := PartialMap.cases_of_update here
  · exact ⟨d, known, same⟩
  · exact ⟨e, old, .refl e⟩

theorem Consistent.update (ok : Consistent simple used s) :
    Consistent simple used
      { s with devices := Function.update s.devices id (some d') } where
  key here := by
    obtain ⟨e', old, same⟩ := before_update known same here
    exact same.deviceId.trans (ok.key old)
  drawn here := by
    obtain ⟨e', old, same⟩ := before_update known same here
    rw [same.authToken]
    exact ok.drawn old
  own_token here there token := by
    obtain ⟨e', olde, samee⟩ := before_update known same here
    obtain ⟨f', oldf, samef⟩ := before_update known same there
    rw [samee.authToken, samef.authToken] at token
    exact ok.own_token olde oldf token
  issued issued := by
    obtain ⟨e, old, token⟩ := ok.issued issued
    obtain ⟨e', new, same⟩ := (keeps_update known same).devices old
    exact ⟨e', new, same.authToken.trans token⟩

end Update

theorem setPresence_keeps (s : Store) (deviceId : String) (isOnline : Bool) (nowMs : UInt64) :
    Keeps s (setPresence s deviceId isOnline nowMs).1 := by
  obtain same | ⟨d, d', known, same, after⟩ := setPresence_cases s deviceId isOnline nowMs
  · rw [same]
    exact .refl s
  · rw [after]
    exact keeps_update known same

theorem Consistent.setPresence (ok : Consistent simple used s) (deviceId : String)
    (isOnline : Bool) (nowMs : UInt64) :
    Consistent simple used (setPresence s deviceId isOnline nowMs).1 := by
  obtain same | ⟨d, d', known, same, after⟩ := setPresence_cases s deviceId isOnline nowMs
  · rw [same]
    exact ok
  · rw [after]
    exact ok.update known same

end Consistency

end RemoteAccess.IdentityStore

import Mathlib.Data.List.Basic
import RemoteAccess.Basics.PartialMap

/-! The rendezvous server: who is online, and the sessions. As in the identity
service each map has its own lock, and `initiate_session` takes one after the
other; the remaining calls hold the sessions' lock once. -/

namespace RemoteAccess.SignalingServer

inductive SessionStatus
  | initiated
  | active
  | terminated
deriving DecidableEq

/-- The order in which a session goes through its states. -/
def SessionStatus.rank : SessionStatus → Nat
  | initiated => 0
  | active => 1
  | terminated => 2

structure SignalingSession where
  sessionId : String
  clientDeviceId : String
  agentDeviceId : String
  clientPublicKeyHex : String
  agentPublicKeyHex : Option String
  status : SessionStatus
  createdAtMs : UInt64
deriving DecidableEq

/-- Device ids with whether they are agents, and the sessions by their ids. -/
structure Server where
  onlinePeers : String → Option Bool
  activeSessions : String → Option SignalingSession

def empty : Server where
  onlinePeers _ := none
  activeSessions _ := none

def registerPeer (s : Server) (deviceId : String) (isAgent : Bool) : Server :=
  { s with onlinePeers := Function.update s.onlinePeers deviceId (some isAgent) }

def isPeerOnline (s : Server) (deviceId : String) : Bool := (s.onlinePeers deviceId).getD false

def offlineError (targetAgentId : String) : String :=
  "Target agent device " ++ targetAgentId ++ " is offline or not registered"

section Sessions

variable {Uuid : Type} (simple : Uuid → String)

def newSessionId (u : Uuid) : String := "rap-sess-" ++ simple u

def newSession (clientDeviceId targetAgentId clientPublicKeyHex : String) (u : Uuid)
    (nowMs : UInt64) : SignalingSession where
  sessionId := newSessionId simple u
  clientDeviceId := clientDeviceId
  agentDeviceId := targetAgentId
  clientPublicKeyHex := clientPublicKeyHex
  agentPublicKeyHex := none
  status := .initiated
  createdAtMs := nowMs

/-- The second half of `initiate_session`. -/
def insertSession (s : Server) (session : SignalingSession) : Server :=
  { s with activeSessions := Function.update s.activeSessions session.sessionId (some session) }

end Sessions

def notFoundError (sessionId : String) : String := "Session " ++ sessionId ++ " not found"

/-- What `get_mut` leaves when the session found is changed to `session`. -/
def put (s : Server) (sessionId : String) (session : SignalingSession) : Server :=
  { s with activeSessions := Function.update s.activeSessions sessionId (some session) }

def acceptSession (s : Server) (sessionId agentPublicKeyHex : String) :
    Except String SignalingSession × Server :=
  match s.activeSessions sessionId with
  | some session =>
    let session := { session with
      agentPublicKeyHex := some agentPublicKeyHex
      status := .active }
    (.ok session, put s sessionId session)
  | none => (.error (notFoundError sessionId), s)

def closeSession (s : Server) (sessionId : String) : Bool × Server :=
  match s.activeSessions sessionId with
  | some session => (true, put s sessionId { session with status := .terminated })
  | none => (false, s)

def getSession (s : Server) (sessionId : String) : Option SignalingSession :=
  s.activeSessions sessionId

section Calls

variable {s : Server} {id : String} {session : SignalingSession}

theorem put_self (s : Server) (id : String) (session : SignalingSession) :
    (put s id session).activeSessions id = some session :=
  Function.update_self ..

theorem put_of_ne {other : String} (apart : other ≠ id) (s : Server) (session : SignalingSession) :
    (put s id session).activeSessions other = s.activeSessions other :=
  Function.update_of_ne apart ..

theorem acceptSession_of_some (known : s.activeSessions id = some session) (key : String) :
    acceptSession s id key =
      (.ok { session with agentPublicKeyHex := some key, status := .active },
        put s id { session with agentPublicKeyHex := some key, status := .active }) := by
  rw [acceptSession, known]

theorem acceptSession_of_none (missing : s.activeSessions id = none) (key : String) :
    acceptSession s id key = (.error (notFoundError id), s) := by
  rw [acceptSession, missing]

theorem closeSession_of_some (known : s.activeSessions id = some session) :
    closeSession s id = (true, put s id { session with status := .terminated }) := by
  rw [closeSession, known]

theorem closeSession_of_none (missing : s.activeSessions id = none) :
    closeSession s id = (false, s) := by
  rw [closeSession, missing]

end Calls

/-! ### What stays -/

/-- Agents online stay so, and sessions stay as they were initiated. -/
structure Keeps (s t : Server) : Prop where
  agents : ∀ {id}, s.onlinePeers id = some true → t.onlinePeers id = some true
  sessions : ∀ {id session}, s.activeSessions id = some session →
    t.activeSessions id = some session

theorem Keeps.refl (s : Server) : Keeps s s where
  agents online := online
  sessions known := known

theorem registerPeer_keeps (s : Server) (deviceId : String) :
    Keeps s (registerPeer s deviceId true) where
  agents := by
    intro id online
    by_cases same : id = deviceId
    · rw [same]
      exact Function.update_self ..
    · exact (Function.update_of_ne same ..).trans online
  sessions known := known

/-- Sessions are stored under their own ids, which were drawn. -/
def Keyed {Uuid : Type} (simple : Uuid → String) (used : List Uuid) (s : Server) : Prop :=
  ∀ id session, s.activeSessions id = some session →
    session.sessionId = id ∧ ∃ u ∈ used, id = newSessionId simple u

section Keyed

variable {Uuid : Type} {simple : Uuid → String} {used : List Uuid} {s : Server}

theorem Keyed.weaken {more : List Uuid} (ok : Keyed simple used s) (sub : used ⊆ more) :
    Keyed simple more s := by
  intro id session known
  obtain ⟨key, u, mem, same⟩ := ok _ _ known
  exact ⟨key, u, sub mem, same⟩

variable (simple_injective : Function.Injective simple) {u : Uuid} (fresh : u ∉ used)

include simple_injective fresh in
theorem Keyed.fresh_id (ok : Keyed simple used s) :
    s.activeSessions (newSessionId simple u) = none := by
  cases known : s.activeSessions (newSessionId simple u) with
  | none => rfl
  | some session =>
    obtain ⟨-, u', mem, same⟩ := ok _ _ known
    rw [simple_injective (String.append_right_inj _ |>.mp same)] at fresh
    exact absurd mem fresh

variable (client target key : String) (nowMs : UInt64)

include simple_injective fresh in
theorem Keyed.insertSession_keeps (ok : Keyed simple used s) :
    Keeps s (insertSession s (newSession simple client target key u nowMs)) where
  agents online := online
  sessions known :=
    PartialMap.update_of_none (ok.fresh_id simple_injective fresh) known

theorem Keyed.put (ok : Keyed simple used s) {id : String} {session : SignalingSession}
    (known : s.activeSessions id = some session) {changed : SignalingSession}
    (same : changed.sessionId = session.sessionId) : Keyed simple used (put s id changed) := by
  intro id' session' found
  obtain ⟨rfl, rfl⟩ | ⟨-, old⟩ := PartialMap.cases_of_update found
  · obtain ⟨key, drawn⟩ := ok _ _ known
    exact ⟨same.trans key, drawn⟩
  · exact ok _ _ old

theorem Keyed.insertSession (ok : Keyed simple used s) :
    Keyed simple (u :: used) (insertSession s (newSession simple client target key u nowMs)) := by
  intro id session known
  obtain ⟨rfl, rfl⟩ | ⟨-, old⟩ := PartialMap.cases_of_update known
  · exact ⟨rfl, u, by simp, rfl⟩
  · obtain ⟨key, u', mem, same⟩ := ok _ _ old
    exact ⟨key, u', by simp [mem], same⟩

end Keyed

end RemoteAccess.SignalingServer

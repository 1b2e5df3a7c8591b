import Mathlib.Data.List.AList
import RemoteAccess.Basics.History

/-! The packet relay: pairs of endpoints by session, and who gets a packet. -/

namespace RemoteAccess.RelayServer

/-- As the derived comparison of `std::net::SocketAddr` sees it. -/
inductive SocketAddr
  | v4 (ip : UInt32) (port : UInt16)
  | v6 (ip : BitVec 128) (port : UInt16) (flowinfo scopeId : UInt32)
deriving DecidableEq

structure RelayPair where
  sessionId : String
  clientEndpoint : Option SocketAddr
  agentEndpoint : Option SocketAddr
  createdAtMs : UInt64

structure RelayMetrics where
  activeSessions : Nat
  totalPacketsRelayed : UInt64
  totalBytesRelayed : UInt64
deriving DecidableEq

abbrev Sessions := AList fun _ : String => RelayPair

structure Server where
  sessions : Sessions
  packetsRelayed : UInt64
  bytesRelayed : UInt64

def empty : Server where
  sessions := ∅
  packetsRelayed := 0
  bytesRelayed := 0

def newPair (sessionId : String) (nowMs : UInt64) : RelayPair where
  sessionId := sessionId
  clientEndpoint := none
  agentEndpoint := none
  createdAtMs := nowMs

def RelayPair.setEndpoint (pair : RelayPair) (endpoint : SocketAddr) (isAgent : Bool) : RelayPair :=
  if isAgent then { pair with agentEndpoint := some endpoint }
  else { pair with clientEndpoint := some endpoint }

def registerPeer (sessions : Sessions) (sessionId : String) (endpoint : SocketAddr) (isAgent : Bool)
    (nowMs : UInt64) : Sessions :=
  let entry := (sessions.lookup sessionId).getD (newPair sessionId nowMs)
  sessions.insert sessionId (entry.setEndpoint endpoint isAgent)

def removeSession (sessions : Sessions) (sessionId : String) : Bool × Sessions :=
  ((sessions.lookup sessionId).isSome, sessions.erase sessionId)

def RelayPair.targetEndpoint (pair : RelayPair) (senderAddr : SocketAddr) : Option SocketAddr :=
  if some senderAddr = pair.clientEndpoint then pair.agentEndpoint
  else if some senderAddr = pair.agentEndpoint then pair.clientEndpoint
  else pair.agentEndpoint.or pair.clientEndpoint

/-- The part of `route_packet` before the counters. -/
def target (sessions : Sessions) (sessionId : String) (senderAddr : SocketAddr) :
    Option SocketAddr :=
  match sessions.lookup sessionId with
  | some pair => pair.targetEndpoint senderAddr
  | none => none

def countPacket (s : Server) : Server := { s with packetsRelayed := s.packetsRelayed + 1 }

def countBytes (s : Server) (packetBytes : List UInt8) : Server :=
  { s with bytesRelayed := s.bytesRelayed + UInt64.ofNat packetBytes.length }

def routePacket (s : Server) (sessionId : String) (senderAddr : SocketAddr)
    (packetBytes : List UInt8) : Option SocketAddr × Server :=
  let endpoint := target s.sessions sessionId senderAddr
  (endpoint, if endpoint.isSome then countBytes (countPacket s) packetBytes else s)

def getMetrics (s : Server) : RelayMetrics where
  activeSessions := s.sessions.keys.length
  totalPacketsRelayed := s.packetsRelayed
  totalBytesRelayed := s.bytesRelayed

/-! ### The sessions after a sequence of calls -/

inductive Call
  | registerPeer (sessionId : String) (endpoint : SocketAddr) (isAgent : Bool) (nowMs : UInt64)
  | removeSession (sessionId : String)

def Call.sessionId : Call → String
  | registerPeer sessionId .. | removeSession sessionId => sessionId

def apply (sessions : Sessions) : Call → Sessions
  | .registerPeer sessionId endpoint isAgent nowMs =>
    registerPeer sessions sessionId endpoint isAgent nowMs
  | .removeSession sessionId => (removeSession sessions sessionId).2

def after (calls : List Call) : Sessions := calls.foldl apply ∅

theorem after_concat (calls : List Call) (call : Call) :
    after (calls ++ [call]) = apply (after calls) call := by
  rw [after, List.foldl_append, after]
  rfl

/-- What a call says about the endpoint of this session in this role. -/
def announces (sessionId : String) (isAgent : Bool) : Call → Option (Option SocketAddr)
  | .registerPeer id endpoint role _ =>
    if id = sessionId ∧ role = isAgent then some (some endpoint) else none
  | .removeSession id => if id = sessionId then some none else none

/-- The endpoint registered last for the session in this role, if the session was not
removed since. -/
def endpointOf (calls : List Call) (sessionId : String) (isAgent : Bool) : Option SocketAddr :=
  (History.latest (announces sessionId isAgent) calls).join

def RelayPair.endpoint (pair : RelayPair) (isAgent : Bool) : Option SocketAddr :=
  if isAgent then pair.agentEndpoint else pair.clientEndpoint

theorem lookup_apply_other (sessions : Sessions) {call : Call} {id : String}
    (other : id ≠ call.sessionId) : (apply sessions call).lookup id = sessions.lookup id := by
  cases call with
  | registerPeer sessionId endpoint isAgent nowMs => exact AList.lookup_insert_ne other
  | removeSession sessionId => exact AList.lookup_erase_ne other

theorem announces_other {call : Call} {id : String} (other : id ≠ call.sessionId) (isAgent : Bool) :
    announces id isAgent call = none := by
  cases call with
  | registerPeer sessionId endpoint role nowMs =>
    exact if_neg fun same => other same.1.symm
  | removeSession sessionId => exact if_neg (Ne.symm other)

theorem setEndpoint_endpoint (pair : RelayPair) (endpoint : SocketAddr) (role isAgent : Bool) :
    (pair.setEndpoint endpoint role).endpoint isAgent =
      if role = isAgent then some endpoint else pair.endpoint isAgent := by
  cases role <;> cases isAgent <;> rfl

theorem newPair_endpoint (pair : Option RelayPair) (id : String) (nowMs : UInt64)
    (isAgent : Bool) :
    (pair.getD (newPair id nowMs)).endpoint isAgent = pair.bind (·.endpoint isAgent) := by
  cases pair with
  | none => cases isAgent <;> rfl
  | some pair => rfl

theorem endpointOf_register (calls : List Call) (id : String) (endpoint : SocketAddr)
    (role isAgent : Bool) (nowMs : UInt64) :
    endpointOf (calls ++ [.registerPeer id endpoint role nowMs]) id isAgent =
      if role = isAgent then some endpoint else endpointOf calls id isAgent := by
  by_cases same : role = isAgent
  · have here : announces id isAgent (.registerPeer id endpoint role nowMs) =
        some (some endpoint) := if_pos ⟨rfl, same⟩
    rw [if_pos same, endpointOf, History.latest_append_cons here (by simp)]
    rfl
  · have other : announces id isAgent (.registerPeer id endpoint role nowMs) = none :=
      if_neg fun both => same both.2
    rw [if_neg same, endpointOf, History.latest_append_quiet (by simpa using other), endpointOf]

theorem endpointOf_remove (calls : List Call) (id : String) (isAgent : Bool) :
    endpointOf (calls ++ [.removeSession id]) id isAgent = none := by
  have here : announces id isAgent (.removeSession id) = some none := if_pos rfl
  rw [endpointOf, History.latest_append_cons here (by simp)]
  rfl

theorem lookup_after (calls : List Call) (id : String) (isAgent : Bool) :
    ((after calls).lookup id).bind (·.endpoint isAgent) = endpointOf calls id isAgent := by
  induction calls using List.reverseRecOn with
  | nil => rfl
  | append_singleton calls call ih =>
    rw [after_concat]
    by_cases same : id = call.sessionId
    · subst same
      cases call with
      | registerPeer sessionId endpoint role nowMs =>
        have stored : (apply (after calls) (.registerPeer sessionId endpoint role nowMs)).lookup
            sessionId = some _ := AList.lookup_insert ..
        have before : ((after calls).lookup sessionId).bind (·.endpoint isAgent) =
            endpointOf calls sessionId isAgent := ih
        rw [Call.sessionId, stored, Option.bind_some, setEndpoint_endpoint, newPair_endpoint,
          before, endpointOf_register]
      | removeSession sessionId =>
        have gone : (apply (after calls) (.removeSession sessionId)).lookup sessionId = none :=
          AList.lookup_erase ..
        rw [Call.sessionId, gone, endpointOf_remove]
        rfl
    · rw [lookup_apply_other _ same, ih, endpointOf, endpointOf,
        History.latest_append_quiet (by simp [announces_other same])]

theorem target_after (calls : List Call) (id : String) (senderAddr : SocketAddr) :
    target (after calls) id senderAddr =
      if some senderAddr = endpointOf calls id false then endpointOf calls id true
      else if some senderAddr = endpointOf calls id true then endpointOf calls id false
      else (endpointOf calls id true).or (endpointOf calls id false) := by
  rw [← lookup_after, ← lookup_after, target]
  cases (after calls).lookup id with
  | none => rfl
  | some pair => rfl

/-! ### Isolation -/

theorem endpointOf_filter (calls : List Call) (id : String) (isAgent : Bool) :
    endpointOf (calls.filter (·.sessionId = id)) id isAgent = endpointOf calls id isAgent := by
  rw [endpointOf, endpointOf, History.latest_filter]
  intro call other
  exact announces_other (Ne.symm (of_decide_eq_false other)) isAgent

def routed (calls : List Call) (counters : UInt64 × UInt64) (sessionId : String)
    (senderAddr : SocketAddr) (packetBytes : List UInt8) : Option SocketAddr :=
  (routePacket ⟨after calls, counters.1, counters.2⟩ sessionId senderAddr packetBytes).1

theorem routed_eq (calls : List Call) (counters : UInt64 × UInt64) (id : String)
    (senderAddr : SocketAddr) (packetBytes : List UInt8) :
    routed calls counters id senderAddr packetBytes =
      if some senderAddr = endpointOf calls id false then endpointOf calls id true
      else if some senderAddr = endpointOf calls id true then endpointOf calls id false
      else (endpointOf calls id true).or (endpointOf calls id false) :=
  target_after calls id senderAddr

/-- What a relayed packet is to meet. -/
structure Isolated (calls : List Call) (counters : UInt64 × UInt64) (sessionId : String)
    (senderAddr : SocketAddr) (packetBytes : List UInt8) : Prop where
  /-- Other sessions' calls make no difference. -/
  own : ∀ calls' counters', calls'.filter (·.sessionId = sessionId) =
      calls.filter (·.sessionId = sessionId) →
    routed calls' counters' sessionId senderAddr packetBytes =
      routed calls counters sessionId senderAddr packetBytes
  registered : ∀ t, routed calls counters sessionId senderAddr packetBytes = some t →
    ∃ isAgent, endpointOf calls sessionId isAgent = some t
  no_reflection : ∀ t, routed calls counters sessionId senderAddr packetBytes = some t →
    t ≠ senderAddr
  paired : ∀ client agent, endpointOf calls sessionId false = some client →
    endpointOf calls sessionId true = some agent → client ≠ agent →
    (senderAddr = client → routed calls counters sessionId senderAddr packetBytes = some agent) ∧
    (senderAddr = agent → routed calls counters sessionId senderAddr packetBytes = some client)

theorem isolated_iff (calls : List Call) (counters : UInt64 × UInt64) (sessionId : String)
    (senderAddr : SocketAddr) (packetBytes : List UInt8) :
    Isolated calls counters sessionId senderAddr packetBytes ↔
      ¬ (endpointOf calls sessionId false = some senderAddr ∧
        endpointOf calls sessionId true = some senderAddr) := by
  constructor
  · rintro isolated ⟨client, agent⟩
    have back : routed calls counters sessionId senderAddr packetBytes = some senderAddr := by
      rw [routed_eq, client, agent, if_pos rfl]
    exact isolated.no_reflection senderAddr back rfl
  · intro apart
    refine ⟨?_, ?_, ?_, ?_⟩
    · intro calls' counters' same
      rw [routed_eq, routed_eq, ← endpointOf_filter calls', ← endpointOf_filter calls', same,
        endpointOf_filter, endpointOf_filter]
    · intro t answer
      rw [routed_eq] at answer
      split at answer
      · exact ⟨true, answer⟩
      · split at answer
        · exact ⟨false, answer⟩
        · obtain agent | ⟨-, client⟩ := Option.or_eq_some_iff.mp answer
          · exact ⟨true, agent⟩
          · exact ⟨false, client⟩
    · rintro t answer rfl
      rw [routed_eq] at answer
      split at answer
      · next client => exact apart ⟨client.symm, answer⟩
      · next other =>
        split at answer
        · next agent => exact other answer.symm
        · next neither =>
          obtain agent | ⟨-, client⟩ := Option.or_eq_some_iff.mp answer
          · exact neither agent.symm
          · exact other client.symm
    · intro client agent has_client has_agent distinct
      rw [routed_eq, has_client, has_agent]
      constructor
      · rintro rfl
        rw [if_pos rfl]
      · rintro rfl
        rw [if_neg fun same => distinct (Option.some.inj same).symm, if_pos rfl]

def loopback : SocketAddr := .v4 0x7f000001 50001

/-- Both roles of a session registered from one endpoint. -/
theorem same_endpoint_is_reflected :
    ¬ Isolated [.registerPeer "rap-sess-relay-100" loopback false 0,
      .registerPeer "rap-sess-relay-100" loopback true 0] (0, 0) "rap-sess-relay-100" loopback
      [0x52, 0x41, 0x50, 0x30] := by
  intro isolated
  exact isolated.no_reflection loopback rfl rfl

end RemoteAccess.RelayServer

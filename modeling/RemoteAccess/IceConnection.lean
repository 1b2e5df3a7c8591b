import RemoteAccess.RelayServer
import RemoteAccess.Basics.History

/-! The connection state machine of the NAT code: which pair of candidates is selected and
by which mode the peers connect. `attempts` wraps, as in a release build; a debug build
stops there instead. -/

namespace RemoteAccess.IceConnection

open RelayServer (SocketAddr)

inductive CandidateType
  | host
  | serverReflexive
  | relay
deriving DecidableEq

inductive TransportProtocol
  | udp
  | tcp
deriving DecidableEq

structure IceCandidate where
  candidateId : String
  candidateType : CandidateType
  protocol : TransportProtocol
  endpoint : SocketAddr
  priority : UInt32
  foundation : String
deriving DecidableEq

def portOf : SocketAddr → UInt16
  | .v4 _ port => port
  | .v6 _ port _ _ => port

def typePreference : CandidateType → UInt32
  | .host => 126
  | .serverReflexive => 100
  | .relay => 0

def IceCandidate.new (candidateId : String) (candidateType : CandidateType)
    (protocol : TransportProtocol) (endpoint : SocketAddr) : IceCandidate where
  candidateId := candidateId
  candidateType := candidateType
  protocol := protocol
  endpoint := endpoint
  priority := ((1 : UInt32) <<< 24) * typePreference candidateType +
    ((1 : UInt32) <<< 8) * 65535 + (256 - 1)
  foundation := "fnd-" ++ toString (portOf endpoint).toNat

inductive ConnectionMode
  | directLocal
  | stunHolePunching
  | relayFallback
  | failed
deriving DecidableEq

structure ConnectionStateMachine where
  currentMode : ConnectionMode
  selectedPair : Option (IceCandidate × IceCandidate)
  attempts : UInt32

def new : ConnectionStateMachine where
  currentMode := .directLocal
  selectedPair := none
  attempts := 0

def evaluateCandidates (s : ConnectionStateMachine)
    (localCandidate remoteCandidate : IceCandidate) : ConnectionMode × ConnectionStateMachine :=
  let s := { s with attempts := s.attempts + 1 }
  let s :=
    if localCandidate.candidateType = .host ∧ remoteCandidate.candidateType = .host then
      { s with
        currentMode := .directLocal
        selectedPair := some (localCandidate, remoteCandidate) }
    else if localCandidate.candidateType = .serverReflexive ∨
        remoteCandidate.candidateType = .serverReflexive then
      { s with
        currentMode := .stunHolePunching
        selectedPair := some (localCandidate, remoteCandidate) }
    else
      { s with
        currentMode := .relayFallback
        selectedPair := some (localCandidate, remoteCandidate) }
  (s.currentMode, s)

/-- The relay candidate takes the local place of the pair, if there is one. -/
def triggerRelayFallback (s : ConnectionStateMachine) (relayCandidate : IceCandidate) :
    ConnectionStateMachine :=
  { s with
    currentMode := .relayFallback
    selectedPair := s.selectedPair.map fun pair => (relayCandidate, pair.2) }

inductive Call
  | evaluate (localCandidate remoteCandidate : IceCandidate)
  | fallback (relayCandidate : IceCandidate)

def step (s : ConnectionStateMachine) : Call → ConnectionStateMachine
  | .evaluate localCandidate remoteCandidate =>
    (evaluateCandidates s localCandidate remoteCandidate).2
  | .fallback relayCandidate => triggerRelayFallback s relayCandidate

def after (calls : List Call) : ConnectionStateMachine := calls.foldl step new

theorem after_concat (calls : List Call) (call : Call) :
    after (calls ++ [call]) = step (after calls) call := by
  rw [after, List.foldl_append, ← after]
  rfl

/-! ### Mode and pair -/

def Contains (s : ConnectionStateMachine) (P : IceCandidate → Prop) : Prop :=
  ∃ pair, s.selectedPair = some pair ∧ (P pair.1 ∨ P pair.2)

/-- The relay mode stands for a pair with a relay candidate. -/
def ModeMatches (s : ConnectionStateMachine) : Prop :=
  s.currentMode = .relayFallback ↔ Contains s (·.candidateType = .relay)

/-- One side is server reflexive and the other one a relay. -/
def Mixed (localCandidate remoteCandidate : IceCandidate) : Prop :=
  localCandidate.candidateType = .serverReflexive ∧ remoteCandidate.candidateType = .relay ∨
    localCandidate.candidateType = .relay ∧ remoteCandidate.candidateType = .serverReflexive

theorem evaluate_pair (s : ConnectionStateMachine) (localCandidate remoteCandidate : IceCandidate) :
    (step s (.evaluate localCandidate remoteCandidate)).selectedPair =
      some (localCandidate, remoteCandidate) := by
  simp only [step, evaluateCandidates]
  split_ifs <;> rfl

theorem evaluate_mode (s : ConnectionStateMachine) (localCandidate remoteCandidate : IceCandidate) :
    (step s (.evaluate localCandidate remoteCandidate)).currentMode = .relayFallback ↔
      ¬ (localCandidate.candidateType = .host ∧ remoteCandidate.candidateType = .host) ∧
      localCandidate.candidateType ≠ .serverReflexive ∧
      remoteCandidate.candidateType ≠ .serverReflexive := by
  simp only [step, evaluateCandidates]
  split_ifs with direct reflexive
  · simp [direct]
  · simp [← not_or, reflexive]
  · simp [direct, ← not_or, reflexive]

theorem evaluate_matches_iff (s : ConnectionStateMachine)
    (localCandidate remoteCandidate : IceCandidate) :
    ModeMatches (step s (.evaluate localCandidate remoteCandidate)) ↔
      ¬ Mixed localCandidate remoteCandidate := by
  have holds_pair : Contains (step s (.evaluate localCandidate remoteCandidate))
      (·.candidateType = .relay) ↔
      localCandidate.candidateType = .relay ∨ remoteCandidate.candidateType = .relay := by
    simp [Contains, evaluate_pair]
  rw [ModeMatches, evaluate_mode, holds_pair, Mixed]
  cases localCandidate.candidateType <;> cases remoteCandidate.candidateType <;> simp

theorem fallback_contains_iff (s : ConnectionStateMachine) (relayCandidate : IceCandidate)
    {P : IceCandidate → Prop} (holds : P relayCandidate) :
    Contains (step s (.fallback relayCandidate)) P ↔ s.selectedPair ≠ none := by
  cases pair : s.selectedPair <;> simp [Contains, step, triggerRelayFallback, pair, holds]

theorem fallback_matches_iff (s : ConnectionStateMachine) {relayCandidate : IceCandidate}
    (relay : relayCandidate.candidateType = .relay) :
    ModeMatches (step s (.fallback relayCandidate)) ↔ s.selectedPair ≠ none := by
  rw [ModeMatches, fallback_contains_iff s relayCandidate relay]
  simp [step, triggerRelayFallback]

theorem new_matches : ModeMatches new := by
  simp [ModeMatches, Contains, new]

theorem selectedPair_iff (calls : List Call) :
    (after calls).selectedPair ≠ none ↔ ∃ first second, .evaluate first second ∈ calls := by
  induction calls using List.reverseRecOn with
  | nil => simp [after, new]
  | append_singleton calls call ih =>
    rw [after_concat]
    cases call with
    | evaluate localCandidate remoteCandidate => simp [evaluate_pair, exists_or]
    | fallback relayCandidate =>
      simp only [step, triggerRelayFallback, ne_eq, Option.map_eq_none_iff, List.mem_append,
        List.mem_singleton, reduceCtorEq, or_false]
      exact ih

/-- What a call needs of the calls before it: an evaluation is of no mixed pair, and a
fallback comes after an evaluation. -/
def Settled (before : List Call) : Call → Prop
  | .evaluate localCandidate remoteCandidate => ¬ Mixed localCandidate remoteCandidate
  | .fallback _ => ∃ first second, .evaluate first second ∈ before

/-- In every state along the calls the mode matches the pair, and after each fallback the
pair contains the candidate it was given. -/
def Matched (calls : List Call) : Prop :=
  (∀ before since, calls = before ++ since → ModeMatches (after before)) ∧
  ∀ before relayCandidate since, calls = before ++ .fallback relayCandidate :: since →
    Contains (after (before ++ [.fallback relayCandidate])) (· = relayCandidate)

theorem step_matches_iff (before : List Call) (call : Call)
    (relayed : ∀ relayCandidate, call = .fallback relayCandidate →
      relayCandidate.candidateType = .relay) :
    ModeMatches (after (before ++ [call])) ↔ Settled before call := by
  rw [after_concat]
  cases call with
  | evaluate localCandidate remoteCandidate => exact evaluate_matches_iff _ _ _
  | fallback relayCandidate =>
    rw [fallback_matches_iff _ (relayed relayCandidate rfl)]
    exact selectedPair_iff before

/-- The mode matches the pair all along the calls exactly when no evaluation is of a mixed
pair and no fallback comes before the first evaluation. -/
theorem matched_iff_settled (calls : List Call)
    (relayed : ∀ relayCandidate, .fallback relayCandidate ∈ calls →
      relayCandidate.candidateType = .relay) :
    Matched calls ↔ History.EachAfter Settled calls := by
  constructor
  · rintro ⟨matching, -⟩ before call since rfl
    have here := matching (before ++ [call]) since (by simp)
    refine (step_matches_iff before call fun _ is_fallback => relayed _ ?_).mp here
    simp [is_fallback]
  · intro settled
    refine ⟨fun before since split => ?_, fun before relayCandidate since split => ?_⟩
    · rcases List.eq_nil_or_concat before with rfl | ⟨earlier, call, rfl⟩
      · exact new_matches
      · rw [List.concat_eq_append] at split ⊢
        refine (step_matches_iff earlier call fun _ is_fallback => relayed _ ?_).mpr
          (settled earlier call since (by simp [split]))
        simp [split, is_fallback]
    · rw [after_concat]
      refine (fallback_contains_iff _ _ (P := (· = relayCandidate)) rfl).mpr ?_
      exact (selectedPair_iff before).mpr (settled before _ since split)

def hostCandidate : IceCandidate := .new "cand-c1" .host .udp (.v4 0xC0A80164 18443)
def reflexiveCandidate : IceCandidate := .new "cand-a2" .serverReflexive .udp (.v4 0xC633642A 18443)
def relayCandidate : IceCandidate := .new "cand-r1" .relay .udp (.v4 0xCB007163 443)

theorem matched_iff_settled_negotiation :
    Matched [.evaluate hostCandidate reflexiveCandidate, .fallback relayCandidate] ↔
      History.EachAfter Settled
        [.evaluate hostCandidate reflexiveCandidate, .fallback relayCandidate] :=
  matched_iff_settled _ (by simp [relayCandidate, IceCandidate.new])

/-- A fallback on a new state machine loses its candidate. -/
theorem fallback_unmatched :
    ¬ ∀ calls : List Call, (∀ relayCandidate, .fallback relayCandidate ∈ calls →
      relayCandidate.candidateType = .relay) → Matched calls := by
  intro claimed
  have matching := (claimed [.fallback relayCandidate]
    (by simp [relayCandidate, IceCandidate.new])).1 [.fallback relayCandidate] [] rfl
  have none_selected := matching.mp rfl
  simp [Contains, after, step, triggerRelayFallback, new] at none_selected

end RemoteAccess.IceConnection

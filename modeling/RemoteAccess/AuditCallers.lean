import RemoteAccess.AuditLog

/-! Concurrent callers of the audit service. A caller waits for the lock, and the
step in which it gets the lock does the whole call: other callers see the chain
before it or after it. -/

namespace RemoteAccess.AuditCallers

open AuditLog Interleaving

inductive Call
  | logEvent (fields : Fields)
  | queryLogs (eventTypeFilter actorFilter : Option String) (limit : Nat)
  | verifyIntegrity

inductive Caller
  | waiting (call : Call)
  | logged (event : AuditEvent)
  | queried (events : List AuditEvent)
  | verified (report : AuditLogIntegrityReport)

def Caller.returned : Caller → Option AuditEvent
  | .logged event => some event
  | .waiting _ | .queried _ | .verified _ => none

variable (sha256 : List UInt8 → List UInt8)

def advance (chain : List AuditEvent) : Caller → Draw → Option (List AuditEvent × Caller)
  | .waiting (.logEvent fields), draw =>
    (logEvent sha256 chain fields draw).map fun (event, chain) => (chain, .logged event)
  | .waiting (.queryLogs eventTypeFilter actorFilter limit), _ =>
    some (chain, .queried (queryLogs chain eventTypeFilter actorFilter limit))
  | .waiting .verifyIntegrity, _ => some (chain, .verified (verifyIntegrity sha256 chain))
  | .logged _, _ | .queried _, _ | .verified _, _ => none

abbrev Service := Pool (List AuditEvent) Caller

def run (events : List (Event Call Draw)) : Option Service :=
  Interleaving.run Caller.waiting (advance sha256) [] events

/-! ### What a step of a caller does -/

variable {sha256}

theorem advance_cases {chain chain' : List AuditEvent} {caller caller' : Caller} {draw : Draw}
    (moved : advance sha256 chain caller draw = some (chain', caller')) :
    (∃ fields event, caller = .waiting (.logEvent fields) ∧ caller' = .logged event ∧
      logEvent sha256 chain fields draw = some (event, chain')) ∨
    chain' = chain ∧ caller.returned = none ∧
      ((∃ e a n, caller' = .queried (queryLogs chain e a n)) ∨
        caller' = .verified (verifyIntegrity sha256 chain)) := by
  cases caller with
  | waiting call =>
    cases call with
    | logEvent fields =>
      simp only [advance] at moved
      obtain ⟨⟨event, after⟩, logged, same⟩ := Option.map_eq_some_iff.mp moved
      obtain ⟨rfl, rfl⟩ := Prod.mk.inj same
      exact .inl ⟨fields, event, rfl, rfl, logged⟩
    | queryLogs e a n =>
      obtain ⟨rfl, rfl⟩ := Prod.mk.inj (Option.some.inj moved)
      exact .inr ⟨rfl, rfl, .inl ⟨e, a, n, rfl⟩⟩
    | verifyIntegrity =>
      obtain ⟨rfl, rfl⟩ := Prod.mk.inj (Option.some.inj moved)
      exact .inr ⟨rfl, rfl, .inr rfl⟩
  | logged _ => cases moved
  | queried _ => cases moved
  | verified _ => cases moved

def Told (chain : List AuditEvent) : Caller → Prop
  | .waiting _ => True
  | .logged event => event ∈ chain
  | .queried events => ∀ e ∈ events, e ∈ chain
  | .verified report => report.isValid = true

theorem queryLogs_subset (chain : List AuditEvent) (eventTypeFilter actorFilter : Option String)
    (limit : Nat) : ∀ e ∈ queryLogs chain eventTypeFilter actorFilter limit, e ∈ chain :=
  fun _ found => (List.mem_filter.mp (List.mem_of_mem_take found)).1

theorem Told.mono {chain more : List AuditEvent} {caller : Caller} (told : Told chain caller) :
    Told (chain ++ more) caller := by
  cases caller with
  | waiting call => trivial
  | logged event => exact List.mem_append_left more told
  | queried events => exact fun e found => List.mem_append_left more (told e found)
  | verified report => exact told

theorem advance_keeps : Keeps Caller.waiting (advance sha256) (Chained sha256) Told where
  begins call _ := trivial
  shared moved ok _ := by
    obtain ⟨fields, event, -, -, logged⟩ | ⟨rfl, -, -⟩ := advance_cases moved
    · obtain ⟨rfl, link, room, -⟩ := logEvent_cases logged
      exact ok.concat link room
    · exact ok
  own moved ok _ := by
    obtain ⟨fields, event, -, rfl, logged⟩ | ⟨rfl, -, ⟨e, a, n, rfl⟩ | rfl⟩ :=
      advance_cases moved
    · obtain ⟨rfl, -⟩ := logEvent_cases logged
      exact List.mem_append_right _ (List.mem_singleton.mpr rfl)
    · exact queryLogs_subset _ e a n
    · exact (verifyIntegrity_chained ok).1
  others moved _ _ other told := by
    obtain ⟨fields, event, -, -, logged⟩ | ⟨rfl, -, -⟩ := advance_cases moved
    · obtain ⟨rfl, -⟩ := logEvent_cases logged
      exact told.mono
    · exact told

def Accounted (s : Service) : Prop := (s.tasks.filterMap Caller.returned).Perm s.shared

theorem step_accounted {s t : Service} {event : Event Call Draw}
    (stepped : Interleaving.step Caller.waiting (advance sha256) s event = some t)
    (before : Accounted s) : Accounted t := by
  obtain ⟨call, -, rfl⟩ | ⟨i, draw, caller, caller', -, here, moved, after⟩ := step_cases stepped
  · unfold Accounted
    rw [List.filterMap_append, List.filterMap_cons_none rfl, List.filterMap_nil, List.append_nil]
    exact before
  · unfold Accounted
    rw [after]
    obtain ⟨fields, e, rfl, rfl, logged⟩ | ⟨same, pending, told⟩ := advance_cases moved
    · obtain ⟨grown, -⟩ := logEvent_cases logged
      rw [grown]
      exact (filterMap_set_perm here rfl _).trans (before.append_right [e])
    · have silent : caller'.returned = none := by
        obtain ⟨e, a, n, rfl⟩ | rfl := told <;> rfl
      have kept := filterMap_set_perm here pending caller'
      rw [silent, Option.toList_none, List.append_nil] at kept
      rw [same]
      exact kept.trans before

/-- However the calls interleave, every record is where its sequence number says
and carries the hash of its predecessor and of itself, what was handed back is
what is in the chain, and the verifier finds it so. -/
theorem audit_chain_valid (events : List (Event Call Draw)) (s : Service)
    (ran : run sha256 events = some s) :
    (∀ (i : Nat) (e : AuditEvent), s.shared[i]? = some e →
      e.sequenceNumber.toNat = i ∧ e.hash = e.computed sha256) ∧
    (∀ e : AuditEvent, s.shared[0]? = some e → e.prevHash = genesisPrevHash) ∧
    (∀ (i : Nat) (p e : AuditEvent), s.shared[i]? = some p → s.shared[i + 1]? = some e →
      e.prevHash = p.hash) ∧
    (s.tasks.filterMap Caller.returned).Perm s.shared ∧ s.shared.Nodup ∧
    (verifyIntegrity sha256 s.shared).isValid = true ∧
    (verifyIntegrity sha256 s.shared).totalEvents =
      (s.tasks.filterMap Caller.returned).length ∧
    (verifyIntegrity sha256 s.shared).headHash =
      (s.shared.getLast?.map AuditEvent.hash).getD genesisPrevHash ∧
    ∀ report, Caller.verified report ∈ s.tasks → report.isValid = true := by
  obtain ⟨ok, told⟩ := advance_keeps.run (chained_nil sha256) ran
  have initially : Accounted { shared := [], tasks := [] } := List.Perm.nil
  have accounted : Accounted s :=
    Transitions.run_invariant Accounted initially step_accounted ran
  obtain ⟨valid, total, head, -⟩ := verifyIntegrity_chained ok
  refine ⟨?_, ?_, ?_, accounted, ok.nodup, valid, ?_, head, ?_⟩
  · intro i e here
    exact ⟨ok.sequenceNumber here, (ok.get here).hash⟩
  · intro e first
    exact (ok.get first).prevHash
  · intro i p e previous here
    obtain ⟨inside, rfl⟩ := List.getElem?_eq_some_iff.mp previous
    rw [(ok.get here).prevHash, List.take_succ_eq_append_getElem inside, headHash_concat]
  · rw [total, accounted.length_eq]
  · intro report returned
    exact told _ returned

def loginDigest : List UInt8 :=
  [0xea, 0x64, 0x3b, 0xb4, 0x56, 0xc9, 0x6c, 0x10, 0x52, 0xc8, 0xc3, 0xd5, 0x73, 0x89, 0x24, 0x6f,
   0x81, 0x3b, 0xa5, 0x7d, 0xa5, 0xda, 0x49, 0x14, 0x79, 0xca, 0xd6, 0x16, 0x21, 0x37, 0x87, 0x3f]

def loginFields : Fields := ⟨"AUTH_LOGIN", "admin", "192.168.1.100", "SUCCESS", "User login"⟩

def loginDraw : Draw := ⟨"67e55044-10b1-426f-9247-bb680e5fe0c8", "2026-01-01T00:00:00+00:00"⟩

theorem audit_chain_valid_login :
    ∃ s, run (fun _ => loginDigest) [.spawn (.logEvent loginFields), .spawn .verifyIntegrity,
        .advance 1 loginDraw, .advance 0 loginDraw] = some s ∧
      (verifyIntegrity (fun _ => loginDigest) s.shared).isValid = true ∧
      (verifyIntegrity (fun _ => loginDigest) s.shared).totalEvents =
        (s.tasks.filterMap Caller.returned).length := by
  obtain ⟨s, ran⟩ : ∃ s, run (fun _ => loginDigest) [.spawn (.logEvent loginFields),
      .spawn .verifyIntegrity, .advance 1 loginDraw, .advance 0 loginDraw] = some s := ⟨_, rfl⟩
  obtain ⟨-, -, -, -, -, valid, total, -⟩ := audit_chain_valid _ s ran
  exact ⟨s, ran, valid, total⟩

end RemoteAccess.AuditCallers

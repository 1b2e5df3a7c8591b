import RemoteAccess.ApiGateway
import RemoteAccess.AuditCallers
import RemoteAccess.Basics.Readers

/-! The handlers of the gateway that only read, beside the ones that write. Each holds the lock
of the log once, so its answer is that of one moment of its call. -/

namespace RemoteAccess.GatewayReads

open AuditLog Interleaving ApiGateway Readers

variable {Uuid : Type}

structure AuditQueryParams where
  eventType : Option String
  actor : Option String
  limit : Option Nat

inductive Query
  | health
  | auditLogs (params : AuditQueryParams)
  | auditVerify

inductive Answer
  | health (status service : String)
  | auditLogs (logs : List AuditEvent)
  | auditVerify (report : AuditLogIntegrityReport)

/-- `query_audit_logs_handler`. -/
def queryAuditLogs (audit : List AuditEvent) (params : AuditQueryParams) : List AuditEvent :=
  queryLogs audit params.eventType params.actor (params.limit.getD 100)

def answer (sha256 : List UInt8 → List UInt8) (audit : List AuditEvent) : Query → Answer
  | .health => .health "ok" "rap-api-gateway"
  | .auditLogs params => .auditLogs (queryAuditLogs audit params)
  | .auditVerify => .auditVerify (verifyIntegrity sha256 audit)

abbrev Gateway (Uuid : Type) := Pool (State Uuid) (Task Handler Query Answer)

def run [DecidableEq Uuid] (sha256 : List UInt8 → List UInt8) (simple hyphenated : Uuid → String)
    (events : List (Event (Request ⊕ Query) (Draw Uuid))) : Option (Gateway Uuid) :=
  Interleaving.run (Readers.start Handler.waiting)
    (proceed (advance sha256 simple hyphenated) fun s => answer sha256 s.audit) ApiGateway.start
    events

/-! ### The log so far -/

/-- At most so many events are answered. -/
def AuditQueryParams.most (params : AuditQueryParams) : Nat :=
  if params.limit.getD 100 = 0 then 2 ^ 64 - 1 else params.limit.getD 100

theorem queryAuditLogs_prefix {audit longer : List AuditEvent} (sofar : audit <+: longer)
    (params : AuditQueryParams) :
    queryAuditLogs audit params <+: queryAuditLogs longer params := by
  obtain ⟨later, rfl⟩ := sofar
  unfold queryAuditLogs queryLogs
  dsimp only
  rw [List.filter_append, List.take_append]
  exact List.prefix_append _ _

theorem length_queryAuditLogs (audit : List AuditEvent) (params : AuditQueryParams) :
    (queryAuditLogs audit params).length ≤ params.most := by
  unfold queryAuditLogs queryLogs
  exact List.length_take_le _ _

section Runs

variable [DecidableEq Uuid] {sha256 : List UInt8 → List UInt8} {simple hyphenated : Uuid → String}

theorem audit_prefix {s t : Pool (State Uuid) Handler} {events : List (Event Request (Draw Uuid))}
    (ran : Transitions.run (step Handler.waiting (advance sha256 simple hyphenated)) s events =
      some t) : s.shared.audit <+: t.shared.audit := by
  refine Transitions.run_invariant (fun t : Pool (State Uuid) Handler =>
    s.shared.audit <+: t.shared.audit) List.prefix_rfl ?_ ran
  intro t u event stepped sofar
  obtain ⟨request, -, rfl⟩ | ⟨i, draw, h, h', -, -, moved, -⟩ := step_cases stepped
  · exact sofar
  · rw [(advance_logged moved).2]
    exact sofar.trans (List.prefix_append _ _)

theorem chained (simple_injective : Function.Injective simple)
    {events : List (Event Request (Draw Uuid))} {pool : Pool (State Uuid) Handler}
    (ran : ApiGateway.run sha256 simple hyphenated events = some pool) :
    Chained sha256 pool.shared.audit :=
  ((advance_keeps simple_injective).run invariant_start ran).1.audit

end Runs

/-- Whatever the other handlers do, a reader answers from the log as it was at one moment
between its call and its answer: a valid chain, with everything that was logged before the call.
An answer with as many events as were asked for is what the same query gives ever after. -/
theorem reads_are_of_one_moment [DecidableEq Uuid] (sha256 : List UInt8 → List UInt8)
    {simple : Uuid → String} (simple_injective : Function.Injective simple)
    (hyphenated : Uuid → String) (events more : List (Event (Request ⊕ Query) (Draw Uuid)))
    (p q : Gateway Uuid) (reached : run sha256 simple hyphenated events = some p)
    (ran : run sha256 simple hyphenated (events ++ more) = some q) (i : Nat) (query : Query)
    (given : Answer) (waiting : p.tasks[i]? = some (.asking query))
    (answered : q.tasks[i]? = some (.answered query given)) :
    ∃ audit, p.shared.audit <+: audit ∧ audit <+: q.shared.audit ∧
      given = answer sha256 audit query ∧
      (∀ report, given = .auditVerify report → report.isValid = true ∧
        report.totalEvents = audit.length ∧ report.headHash = headHash audit ∧
        report.tamperedEventId = none) ∧
      ∀ params logs, query = .auditLogs params → given = .auditLogs logs →
        logs <+: queryAuditLogs q.shared.audit params ∧ logs.length ≤ params.most ∧
        (logs.length = params.most → logs = queryAuditLogs q.shared.audit params) := by
  unfold run Interleaving.run at reached ran
  rw [Transitions.run_append, reached, Option.bind_some] at ran
  obtain ⟨own, first⟩ := run_writers reached
  obtain ⟨own', later, answers⟩ := answered_between ran waiting
  obtain still | ⟨before, after, between, rfl, led, gave⟩ := answers
  · rw [answered] at still
    cases still
  · obtain ⟨-, rfl⟩ := Task.answered.inj (Option.some.inj (answered.symm.trans gave))
    rw [Transitions.run_append, led, Option.bind_some] at later
    have sofar : between.shared.audit <+: q.shared.audit := audit_prefix later
    have valid : Chained sha256 between.shared.audit := by
      refine @chained _ _ _ _ hyphenated simple_injective (own ++ before) _ ?_
      unfold ApiGateway.run Interleaving.run
      rw [Transitions.run_append]
      exact (congrArg (Option.bind · _) first).trans led
    refine ⟨between.shared.audit, audit_prefix led, sofar, rfl, fun report same => ?_,
      fun params logs asked same => ?_⟩
    · cases query with
      | auditVerify =>
        obtain rfl := Answer.auditVerify.inj same
        exact verifyIntegrity_chained valid
      | health => cases same
      | auditLogs params => cases same
    · subst asked
      obtain rfl := Answer.auditLogs.inj same
      have longer := queryAuditLogs_prefix sofar params
      refine ⟨longer, length_queryAuditLogs _ _, fun full => longer.eq_of_length_le ?_⟩
      rw [full]
      exact length_queryAuditLogs _ _

/-- A verification is asked for before a login is logged, and made after it. -/
def asked : List (Event (Request ⊕ Query) (ApiGateway.Draw (List UInt8))) :=
  [.spawn (.inr .auditVerify), .spawn (.inl (.createAuditLog AuditCallers.loginFields))]

def made : List (Event (Request ⊕ Query) (ApiGateway.Draw (List UInt8))) :=
  [.advance 1 ⟨[0x67, 0xe5, 0x50, 0x44, 0x10, 0xb1, 0x42, 0x6f, 0x92, 0x47, 0xbb, 0x68, 0x0e, 0x5f,
      0xe0, 0xc8], [], 0, "2026-01-01T00:00:00+00:00"⟩,
    .advance 0 ⟨[], [], 0, ""⟩]

theorem reads_are_of_one_moment_login :
    ∃ q report, run (fun _ => AuditCallers.loginDigest) hexEncode hyphenated (asked ++ made) =
        some q ∧ q.tasks[0]? = some (.answered .auditVerify (.auditVerify report)) ∧
      report.isValid = true := by
  obtain ⟨p, q, report, reached, ran, waiting, answered⟩ : ∃ p q report,
      run (fun _ => AuditCallers.loginDigest) hexEncode hyphenated asked = some p ∧
      run (fun _ => AuditCallers.loginDigest) hexEncode hyphenated (asked ++ made) = some q ∧
      p.tasks[0]? = some (.asking .auditVerify) ∧
      q.tasks[0]? = some (.answered .auditVerify (.auditVerify report)) :=
    ⟨_, _, _, rfl, rfl, rfl, rfl⟩
  obtain ⟨audit, -, -, -, verified, -⟩ :=
    reads_are_of_one_moment (fun _ => AuditCallers.loginDigest)
    hexEncode_injective hyphenated asked made p q reached ran 0 .auditVerify _ waiting answered
  exact ⟨q, report, ran, answered, (verified report rfl).1⟩

end RemoteAccess.GatewayReads

import Mathlib.Logic.Relation
import IvrmDashboard.Foundations.Runs
import IvrmDashboard.Operations.AuditChain
import IvrmDashboard.Operations.McMain

/-!
# What a call can do to the tables

Every function of the queue writes through four kinds of change (`Change`): an audit entry alone,
a new job with its first event, a transition, a renewal. `Changes` chains them, and a call that
commits is such a chain (`changes_of_exec`), so an invariant of the tables has to be proved for
the four changes only. A run is a list of calls; each lets the clock advance, finds reference
tables of its own and may come after aborted calls that used up identity values.
-/

namespace IvrmDashboard.Operations

open Sql

variable [Server]

/-- An object of one field with a text is as safe as its key. -/
theorem containsSensitiveKey_single {k v : String} (hascii : k.toList.all (·.toNat < 128) = true)
    (hkey : String.ofList (k.toList.map Char.toLower) ∉ sensitiveKeys) :
    jsonbContainsSensitiveKey (.buildObject [(k, .str v)]) = false := by
  have hlower : Text.lower k ∉ sensitiveKeys := by
    rw [Text.lower_eq_of_ascii hascii]
    exact hkey
  change fieldsContainSensitiveKey [(k, .str v)] = false
  simp only [fieldsContainSensitiveKey, jsonbContainsSensitiveKey, hlower, decide_false,
    Bool.or_self]

/-! ## The single writes -/

namespace Store

theorem insertJob_eq_ok {c : Context} {j : Job} {s s' : Store} (h : s.insertJob c j = .ok s') :
    s' = { s with jobs := s.jobs ++ [j] } ∧ (∀ check ∈ j.checks, check.2 = true) ∧
      (∀ k ∈ s.jobs, k.id ≠ j.id ∧ j.sameIdempotencyKey k = false ∧
        j.sameActiveScope k = false ∧ j.sameDiscordIdempotencyKey k = false) := by
  simp only [insertJob, uniqueChecks, bind_eq_ok, raiseIf_eq_ok, checkAll_eq_ok, pure_eq_ok,
    exists_const, List.any_eq_false, decide_eq_true_eq] at h
  obtain ⟨hchecks, ⟨hid, hkey, hscope, hdiscord⟩, -, -, rfl⟩ := h
  refine ⟨rfl, hchecks, fun k hk => ⟨hid k hk, ?_, ?_, ?_⟩⟩
  · simpa using hkey k hk
  · simpa using hscope k hk
  · simpa using hdiscord k hk

theorem updateJob_eq_ok {j : Job} {s s' : Store} (h : s.updateJob j = .ok s') :
    s' = { s with jobs := s.replaceJob j } ∧
      (∀ check ∈ j.checks, check.2 = true) := by
  simp only [updateJob, bind_eq_ok, checkAll_eq_ok, pure_eq_ok, exists_const] at h
  obtain ⟨hchecks, -, -, rfl⟩ := h
  exact ⟨rfl, hchecks⟩

theorem insertEvent_eq_ok {c : Context} {e : NewEvent} {s s' : Store}
    (h : s.insertEvent c e = .ok s') :
    s' = { s with events := s.events ++ [s.eventRow c.now e], nextEventId := s.nextEventId + 1 } := by
  simp only [insertEvent, bind_eq_ok, pure_eq_ok] at h
  obtain ⟨-, -, -, -, -, -, rfl⟩ := h
  rfl

theorem auditLog_eq_ok {c : Context} {e : Audit.Entry} {s s' : Store}
    (h : s.auditLog c e = .ok s') :
    ∃ columns : Audit.SafeColumns,
      s' = { s with audit := s.audit.push (s.audit.newRow columns.toColumns) c.now } := by
  simp only [auditLog, bind_eq_ok, pure_eq_ok] at h
  obtain ⟨⟨id, t⟩, h, rfl⟩ := h
  obtain ⟨columns, hcolumns, -, rfl⟩ := Audit.appendAuditLog_eq_ok h
  exact ⟨⟨columns, Audit.safeObject_of_validate hcolumns⟩, rfl⟩

end Store

/-! ## What a resolved transition or renewal knows -/

omit [Server] in
theorem Store.job?_eq_some {s : Store} {id : Uuid} {j : Job} (h : s.job? id = some j) :
    j ∈ s.jobs ∧ j.id = id :=
  ⟨List.mem_of_find?_eq_some h, by simpa using List.find?_some h⟩

/-- The guards of `transition_operation_job`. -/
structure Resolved (c : Context) (p : TransitionParams) (s : Store) (t : Transition) : Prop where
  jobId : p.jobId = some t.job.id
  mem : t.job ∈ s.jobs
  expectedStatus : p.expectedStatus = some t.job.status.text
  newStatus : p.newStatus = some t.newStatus.text
  edge : t.job.status.edge t.newStatus = true
  actorType : p.actorType = some t.actorType.text
  actor : p.resolveActor c t.actorType = .ok t.actor
  gate : transitionGate c.now t.job t.newStatus t.actorType t.actor p = .ok ()
  owner : t.actorType = .agent → t.job.status.held = true → t.job.leaseOwner = p.leaseOwner
  requestId : p.requestId = some t.requestId
  details : p.details = some t.details
  safe : safeObject t.details = true
  errorCode : t.errorCode = detailsErrorCode t.details
  leaseOwner : t.leaseOwner = p.leaseOwner
  leaseSeconds : t.leaseSeconds = p.leaseSeconds

theorem TransitionParams.resolve_eq_ok {c : Context} {p : TransitionParams} {s : Store}
    {t : Transition} (h : p.resolve c s = .ok t) : Resolved c p s t := by
  simp only [resolve, bind_eq_ok, orRaise_eq_ok, raiseIf_eq_ok, pure_eq_ok, exists_const,
    Option.filter_eq_some_iff, decide_eq_false_iff_not, not_not] at h
  obtain ⟨jobId, hjobId, expected, hexpected, newText, hnew, actorText, hactorText, requestId,
    hrequest, details, ⟨hdetails, hsafe⟩, actorType, hactorType, actor, hactor, job, hjob,
    hstatus, newStatus, ⟨hnewStatus, hedge⟩, _, hgate, howner, -, rfl⟩ := h
  obtain ⟨hmem, rfl⟩ := Store.job?_eq_some hjob
  exact {
    jobId := hjobId
    mem := hmem
    expectedStatus := by rw [hexpected, hstatus]
    newStatus := by rw [hnew, JobStatus.text_of_ofText? hnewStatus]
    edge := hedge
    actorType := by rw [hactorText, ActorType.text_of_ofText? hactorType]
    actor := hactor
    gate := hgate
    owner := fun hagent hheld => by
      subst hagent
      simpa [hheld] using howner
    requestId := hrequest
    details := hdetails
    safe := hsafe
    errorCode := rfl
    leaseOwner := rfl
    leaseSeconds := rfl }

/-- The guards of `renew_operation_job_lease`. -/
structure Renewable (c : Context) (p : RenewParams) (s : Store) (r : Renewal) : Prop where
  jobId : p.jobId = some r.job.id
  mem : r.job ∈ s.jobs
  held : r.job.status.held = true
  owner : ∃ owner, p.leaseOwner = some owner ∧ r.job.leaseOwner = some owner
  running : ∃ e, r.job.leaseExpiresAt = some e ∧ c.now < e
  seconds : leaseSecondsOk r.leaseSeconds = true
  leaseSeconds : p.leaseSeconds = some r.leaseSeconds
  requestId : p.requestId = some r.requestId

theorem RenewParams.resolve_eq_ok {c : Context} {p : RenewParams} {s : Store} {r : Renewal}
    (h : p.resolve c s = .ok r) : Renewable c p s r := by
  simp only [resolve, bind_eq_ok, orRaise_eq_ok, raiseIf_eq_ok, pure_eq_ok, exists_const,
    Option.filter_eq_some_iff, Bool.not_eq_false', isDistinct_eq_false, Option.any_eq_true,
    decide_eq_true_eq] at h
  obtain ⟨jobId, hjobId, requestId, hrequest, owner, ⟨howner, -⟩, seconds, ⟨hseconds, hok⟩, job,
    hjob, hheld, hsame, ⟨e, he, hlt⟩, rfl⟩ := h
  obtain ⟨hmem, rfl⟩ := Store.job?_eq_some hjob
  exact {
    jobId := hjobId
    mem := hmem
    held := hheld
    owner := ⟨owner, howner, hsame⟩
    running := ⟨e, he, hlt⟩
    seconds := hok
    leaseSeconds := hseconds
    requestId := hrequest }

/-! ## What the gate admits -/

omit [Server] in
theorem requireActor_eq_ok {b : Bool} {u : Unit} : requireActor b = .ok u ↔ b = true := by
  simp [requireActor]

omit [Server] in
theorem requireLapsed_eq_ok {now : ℤ} {j : Job} {u : Unit} :
    requireLapsed now j = .ok u ↔ j.leaseLapsed now = true := by
  simp [requireLapsed]

/-- A job is leased only to an agent, under a well-formed name and for 15 to 300 seconds. -/
theorem Resolved.leased {c : Context} {p : TransitionParams} {s : Store} {t : Transition}
    (h : Resolved c p s t) (hnew : t.newStatus = .leased) :
    t.actorType = .agent ∧ ∃ owner seconds, p.leaseOwner = some owner ∧
      leaseOwnerOk owner = true ∧ p.leaseSeconds = some seconds ∧
      leaseSecondsOk seconds = true := by
  have hedge := h.edge
  have hgate := h.gate
  rw [hnew] at hedge hgate
  cases hs : t.job.status <;> rw [hs] at hedge <;> simp [JobStatus.edge] at hedge
  simp only [transitionGate, hs, raiseIf_eq_ok, Bool.not_eq_false', Bool.and_eq_true, decide_eq_true_eq,
    Option.any_eq_true] at hgate
  obtain ⟨⟨hagent, owner, howner, hok⟩, seconds, hseconds, hsok⟩ := hgate
  exact ⟨hagent, owner, seconds, howner, hok, hseconds, hsok⟩

/-- A held job is moved by an agent, or by the system once its lease has lapsed. -/
theorem Resolved.held {c : Context} {p : TransitionParams} {s : Store} {t : Transition}
    (h : Resolved c p s t) (hheld : t.job.status.held = true) :
    t.actorType = .agent ∨ (t.actorType = .system ∧ t.job.leaseLapsed c.now = true) := by
  have hedge := h.edge
  have hgate := h.gate
  cases hs : t.job.status <;> simp [hs, JobStatus.held] at hheld <;>
    cases hn : t.newStatus <;> simp [hs, hn, JobStatus.edge] at hedge <;>
    simp only [transitionGate, hs, hn, bind_eq_ok, requireActor_eq_ok, requireLapsed_eq_ok,
      decide_eq_true_eq, exists_const] at hgate
  case leased.queued | leased.failed =>
    by_cases hsys : t.actorType = .system
    · rw [if_pos hsys, requireLapsed_eq_ok] at hgate
      exact .inr ⟨hsys, hgate⟩
    · rw [if_neg hsys, requireActor_eq_ok] at hgate
      exact .inl (by simpa using hgate)
  all_goals tauto

/-- Only an agent starts a job or reports its result. -/
theorem Resolved.agent {c : Context} {p : TransitionParams} {s : Store} {t : Transition}
    (h : Resolved c p s t) (hheld : t.job.status.held = true)
    (hnew : t.newStatus = .running ∨ t.newStatus = .succeeded) : t.actorType = .agent := by
  have hedge := h.edge
  have hgate := h.gate
  cases hs : t.job.status <;> simp [hs, JobStatus.held] at hheld <;>
    rcases hnew with hn | hn <;> simp [hs, hn, JobStatus.edge] at hedge <;>
    simpa [transitionGate, hs, hn, requireActor_eq_ok] using hgate

/-! ## Changes -/

/-- The tables with new job rows, one more event and one more audit entry. -/
def Store.written (s : Store) (c : Context) (jobs : List Job) (e : Store.NewEvent)
    (columns : Audit.Columns) : Store where
  jobs := jobs
  events := s.events ++ [s.eventRow c.now e]
  nextEventId := s.nextEventId + 1
  audit := s.audit.push (s.audit.newRow columns) c.now

/-- The rows that pass their constraints. -/
def Job.Checked (j : Job) : Prop := ∀ check ∈ j.checks, check.2 = true

/-- A new job and its first event. -/
structure Requested (c : Context) (s : Store) (j : Job) (e : Store.NewEvent) : Prop where
  shape : ∃ hostId operationType lockScope requester role keyHash confirmed requestId,
    j = newJob c hostId operationType lockScope requester role keyHash confirmed requestId
  checked : j.Checked
  fresh : ∀ k ∈ s.jobs, k.id ≠ j.id ∧ j.sameIdempotencyKey k = false ∧
    j.sameActiveScope k = false ∧ j.sameDiscordIdempotencyKey k = false
  jobId : e.jobId = j.id
  eventType : e.eventType = .requested
  previousStatus : e.previousStatus = none
  newStatus : e.newStatus = .queued
  details : jsonbContainsSensitiveKey e.details = false

/-- One change of the tables, by a call that asks for the transitions in `Q` only. -/
inductive Change (c : Context) (Q : TransitionParams → Prop) (s : Store) : Store → Prop
  | audited (columns : Audit.SafeColumns) :
    Change c Q s { s with audit := s.audit.push (s.audit.newRow columns.toColumns) c.now }
  | requested {j : Job} {e : Store.NewEvent} (columns : Audit.SafeColumns) (h : Requested c s j e) :
    Change c Q s (s.written c (s.jobs ++ [j]) e columns.toColumns)
  | moved {p : TransitionParams} {t : Transition} (columns : Audit.SafeColumns) (hp : Q p)
    (h : Resolved c p s t) (hrow : (t.row c.now).Checked) :
    Change c Q s (s.written c (s.replaceJob (t.row c.now)) t.event columns.toColumns)
  | renewed {p : RenewParams} {r : Renewal} (columns : Audit.SafeColumns) (h : Renewable c p s r)
    (hrow : (r.row c.now).Checked) :
    Change c Q s (s.written c (s.replaceJob (r.row c.now)) (r.event c.now) columns.toColumns)

theorem Change.mono {c : Context} {Q Q' : TransitionParams → Prop} (hQ : ∀ p, Q p → Q' p)
    {s s' : Store} (h : Change c Q s s') : Change c Q' s s' := by
  cases h with
  | audited columns => exact .audited columns
  | requested columns h => exact .requested columns h
  | moved columns hp h hrow => exact .moved columns (hQ _ hp) h hrow
  | renewed columns h hrow => exact .renewed columns h hrow

/-- The changes of one call. -/
def Changes (c : Context) (Q : TransitionParams → Prop) : Store → Store → Prop :=
  Relation.ReflTransGen (Change c Q)

theorem Changes.mono {c : Context} {Q Q' : TransitionParams → Prop} (hQ : ∀ p, Q p → Q' p)
    {s s' : Store} (h : Changes c Q s s') : Changes c Q' s s' :=
  Relation.ReflTransGen.mono (fun _ _ => Change.mono hQ) _ _ h

/-! ## Every function is a chain of changes -/

theorem transitionOperationJob_eq_ok {c : Context} {p : TransitionParams} {s s' : Store}
    {r : Uuid × JobStatus} (h : transitionOperationJob c p s = .ok (r, s')) :
    ∃ (t : Transition) (columns : Audit.SafeColumns), Resolved c p s t ∧ (t.row c.now).Checked ∧
      r = (t.job.id, t.newStatus) ∧
      s' = s.written c (s.replaceJob (t.row c.now)) t.event columns.toColumns := by
  simp only [transitionOperationJob, Transition.write, bind_eq_ok, pure_eq_ok, Prod.mk.injEq] at h
  obtain ⟨t, ht, s₃, ⟨s₁, h₁, s₂, h₂, h₃⟩, hr, rfl⟩ := h
  obtain ⟨rfl, hrow⟩ := Store.updateJob_eq_ok h₁
  obtain rfl := Store.insertEvent_eq_ok h₂
  obtain ⟨columns, rfl⟩ := Store.auditLog_eq_ok h₃
  exact ⟨t, columns, TransitionParams.resolve_eq_ok ht, hrow, hr.symm, rfl⟩

theorem renewOperationJobLease_eq_ok {c : Context} {p : RenewParams} {s s' : Store}
    {result : RenewResult} (h : renewOperationJobLease c p s = .ok (result, s')) :
    ∃ (r : Renewal) (columns : Audit.SafeColumns), Renewable c p s r ∧ (r.row c.now).Checked ∧
      result = ⟨r.job.id, r.job.status, r.newExpiry c.now⟩ ∧
      s' = s.written c (s.replaceJob (r.row c.now)) (r.event c.now) columns.toColumns := by
  simp only [renewOperationJobLease, Renewal.write, bind_eq_ok, pure_eq_ok, Prod.mk.injEq] at h
  obtain ⟨r, hr, s₃, ⟨s₁, h₁, s₂, h₂, h₃⟩, hresult, rfl⟩ := h
  obtain ⟨rfl, hrow⟩ := Store.updateJob_eq_ok h₁
  obtain rfl := Store.insertEvent_eq_ok h₂
  obtain ⟨columns, rfl⟩ := Store.auditLog_eq_ok h₃
  exact ⟨r, columns, RenewParams.resolve_eq_ok hr, hrow, hresult.symm, rfl⟩

theorem changes_of_transition {c : Context} {p : TransitionParams} {s s' : Store}
    {r : Uuid × JobStatus} (h : transitionOperationJob c p s = .ok (r, s')) :
    Changes c (· = p) s s' := by
  obtain ⟨t, columns, ht, hrow, -, rfl⟩ := transitionOperationJob_eq_ok h
  exact .single (.moved columns rfl ht hrow)

theorem changes_of_renew {c : Context} {p : RenewParams} {s s' : Store} {r : RenewResult}
    (h : renewOperationJobLease c p s = .ok (r, s')) {Q : TransitionParams → Prop} :
    Changes c Q s s' := by
  obtain ⟨t, columns, ht, hrow, -, rfl⟩ := renewOperationJobLease_eq_ok h
  exact .single (.renewed columns ht hrow)

theorem changes_of_auditLog {c : Context} {e : Audit.Entry} {s s' : Store}
    (h : s.auditLog c e = .ok s') {Q : TransitionParams → Prop} : Changes c Q s s' := by
  obtain ⟨columns, rfl⟩ := Store.auditLog_eq_ok h
  exact .single (.audited columns)

theorem EnqueueRequest.changes_of_create {c : Context} {r : EnqueueRequest} {s s' : Store}
    {result : EnqueueResult} (h : r.create c s = .ok (result, s')) {Q : TransitionParams → Prop} :
    Changes c Q s s' := by
  simp only [create, bind_eq_ok, pure_eq_ok, Prod.mk.injEq] at h
  obtain ⟨s₁, h₁, s₂, h₂, s₃, h₃, -, rfl⟩ := h
  obtain ⟨rfl, hchecked, hfresh⟩ := Store.insertJob_eq_ok h₁
  obtain rfl := Store.insertEvent_eq_ok h₂
  obtain ⟨columns, rfl⟩ := Store.auditLog_eq_ok h₃
  exact .single
    (.requested columns ⟨⟨_, _, _, _, _, _, _, _, rfl⟩, hchecked, hfresh, rfl, rfl, rfl, rfl,
      containsSensitiveKey_single (by decide) (by decide)⟩)

theorem DiscordRequest.changes_of_create {c : Context} {session : DiscordConsoleSession}
    {requestId : Uuid} {r : DiscordRequest} {s s' : Store} {result : EnqueueResult}
    (h : r.create c session requestId s = .ok (result, s')) {Q : TransitionParams → Prop} :
    Changes c Q s s' := by
  simp only [create, bind_eq_ok, pure_eq_ok, Prod.mk.injEq] at h
  obtain ⟨s₁, h₁, s₂, h₂, s₃, h₃, -, rfl⟩ := h
  obtain ⟨rfl, hchecked, hfresh⟩ := Store.insertJob_eq_ok h₁
  obtain rfl := Store.insertEvent_eq_ok h₂
  obtain ⟨columns, rfl⟩ := Store.auditLog_eq_ok h₃
  exact .single
    (.requested columns ⟨⟨_, _, _, _, _, _, _, _, rfl⟩, hchecked, hfresh, rfl, rfl, rfl, rfl,
      containsSensitiveKey_single (by decide) (by decide)⟩)

theorem EnqueueRequest.changes_of_run {c : Context} {r : EnqueueRequest} {s s' : Store}
    {result : EnqueueResult} (h : r.run c s = .ok (result, s')) {Q : TransitionParams → Prop} :
    Changes c Q s s' := by
  unfold run deny accept at h
  split_ifs at h
  · simp only [bind_eq_ok, pure_eq_ok, Prod.mk.injEq] at h
    obtain ⟨s₁, h₁, -, rfl⟩ := h
    exact changes_of_auditLog h₁
  · simp only [bind_eq_ok, pure_eq_ok, Prod.mk.injEq] at h
    obtain ⟨s₁, h₁, -, rfl⟩ := h
    exact changes_of_auditLog h₁
  · split at h
    · simp only [bind_eq_ok, pure_eq_ok, Prod.mk.injEq] at h
      obtain ⟨s₁, h₁, -, rfl⟩ := h
      exact changes_of_auditLog h₁
    · split at h
      · simp only [bind_eq_ok, pure_eq_ok, Prod.mk.injEq] at h
        obtain ⟨s₁, h₁, -, rfl⟩ := h
        exact changes_of_auditLog h₁
      · exact changes_of_create h

theorem changes_of_enqueue {c : Context} {p : EnqueueParams} {s s' : Store}
    {result : EnqueueResult} (h : enqueueOperationJob c p s = .ok (result, s'))
    {Q : TransitionParams → Prop} : Changes c Q s s' := by
  obtain ⟨r, -, h⟩ := bind_eq_ok.1 h
  exact r.changes_of_run h

theorem changes_of_enqueueDiscord {c : Context} {p : DiscordEnqueueParams} {s s' : Store}
    {result : EnqueueResult} (h : enqueueDiscordOperationJob c p s = .ok (result, s'))
    {Q : TransitionParams → Prop} : Changes c Q s s' := by
  obtain ⟨sessionId, -, h⟩ := bind_eq_ok.1 h
  obtain ⟨requestId, -, h⟩ := bind_eq_ok.1 h
  split at h
  · obtain ⟨-, rfl⟩ := Prod.mk.inj (pure_eq_ok.1 h)
    exact .refl
  · split at h
    · obtain ⟨s₁, h₁, h⟩ := bind_eq_ok.1 h
      obtain ⟨-, rfl⟩ := Prod.mk.inj (pure_eq_ok.1 h)
      exact changes_of_auditLog h₁
    · unfold DiscordRequest.accept at h
      split at h
      · obtain ⟨-, rfl⟩ := Prod.mk.inj (Except.ok.inj h)
        exact .refl
      · split at h
        · obtain ⟨s₁, h₁, h⟩ := bind_eq_ok.1 h
          obtain ⟨-, rfl⟩ := Prod.mk.inj (pure_eq_ok.1 h)
          exact changes_of_auditLog h₁
        · exact DiscordRequest.changes_of_create h

theorem changes_of_expireLoop {c : Context} {jobs : List Job} {n : ℕ} {s s' : Store}
    (h : expireLoop c jobs n s = .ok s') : Changes c (·.newStatus = some "expired") s s' := by
  induction jobs generalizing n s with
  | nil =>
    obtain rfl := Except.ok.inj h
    exact .refl
  | cons j jobs ih =>
    obtain ⟨⟨r, s₁⟩, h₁, h⟩ := bind_eq_ok.1 h
    exact ((changes_of_transition h₁).mono (by rintro _ rfl; rfl)).trans (ih h)

theorem changes_of_expireStale {c : Context} {limit : Option ℤ} {s s' : Store} {n : ℕ}
    (h : expireStaleOperationJobs c limit s = .ok (n, s')) :
    Changes c (·.newStatus = some "expired") s s' := by
  simp only [expireStaleOperationJobs, bind_eq_ok, pure_eq_ok, Prod.mk.injEq] at h
  obtain ⟨limit, -, s₁, h₁, -, rfl⟩ := h
  exact changes_of_expireLoop h₁

theorem changes_of_claimFrom {c : Context} {host : Host} {leaseOwner : String} {requestId : Uuid}
    {leaseSeconds : ℤ} {s s' : Store} {result : Option ClaimedJob}
    (h : claimFrom c host leaseOwner requestId leaseSeconds s = .ok (result, s')) :
    Changes c (·.newStatus = some "leased") s s' := by
  unfold claimFrom at h
  split at h
  · obtain ⟨⟨r, s₁⟩, h₁, h⟩ := bind_eq_ok.1 h
    obtain ⟨-, rfl⟩ := Prod.mk.inj (pure_eq_ok.1 h)
    exact changes_of_renew h₁
  · split at h
    · obtain ⟨-, rfl⟩ := Prod.mk.inj (Except.ok.inj h)
      exact .refl
    · obtain ⟨⟨r, s₁⟩, h₁, h⟩ := bind_eq_ok.1 h
      obtain ⟨-, rfl⟩ := Prod.mk.inj (pure_eq_ok.1 h)
      exact (changes_of_transition h₁).mono (by rintro _ rfl; rfl)

/-- A claim expires the lapsed leases first and then resumes or leases a job. -/
theorem claimMcMainOperationJob_eq_ok {c : Context} {p : ClaimParams} {s s' : Store}
    {result : Option ClaimedJob} (h : claimMcMainOperationJob c p s = .ok (result, s')) :
    ∃ requestId leaseOwner leaseSeconds host n s₁, p.leaseOwner = some leaseOwner ∧
      expireStaleOperationJobs c (some 100) s = .ok (n, s₁) ∧
      claimFrom c host leaseOwner requestId leaseSeconds s₁ = .ok (result, s') := by
  simp only [claimMcMainOperationJob, bind_eq_ok, orRaise_eq_ok, Option.filter_eq_some_iff] at h
  obtain ⟨-, -, requestId, -, leaseOwner, ⟨howner, -⟩, leaseSeconds, -, host, -, ⟨n, s₁⟩, h₁, h⟩ := h
  exact ⟨requestId, leaseOwner, leaseSeconds, host, n, s₁, howner, h₁, h⟩

theorem changes_of_claim {c : Context} {p : ClaimParams} {s s' : Store}
    {result : Option ClaimedJob} (h : claimMcMainOperationJob c p s = .ok (result, s')) :
    Changes c (fun q => q.newStatus = some "expired" ∨ q.newStatus = some "leased") s s' := by
  obtain ⟨_, _, _, _, _, s₁, -, h₁, h⟩ := claimMcMainOperationJob_eq_ok h
  exact ((changes_of_expireStale h₁).mono fun _ => .inl).trans
    ((changes_of_claimFrom h).mono fun _ => .inr)

theorem changes_of_mcMainTransition {c : Context} {p : McMainTransitionParams} {s s' : Store}
    {r : Uuid × JobStatus} (h : transitionMcMainOperationJob c p s = .ok (r, s')) :
    Changes c (· = p.transition) s s' := by
  obtain ⟨-, -, h⟩ := bind_eq_ok.1 h
  exact changes_of_transition h

/-! ## Runs -/

/-- A call of one of the functions of the queue. -/
inductive Rpc
  | enqueue (p : EnqueueParams)
  | enqueueDiscord (p : DiscordEnqueueParams)
  | claim (p : ClaimParams)
  | transition (p : TransitionParams)
  | mcMainTransition (p : McMainTransitionParams)
  | renew (p : RenewParams)
  | expireStale (limit : Option ℤ)

/-- What a call returns. -/
inductive Reply
  | enqueued (r : EnqueueResult)
  | claimed (r : Option ClaimedJob)
  | transitioned (r : Uuid × JobStatus)
  | renewed (r : RenewResult)
  | expired (n : ℕ)
  deriving DecidableEq

/-- A call at work: its reply and the new tables, or the error it aborts with. -/
def Rpc.exec (c : Context) (s : Store) : Rpc → Except DbError (Reply × Store)
  | .enqueue p => (enqueueOperationJob c p s).map fun r => (.enqueued r.1, r.2)
  | .enqueueDiscord p => (enqueueDiscordOperationJob c p s).map fun r => (.enqueued r.1, r.2)
  | .claim p => (claimMcMainOperationJob c p s).map fun r => (.claimed r.1, r.2)
  | .transition p => (transitionOperationJob c p s).map fun r => (.transitioned r.1, r.2)
  | .mcMainTransition p =>
    (transitionMcMainOperationJob c p s).map fun r => (.transitioned r.1, r.2)
  | .renew p => (renewOperationJobLease c p s).map fun r => (.renewed r.1, r.2)
  | .expireStale limit => (expireStaleOperationJobs c limit s).map fun r => (.expired r.1, r.2)

/-- The transitions a call may ask for. -/
def Rpc.asks : Rpc → TransitionParams → Prop
  | .claim _, q => q.newStatus = some "expired" ∨ q.newStatus = some "leased"
  | .transition p, q => q = p
  | .mcMainTransition p, q => q = p.transition
  | .expireStale _, q => q.newStatus = some "expired"
  | _, _ => False

/-- A call with its surroundings: the time since the call before it, the reference tables, the
uuids it draws, and the identity values lost to aborted calls in between. -/
structure Call where
  elapsed : ℕ
  directory : Directory
  genRandomUuid : ℕ → Uuid
  lostEventIds : ℕ
  lostAuditIds : ℕ
  rpc : Rpc

/-- The clock and the tables. -/
structure World where
  now : ℤ
  store : Store

namespace World

omit [Server] in
/-- The tables of a fresh installation at time `t`. -/
def initial (t : ℤ) : World := ⟨t, .initial t⟩

/-- What a call finds. -/
def context (w : World) (call : Call) : Context :=
  ⟨w.now + call.elapsed, call.directory, call.genRandomUuid⟩

/-- The tables a call starts from. -/
def before (w : World) (call : Call) : Store :=
  { w.store with
    nextEventId := w.store.nextEventId + call.lostEventIds
    audit := { w.store.audit with nextId := w.store.audit.nextId + call.lostAuditIds } }

/-- The outcome of a call. -/
def exec (w : World) (call : Call) : Except DbError (Reply × Store) :=
  call.rpc.exec (w.context call) (w.before call)

/-- The world after a call; an aborted call leaves the tables as it found them. -/
def step (w : World) (call : Call) : World where
  now := w.now + call.elapsed
  store :=
    match w.exec call with
    | .ok (_, s) => s
    | .error _ => w.before call

/-- The world after a list of calls. -/
def run (w : World) (calls : List Call) : World := Runs.run step w calls

@[simp] theorem context_now (w : World) (call : Call) :
    (w.context call).now = w.now + call.elapsed := rfl

@[simp] theorem before_jobs (w : World) (call : Call) : (w.before call).jobs = w.store.jobs := rfl

@[simp] theorem before_events (w : World) (call : Call) :
    (w.before call).events = w.store.events := rfl

@[simp] theorem step_now (w : World) (call : Call) : (w.step call).now = w.now + call.elapsed := rfl

end World

/-- **A call that commits is a chain of changes.** -/
theorem changes_of_exec {c : Context} {rpc : Rpc} {s s' : Store} {reply : Reply}
    (h : rpc.exec c s = .ok (reply, s')) : Changes c rpc.asks s s' := by
  cases rpc <;> simp only [Rpc.exec, map_eq_ok, Prod.mk.injEq] at h <;>
    obtain ⟨⟨r, s₁⟩, h, -, rfl⟩ := h
  case enqueue p => exact changes_of_enqueue h
  case enqueueDiscord p => exact changes_of_enqueueDiscord h
  case claim p => exact changes_of_claim h
  case transition p => exact changes_of_transition h
  case mcMainTransition p => exact changes_of_mcMainTransition h
  case renew p => exact changes_of_renew h
  case expireStale limit => exact changes_of_expireStale h

/-- The tables after a call are the tables before it with a chain of changes. -/
theorem World.changes_step (w : World) (call : Call) :
    Changes (w.context call) call.rpc.asks (w.before call) (w.step call).store := by
  unfold step
  split
  next h => exact changes_of_exec h
  next => exact .refl

/-- **The induction rule for runs**: a property of the clock and the tables that the passing of
time and every change keep holds after every run. -/
theorem World.run_induction {P : ℤ → Store → Prop}
    (htime : ∀ (w : World) (call : Call), P w.now w.store →
      P (w.now + call.elapsed) (w.before call))
    (hchange : ∀ c Q s s', P c.now s → Change c Q s s' → P c.now s') {w : World}
    (hw : P w.now w.store) (calls : List Call) : P (w.run calls).now (w.run calls).store := by
  refine @Runs.run_invariant _ _ step (fun w => P w.now w.store) (fun w call h => ?_) w hw calls
  have hbefore := htime w call h
  have hchain := w.changes_step call
  change P (w.context call).now (w.step call).store
  generalize (w.step call).store = s' at hchain
  induction hchain with
  | refl => exact hbefore
  | tail _ hlast ih => exact hchange _ _ _ _ ih hlast

/-! ## A sample request -/

/-- An idempotency hash. -/
def sampleHash : String := String.ofList (List.replicate 64 'a')

/-- A Discord session that ends after an hour, and the host of `mc-main`. -/
def sampleDirectory : Directory where
  consoleUsers := []
  hosts := [⟨⟨1⟩, mcMainServerId, true⟩]
  discordSessions := [⟨⟨2⟩, "123456789012345678", .operator, 3600 * second, none, by decide⟩]

/-- A request to start the backend, made in that session after `elapsed` microseconds. -/
def sampleStart (elapsed : ℕ) : Call where
  elapsed := elapsed
  directory := sampleDirectory
  genRandomUuid := fun _ => ⟨7⟩
  lostEventIds := 0
  lostAuditIds := 0
  rpc := .enqueueDiscord {
    discordSessionId := some ⟨2⟩
    serverId := some mcMainServerId
    operationType := some "start_backend"
    payload := some emptyObject
    idempotencyKeyHash := some sampleHash
    confirmationText := none
    requestId := some ⟨3⟩ }

/-- The job it creates. -/
def sampleJob : Job :=
  newJob ((World.initial 0).context (sampleStart 0)) ⟨1⟩ .startBackend .exclusive
    (.discord "123456789012345678") .operator sampleHash true ⟨3⟩

end IvrmDashboard.Operations

import IvrmDashboard.Operations.Ownership

/-!
# How a call fails

No call aborts on one of the three unique indexes of `operation_jobs` that guard exclusivity and
idempotency: the functions look before they insert, and an update keeps the columns of the indexes
(`exec_fails`). A request that passes the validation of its arguments ends in an outcome: what can
still abort it is an unknown host, a drawn uuid that is in use already, or a collision of SHA-256
in the audit log (`RequestError`). The audit entries the functions write are always admissible
(`Audit.Entry.Sound`).
-/

namespace IvrmDashboard

open Sql

variable [Server]

/-! ## Admissible audit entries -/

namespace Audit

/-- An entry that passes the validation and the constraints of the audit log. -/
structure Entry.Sound (isConsoleUser : Uuid → Bool) (e : Entry) : Prop where
  requestId : ∃ i, e.requestId = some i
  action : ∃ a, e.action = some a ∧ actionOk a = true
  targetType : ∃ t, e.targetType = some t ∧ targetTypeOk t = true
  result : ∃ r, e.result = some r ∧ r ∈ results
  metadata : ∃ m, e.metadata = some m ∧ safeObject m = true
  email : e.actorEmail.all Operations.emailOk = true
  role : e.actorRole.all (· ∈ roles) = true
  targetId : e.targetId.all (Text.lengthBetween 1 255) = true
  user : e.actorUserId.all isConsoleUser = true

/-- A sound entry passes the validation, and its row passes the constraints. -/
theorem Entry.Sound.validate {isConsoleUser : Uuid → Bool} {e : Entry}
    (h : e.Sound isConsoleUser) {t : Tables} (ht : WellFormed t) (occurredAt : ℤ) :
    ∃ c, e.validate occurredAt = .ok c ∧ c.actorUserId = e.actorUserId ∧
      ∀ check ∈ (t.newRow c).checks, check.2 = true := by
  obtain ⟨requestId, hrequest⟩ := h.requestId
  obtain ⟨action, haction, hactionOk⟩ := h.action
  obtain ⟨targetType, htarget, htargetOk⟩ := h.targetType
  obtain ⟨result, hresult, hresultOk⟩ := h.result
  obtain ⟨metadata, hmetadata, hsafe⟩ := h.metadata
  have hsafe' := hsafe
  simp only [safeObject, Bool.and_eq_true] at hsafe'
  refine ⟨⟨requestId, e.actorUserId, e.actorEmail, e.actorRole, e.actorIp, action, targetType,
    e.targetId, result, metadata, .ofInstant occurredAt⟩, ?_, rfl, ?_⟩
  · simp only [Entry.validate, hrequest, haction, htarget, hresult, hmetadata, Option.filter,
      hactionOk, htargetOk, hresultOk, hsafe, decide_true, if_true]
    rfl
  · have hprev : (t.chainState.lastEntryHash).all (Text.matchesExactly Text.hexDigit 64) = true := by
      rw [Option.all_eq_true]
      exact ht.isPrevious
    have hmeta : (metadata.isObject && decide (metadata.octetLength ≤ 8192)) = true := by
      rw [Bool.and_eq_true]
      exact hsafe'.1
    simp only [AuditLog.checks, Tables.newRow, List.forall_mem_cons]
    exact ⟨hactionOk, h.email, h.role, Text.matchesExactly_encodeHex _, hmeta, hprev,
      decide_eq_true hresultOk, h.targetId, htargetOk, by simp⟩

/-- **A sound entry is appended**, unless the digest collides in the log. -/
theorem Entry.Sound.append_fails {isConsoleUser : Uuid → Bool} {e : Entry}
    (h : e.Sound isConsoleUser) {t : Tables} (ht : WellFormed t) (occurredAt : ℤ)
    {P : DbError → Prop}
    (hP : ∀ c, e.validate occurredAt = .ok c →
      ¬ CollisionFree (hashedTexts (t.logs ++ [t.newRow c])) →
      P (.uniqueViolation "audit_logs_entry_hash_key")) :
    Fails P (appendAuditLog isConsoleUser occurredAt e t) := by
  obtain ⟨c, hc, huser, hchecks⟩ := h.validate ht occurredAt
  unfold appendAuditLog
  rw [hc]
  change Fails P (checkAll _ >>= _)
  refine fails_bind (fails_checkAll_of_forall hchecks) fun _ _ => ?_
  refine fails_bind (fails_raiseIf fun hany => hP c hc fun hfree => ?_) fun _ _ => ?_
  · obtain ⟨r, hr, heq⟩ := List.any_eq_true.1 hany
    exact ht.fresh hfree (List.mem_map.2 ⟨r, hr, by simpa using heq⟩)
  · refine fails_bind (fails_raiseIf fun hno => ?_) fun _ _ => fails_pure _
    rw [huser, h.user] at hno
    exact nomatch hno

end Audit

namespace Operations

/-! ## Metadata that is always admissible -/

/-- The keys of the metadata the functions write, and of the details of a request. -/
def metadataKeys : List String :=
  ["operationType", "status", "lockScope", "conflictingOperationType", "conflictingStatus",
    "previousStatus", "newStatus", "actorType", "discordUserId", "reason", "requiredRole",
    "confirmationVerified", "actorSource"]

omit [Server] in
theorem metadataKeys_plain : ∀ k ∈ metadataKeys, k.length ≤ 24 ∧
    k.toList.all (·.toNat < 128) = true ∧
    String.ofList (k.toList.map Char.toLower) ∉ sensitiveKeys := by decide

theorem metadataKeys_safe (k : String) (hk : k ∈ metadataKeys) : Text.lower k ∉ sensitiveKeys := by
  obtain ⟨-, hascii, hsafe⟩ := metadataKeys_plain k hk
  rw [Text.lower_eq_of_ascii hascii]
  exact hsafe

/-- A metadata field: a known key with a short value that holds no object. -/
def MetadataField (f : String × Jsonb) : Prop :=
  Jsonb.ShortField f ∧ f.1 ∈ metadataKeys ∧ jsonbContainsSensitiveKey f.2 = false

theorem metadataField_str {k v : String} (hk : k ∈ metadataKeys) (hv : v.length ≤ 25) :
    MetadataField (k, .str v) :=
  ⟨Jsonb.shortField_str (metadataKeys_plain k hk).1 hv, hk, rfl⟩

theorem metadataField_bool {k : String} {b : Bool} (hk : k ∈ metadataKeys) :
    MetadataField (k, .bool b) :=
  ⟨Jsonb.shortField_bool b (metadataKeys_plain k hk).1, hk, rfl⟩

theorem fieldsContainSensitiveKey_eq_false {fields : List (String × Jsonb)}
    (h : ∀ f ∈ fields, Text.lower f.1 ∉ sensitiveKeys ∧ jsonbContainsSensitiveKey f.2 = false) :
    fieldsContainSensitiveKey fields = false := by
  induction fields with
  | nil => rfl
  | cons f fields ih =>
    obtain ⟨k, v⟩ := f
    have hf := h (k, v) List.mem_cons_self
    simp only [fieldsContainSensitiveKey, hf.2, ih fun g hg => h g (List.mem_cons_of_mem _ hg)]
    simp [hf.1]

/-- An object of at most six metadata fields is admissible everywhere. -/
theorem safeObject_metadata {fields : List (String × Jsonb)} (hlen : fields.length ≤ 6)
    (h : ∀ f ∈ fields, MetadataField f) : safeObject (.buildObject fields) = true := by
  simp only [safeObject, Bool.and_eq_true, decide_eq_true_eq, Bool.not_eq_true']
  refine ⟨⟨rfl, Jsonb.octetLength_le_of_short hlen fun f hf => (h f hf).1⟩, ?_⟩
  refine fieldsContainSensitiveKey_eq_false fun f hf => ?_
  have hf := h f (Jsonb.mem_of_buildObject hf)
  exact ⟨metadataKeys_safe f.1 hf.2.1, hf.2.2⟩

theorem safeObject_emptyObject : safeObject emptyObject = true := by
  refine safeObject_metadata (?_ : ([] : List (String × Jsonb)).length ≤ 6) ?_
  · exact Nat.zero_le 6
  · simp

theorem objectOk_of_safe {v : Jsonb} (h : safeObject v = true) : objectOk v = true := by
  simp only [safeObject, Bool.and_eq_true] at h
  rw [objectOk, Bool.and_eq_true]
  exact h.1

omit [Server] in
theorem OperationType.length_text_le (t : OperationType) : t.text.length ≤ 25 := by
  cases t <;> decide

omit [Server] in
theorem JobStatus.length_text_le (t : JobStatus) : t.text.length ≤ 25 := by cases t <;> decide

omit [Server] in
theorem LockScope.length_text_le (t : LockScope) : t.text.length ≤ 25 := by cases t <;> decide

omit [Server] in
theorem Role.length_text_le (t : Role) : t.text.length ≤ 25 := by cases t <;> decide

omit [Server] in
theorem Role.text_mem_roles (t : Role) : t.text ∈ Audit.roles := by cases t <;> decide

omit [Server] in
theorem targetIdOk (target : Option Uuid) :
    (target.map Uuid.text).all (Text.lengthBetween 1 255) = true := by
  cases target with
  | none => rfl
  | some u => simp [Text.lengthBetween, Uuid.length_text]

/-! ## The single writes -/

namespace Store

/-- The unique indexes let an insertion through when the lookups found nothing. -/
theorem insertJob_fails {P : DbError → Prop} {c : Context} {s : Store} {j : Job}
    (hchecks : j.Checked) (hkey : ∀ k ∈ s.jobs, j.sameIdempotencyKey k = false)
    (hscope : ∀ k ∈ s.jobs, j.sameActiveScope k = false)
    (hdiscord : ∀ k ∈ s.jobs, j.sameDiscordIdempotencyKey k = false)
    (huser : j.requester.requestedBy.all c.directory.isConsoleUser = true)
    (hid : ∀ k ∈ s.jobs, k.id = j.id → P (.uniqueViolation "operation_jobs_pkey"))
    (hhost : c.directory.isHost j.hostId = false →
      P (.foreignKeyViolation "operation_jobs_host_id_fkey")) :
    Fails P (s.insertJob c j) := by
  have noneFound {f : Job → Bool} (h : ∀ k ∈ s.jobs, f k = false) (hany : s.jobs.any f = true) :
      ∀ e, P e := by
    obtain ⟨k, hk, hfk⟩ := List.any_eq_true.1 hany
    rw [h k hk] at hfk
    exact nomatch hfk
  refine fails_bind (fails_checkAll_of_forall hchecks) fun _ _ => ?_
  refine fails_bind ?_ fun _ _ => ?_
  · refine fails_bind (fails_raiseIf fun hany => ?_) fun _ _ => ?_
    · obtain ⟨k, hk, heq⟩ := List.any_eq_true.1 hany
      exact hid k hk (of_decide_eq_true heq)
    refine fails_bind (fails_raiseIf fun hany => noneFound hkey hany _) fun _ _ => ?_
    refine fails_bind (fails_raiseIf fun hany => noneFound hscope hany _) fun _ _ => ?_
    exact fails_raiseIf fun hany => noneFound hdiscord hany _
  · refine fails_bind (fails_raiseIf fun hno => hhost ?_) fun _ _ => ?_
    · simpa using hno
    refine fails_bind (fails_raiseIf fun hno => ?_) fun _ _ => fails_pure _
    rw [huser] at hno
    exact nomatch hno

theorem insertEvent_fails {P : DbError → Prop} {c : Context} {e : NewEvent} {s : Store}
    (hdetails : objectOk e.details = true) (hjob : ∃ j ∈ s.jobs, j.id = e.jobId)
    (huser : e.actorUserId.all c.directory.isConsoleUser = true) :
    Fails P (s.insertEvent c e) := by
  refine fails_bind (fails_checkAll_of_forall (by simpa using hdetails)) fun _ _ => ?_
  refine fails_bind (fails_raiseIf fun hno => ?_) fun _ _ => ?_
  · obtain ⟨j, hj, hid⟩ := hjob
    have := List.all_eq_true.1 hno j hj
    exact absurd hid (of_decide_eq_true this)
  · refine fails_bind (fails_raiseIf fun hno => ?_) fun _ _ => fails_pure _
    rw [huser] at hno
    exact nomatch hno

theorem auditLog_fails {P : DbError → Prop} {c : Context} {e : Audit.Entry} {s : Store}
    (he : e.Sound c.directory.isConsoleUser) (h : Audit.WellFormed s.audit)
    (hP : ∀ columns, e.validate c.now = .ok columns →
      ¬ Audit.CollisionFree (Audit.hashedTexts (s.audit.logs ++ [s.audit.newRow columns])) →
      P (.uniqueViolation "audit_logs_entry_hash_key")) :
    Fails P (s.auditLog c e) :=
  fails_bind (he.append_fails h c.now hP) fun _ _ => fails_pure _

end Store

/-! ## Off the unique indexes -/

/-- The error is not one of the unique indexes that guard exclusivity and idempotency. -/
def OffIndexes (e : DbError) : Prop :=
  e ≠ .uniqueViolation "operation_jobs_active_lock_scope_key" ∧
    e ≠ .uniqueViolation "operation_jobs_idempotency_key" ∧
    e ≠ .uniqueViolation "operation_jobs_discord_idempotency_key"

omit [Server] in
theorem offIndexes_raised (message errcode : String) : OffIndexes (.raised message errcode) :=
  ⟨nofun, nofun, nofun⟩

omit [Server] in
theorem offIndexes_check (constraint : String) : OffIndexes (.checkViolation constraint) :=
  ⟨nofun, nofun, nofun⟩

omit [Server] in
theorem offIndexes_foreignKey (constraint : String) :
    OffIndexes (.foreignKeyViolation constraint) :=
  ⟨nofun, nofun, nofun⟩

namespace Store

theorem insertEvent_offIndexes (c : Context) (e : NewEvent) (s : Store) :
    Fails OffIndexes (s.insertEvent c e) := by
  refine fails_bind (fails_checkAll fun _ => offIndexes_check _) fun _ _ => ?_
  refine fails_bind (fails_raiseIf fun _ => offIndexes_foreignKey _) fun _ _ => ?_
  exact fails_bind (fails_raiseIf fun _ => offIndexes_foreignKey _) fun _ _ => fails_pure _

theorem auditLog_offIndexes (c : Context) (e : Audit.Entry) (s : Store) :
    Fails OffIndexes (s.auditLog c e) := by
  refine fails_bind (fails_bind ?_ fun _ _ => ?_) fun _ _ => fails_pure _
  · unfold Audit.Entry.validate
    iterate 5 refine fails_bind (fails_orRaise fun _ => offIndexes_raised _ _) fun _ _ => ?_
    exact fails_pure _
  · refine fails_bind (fails_checkAll fun _ => offIndexes_check _) fun _ _ => ?_
    refine fails_bind (fails_raiseIf fun _ => ⟨nofun, nofun, nofun⟩) fun _ _ => ?_
    exact fails_bind (fails_raiseIf fun _ => offIndexes_foreignKey _) fun _ _ => fails_pure _

/-- **A later version of a row collides with no other row**: it keeps the columns of the indexes,
and it is active only if the row was. -/
theorem uniqueChecks_fails {P : DbError → Prop} {s : Store} (h : s.Invariant) {j j' : Job}
    (hj : j ∈ s.jobs) (hlater : j.Later j') :
    Fails P (uniqueChecks (s.jobs.filter (·.id ≠ j'.id)) j') := by
  have apart {R : Job → Job → Prop} (hcomm : ∀ a b, R a b → R b a) (hp : s.jobs.Pairwise R) {k : Job}
      (hk : k ∈ s.jobs.filter (·.id ≠ j'.id)) : R j k := by
    have : Std.Symm R := ⟨hcomm⟩
    obtain ⟨hk, hne⟩ := List.mem_filter.1 hk
    refine hp.forall hj hk fun heq => of_decide_eq_true hne ?_
    rw [← heq, hlater.id]
  have noneFound {f : Job → Bool} {index : String}
      (hf : ∀ k ∈ s.jobs.filter (·.id ≠ j'.id), f k = false) :
      Fails P (raiseIf ((s.jobs.filter (·.id ≠ j'.id)).any f) (.uniqueViolation index)) := by
    refine fails_raiseIf fun hany => ?_
    obtain ⟨k, hk, hfk⟩ := List.any_eq_true.1 hany
    rw [hf k hk] at hfk
    exact nomatch hfk
  refine fails_bind (noneFound fun k hk => ?_) fun _ _ => ?_
  · exact decide_eq_false (of_decide_eq_true (List.mem_filter.1 hk).2)
  refine fails_bind (noneFound fun k hk => ?_) fun _ _ => ?_
  · exact later_sameIdempotencyKey hlater (.refl k)
      (apart (fun a b hab => by rw [Job.sameIdempotencyKey_comm]; exact hab) h.keys hk)
  refine fails_bind (noneFound fun k hk => ?_) fun _ _ => noneFound fun k hk => ?_
  · exact later_sameActiveScope hlater (.refl k)
      (apart (fun a b hab => by rw [Job.sameActiveScope_comm]; exact hab) h.scopes hk)
  · exact later_sameDiscordIdempotencyKey hlater (.refl k)
      (apart (fun a b hab => by rw [Job.sameDiscordIdempotencyKey_comm]; exact hab) h.discordKeys hk)

theorem updateJob_offIndexes {s : Store} (h : s.Invariant) {j j' : Job} (hj : j ∈ s.jobs)
    (hlater : j.Later j') : Fails OffIndexes (s.updateJob j') := by
  refine fails_bind (fails_checkAll fun _ => offIndexes_check _) fun _ _ => ?_
  exact fails_bind (uniqueChecks_fails h hj hlater) fun _ _ => fails_pure _

end Store

/-! ## Requests -/

/-- The errors a request's own arguments raise. -/
def argumentErrors : List DbError :=
  [.raised "operation_request_required_field_missing" "22023",
    .raised "operation_payload_not_allowed" "22023",
    .raised "operation_idempotency_hash_invalid" "22023",
    .raised "operation_actor_invalid" "42501",
    .raised "operation_type_not_allowed" "22023"]

/-- Why a request aborts. -/
inductive RequestError (c : Context) (s : Store) : DbError → Prop
  | arguments {e : DbError} (h : e ∈ argumentErrors) : RequestError c s e
  | unknownHost {hostId : Uuid} (h : c.directory.isHost hostId = false) :
    RequestError c s (.foreignKeyViolation "operation_jobs_host_id_fkey")
  | uuidInUse {j : Job} (hj : j ∈ s.jobs) (h : j.id = c.genRandomUuid 0) :
    RequestError c s (.uniqueViolation "operation_jobs_pkey")
  | hashCollision {columns : Audit.Columns}
    (h : ¬ Audit.CollisionFree
      (Audit.hashedTexts (s.audit.logs ++ [s.audit.newRow columns]))) :
    RequestError c s (.uniqueViolation "audit_logs_entry_hash_key")

theorem RequestError.offIndexes {c : Context} {s : Store} {e : DbError}
    (h : RequestError c s e) : OffIndexes e := by
  cases h with
  | arguments h =>
    revert e
    simp only [argumentErrors, List.forall_mem_cons]
    exact ⟨offIndexes_raised .., offIndexes_raised .., offIndexes_raised .., offIndexes_raised ..,
      offIndexes_raised .., by simp⟩
  | unknownHost => exact offIndexes_foreignKey _
  | uuidInUse => exact ⟨nofun, nofun, nofun⟩
  | hashCollision => exact ⟨nofun, nofun, nofun⟩

omit [Server] in
theorem Store.existingJob?_eq_none {s : Store} {sameRequester : Requester → Bool} {hostId : Uuid}
    {operationType : OperationType} {keyHash : String}
    (h : s.existingJob? sameRequester hostId operationType keyHash = none) :
    ∀ k ∈ s.jobs, ¬ (sameRequester k.requester = true ∧ k.hostId = hostId ∧
      k.operationType = operationType ∧ k.idempotencyKeyHash = keyHash) := by
  intro k hk
  simpa [and_assoc] using List.find?_eq_none.1 h k hk

omit [Server] in
theorem Store.activeJobs_eq_nil {s : Store} {hostId : Uuid} {scope : LockScope}
    (h : s.activeJobs hostId scope = []) :
    ∀ k ∈ s.jobs, ¬ (k.hostId = hostId ∧ k.lockScope = scope ∧ k.status.active = true) := by
  intro k hk
  simpa [and_assoc] using List.filter_eq_nil_iff.1 h k hk

/-- What a new job has to satisfy for its constraints. -/
theorem newJob_checked {c : Context} {hostId : Uuid} {operationType : OperationType}
    {lockScope : LockScope} {requester : Requester} {role : Role} {keyHash : String}
    {confirmed : Bool} {requestId : Uuid} (hhash : hashOk keyHash = true)
    (hemail : ∀ id e, requester = .consoleUser id e → emailOk e = true)
    (hdiscord : ∀ id, requester = .discord id → discordIdOk id = true) :
    (newJob c hostId operationType lockScope requester role keyHash confirmed requestId).Checked := by
  have hpayload : objectOk emptyObject = true := objectOk_of_safe safeObject_emptyObject
  cases requester with
  | consoleUser id e =>
    simp only [Job.Checked, Job.checks, newJob, List.forall_mem_cons]
    exact ⟨rfl, rfl, hhash, rfl, rfl, hpayload, rfl, hemail id e rfl, rfl, by simp⟩
  | discord id =>
    simp only [Job.Checked, Job.checks, newJob, List.forall_mem_cons]
    exact ⟨rfl, rfl, hhash, rfl, rfl, hpayload, hdiscord id rfl, trivial, rfl, by simp⟩

theorem Directory.mem_of_consoleUser? {d : Directory} {id : Uuid} {u : ConsoleUser}
    (h : d.consoleUser? id = some u) : d.isConsoleUser u.id = true :=
  List.any_eq_true.2 ⟨u, List.mem_of_find?_eq_some h, decide_eq_true rfl⟩

/-! ### Console users -/

/-- What the validation of the arguments leaves behind. -/
structure EnqueueRequest.Valid (c : Context) (r : EnqueueRequest) : Prop where
  user : c.directory.isConsoleUser r.actor.id = true
  keyHash : hashOk r.keyHash = true

theorem EnqueueParams.validate_eq_ok {c : Context} {p : EnqueueParams} {r : EnqueueRequest}
    (h : p.validate c = .ok r) : r.Valid c := by
  simp only [validate, bind_eq_ok, orRaise_eq_ok, pure_eq_ok, Option.filter_eq_some_iff] at h
  obtain ⟨_, _, _, _, _, _, _, _, _, _, keyHash, ⟨_, hhash⟩, actor, ⟨hactor, _⟩, _, _, rfl⟩ := h
  exact ⟨Directory.mem_of_consoleUser? hactor, hhash⟩

theorem EnqueueParams.validate_fails {c : Context} {p : EnqueueParams} {P : DbError → Prop}
    (hP : ∀ e ∈ argumentErrors, P e) : Fails P (p.validate c) := by
  simp only [argumentErrors, List.forall_mem_cons] at hP
  obtain ⟨hmissing, hpayload, hhash, hactor, htype, -⟩ := hP
  unfold validate
  iterate 4 refine fails_bind (fails_orRaise fun _ => hmissing) fun _ _ => ?_
  refine fails_bind (fails_orRaise fun _ => hpayload) fun _ _ => ?_
  refine fails_bind (fails_orRaise fun _ => hhash) fun _ _ => ?_
  refine fails_bind (fails_orRaise fun _ => hactor) fun _ _ => ?_
  exact fails_bind (fails_orRaise fun _ => htype) fun _ _ => fails_pure _

/-- The entries about a request are admissible. -/
theorem EnqueueRequest.sound_entry {c : Context} {r : EnqueueRequest} (h : r.Valid c)
    {action result : String} {target : Option Uuid} {metadata : List (String × Jsonb)}
    (haction : Audit.actionOk action = true) (hresult : result ∈ Audit.results)
    (hlen : metadata.length ≤ 5) (hmetadata : ∀ f ∈ metadata, MetadataField f) :
    (r.entry action target result metadata).Sound c.directory.isConsoleUser where
  requestId := ⟨_, rfl⟩
  action := ⟨_, rfl, haction⟩
  targetType := ⟨_, rfl, by decide⟩
  result := ⟨_, rfl, hresult⟩
  metadata := by
    refine ⟨_, rfl, safeObject_metadata (Nat.succ_le_succ hlen) fun f hf => ?_⟩
    rcases List.mem_cons.1 hf with rfl | hf
    · exact metadataField_str (by decide) r.operationType.length_text_le
    · exact hmetadata f hf
  email := r.actor.email_check
  role := decide_eq_true r.actor.role.text_mem_roles
  targetId := targetIdOk target
  user := h.user

/-- The insertion of a job that none of the lookups found. -/
theorem EnqueueRequest.create_fails {c : Context} {r : EnqueueRequest} {s : Store}
    (hs : s.Invariant) (h : r.Valid c)
    (hkey : s.existingJob? (·.requestedBy = some r.actor.id) r.hostId r.operationType r.keyHash =
      none)
    (hscope : s.activeJobs r.hostId r.operationType.policy.lockScope = []) :
    Fails (RequestError c s) (r.create c s) := by
  have hkey := Store.existingJob?_eq_none hkey
  have hscope := Store.activeJobs_eq_nil hscope
  refine fails_bind ?_ fun s₁ h₁ => ?_
  · refine Store.insertJob_fails ?_ (fun k hk => ?_) (fun k hk => ?_) (fun k hk => rfl) h.user
      (fun k hk hid => .uuidInUse hk hid) fun hhost => .unknownHost hhost
    · refine newJob_checked h.keyHash (fun id e he => ?_) nofun
      obtain ⟨-, rfl⟩ := Requester.consoleUser.inj he
      exact r.actor.email_check
    · have hk := hkey k hk
      rw [← Bool.not_eq_true, Job.sameIdempotencyKey_eq_true]
      rintro ⟨⟨id, hid, hby⟩, hhost, htype, hhash⟩
      exact hk ⟨decide_eq_true (hby.trans hid.symm), hhost.symm, htype.symm, hhash.symm⟩
    · have hk := hscope k hk
      rw [← Bool.not_eq_true, Job.sameActiveScope_eq_true]
      rintro ⟨hhost, hscope, -, hactive⟩
      exact hk ⟨hhost.symm, hscope.symm, hactive⟩
  · obtain ⟨rfl, -, -⟩ := Store.insertJob_eq_ok h₁
    refine fails_bind ?_ fun s₂ h₂ => ?_
    · refine Store.insertEvent_fails ?_ ⟨r.job c, by simp, rfl⟩ h.user
      refine objectOk_of_safe (safeObject_metadata (by simp) fun f hf => ?_)
      rw [List.mem_singleton.1 hf]
      exact metadataField_str (by decide) r.operationType.length_text_le
    · obtain rfl := Store.insertEvent_eq_ok h₂
      refine fails_bind (Store.auditLog_fails ?_ hs.audit fun columns _ hfree => ?_) fun _ _ =>
        fails_pure _
      swap
      · exact .hashCollision (s := s) hfree
      refine r.sound_entry h (by decide) (by decide) (by simp) ?_
      simp only [List.forall_mem_cons]
      exact ⟨metadataField_str (by decide) (JobStatus.length_text_le _),
        metadataField_str (by decide) (LockScope.length_text_le _), by simp⟩

/-- **A console user's request aborts for its arguments, an unknown host or a collision only.** -/
theorem enqueueOperationJob_fails {c : Context} {p : EnqueueParams} {s : Store}
    (hs : s.Invariant) : Fails (RequestError c s) (enqueueOperationJob c p s) := by
  refine fails_bind (EnqueueParams.validate_fails fun e he => .arguments he) fun r hr => ?_
  have h := EnqueueParams.validate_eq_ok hr
  have audited {action result : String} {target : Option Uuid} {metadata : List (String × Jsonb)}
      {answer : EnqueueResult} (haction : Audit.actionOk action = true)
      (hresult : result ∈ Audit.results) (hlen : metadata.length ≤ 5)
      (hmetadata : ∀ f ∈ metadata, MetadataField f) :
      Fails (RequestError c s) (do
        let s ← s.auditLog c (r.entry action target result metadata)
        return (answer, s)) :=
    fails_bind (Store.auditLog_fails (r.sound_entry h haction hresult hlen hmetadata) hs.audit
      fun _ _ => .hashCollision) fun _ _ => fails_pure _
  unfold EnqueueRequest.run EnqueueRequest.deny EnqueueRequest.accept
  split_ifs
  · exact audited (by decide) (by decide) (by decide) (by simp)
  · exact audited (by decide) (by decide) (by decide) (by simp)
  · split
    next j _ =>
      refine audited (by decide) (by decide) (by simp) fun f hf => ?_
      rw [List.mem_singleton.1 hf]
      exact metadataField_str (by decide) j.status.length_text_le
    next hkey =>
      split
      next j _ =>
        refine audited (by decide) (by decide) (by simp) ?_
        simp only [List.forall_mem_cons]
        exact ⟨metadataField_str (by decide) j.operationType.length_text_le,
          metadataField_str (by decide) j.status.length_text_le, by simp⟩
      next hscope => exact r.create_fails hs h hkey (firstBy_eq_none.1 hscope)

/-! ### Discord -/

omit [Server] in
theorem length_le_of_discordIdOk {id : String} (h : discordIdOk id = true) : id.length ≤ 25 := by
  simp only [discordIdOk, Text.lengthBetween, Bool.and_eq_true, decide_eq_true_eq] at h
  omega

/-- The entries about a Discord request are admissible. -/
theorem sound_discordEntry {isConsoleUser : Uuid → Bool} {session : DiscordConsoleSession}
    {requestId : Uuid} {action result : String} {target : Option Uuid}
    {metadata : List (String × Jsonb)} (haction : Audit.actionOk action = true)
    (hresult : result ∈ Audit.results) (hlen : metadata.length ≤ 4)
    (hmetadata : ∀ f ∈ metadata, MetadataField f) :
    (discordEntry session requestId action target result metadata).Sound isConsoleUser where
  requestId := ⟨_, rfl⟩
  action := ⟨_, rfl, haction⟩
  targetType := ⟨_, rfl, by decide⟩
  result := ⟨_, rfl, hresult⟩
  metadata := by
    refine ⟨_, rfl, safeObject_metadata (Nat.succ_le_succ (Nat.succ_le_succ hlen)) ?_⟩
    simp only [List.forall_mem_cons]
    exact ⟨metadataField_str (by decide) (by decide),
      metadataField_str (by decide) (length_le_of_discordIdOk session.user_id_check), hmetadata⟩
  email := rfl
  role := decide_eq_true session.consoleRole.text_mem_roles
  targetId := targetIdOk target
  user := rfl

theorem Denial.metadata_fields {d : Denial} (h : d.reason.length ≤ 25) :
    d.metadata.length ≤ 4 ∧ ∀ f ∈ d.metadata, MetadataField f := by
  have hreason : MetadataField ("reason", .str d.reason) := metadataField_str (by decide) h
  have htype (t : OperationType) : MetadataField ("operationType", .str t.text) :=
    metadataField_str (by decide) t.length_text_le
  have hrole (r : Role) : MetadataField ("requiredRole", .str r.text) :=
    metadataField_str (by decide) r.length_text_le
  obtain ⟨reason, operationType, requiredRole⟩ := d
  cases operationType <;> cases requiredRole <;> simp [metadata, hreason, htype, hrole]

omit [Server] in
theorem length_confirmationDenial {required given : Option String} {reason : String}
    (h : confirmationDenial required given = some reason) : reason.length ≤ 25 := by
  unfold confirmationDenial at h
  split at h <;> split_ifs at h <;> obtain rfl := Option.some.inj h <;> decide

theorem DiscordEnqueueParams.admission_error {c : Context} {session : DiscordConsoleSession}
    {p : DiscordEnqueueParams} {d : Denial} (h : p.admission c session = .error d) :
    d.reason.length ≤ 25 := by
  have key {reason : String} {operationType : Option OperationType} {role : Option Role}
      (h : (Except.error ⟨reason, operationType, role⟩ : Except Denial DiscordRequest) = .error d)
      (hle : reason.length ≤ 25) : d.reason.length ≤ 25 := by
    rw [← Except.error.inj h]
    exact hle
  unfold admission at h
  split at h
  next => exact key h (by decide)
  split at h
  next => exact key h (by decide)
  split at h
  next => exact key h (by decide)
  split at h
  next => exact key h (by decide)
  split at h
  next => exact key h (by decide)
  split at h
  next => exact key h (by decide)
  split at h
  next => exact key h (by decide)
  split at h
  next reason hreason => exact key h (length_confirmationDenial hreason)
  next => exact nomatch h

/-- What the checks of a Discord request leave behind. -/
theorem DiscordEnqueueParams.admission_ok {c : Context} {session : DiscordConsoleSession}
    {p : DiscordEnqueueParams} {r : DiscordRequest} (h : p.admission c session = .ok r) :
    hashOk r.keyHash = true ∧ p.idempotencyKeyHash = some r.keyHash ∧
      p.operationType = some r.operationType.text ∧
      c.directory.enabledHost? mcMainServerId = some r.host := by
  unfold admission at h
  split at h
  next => exact nomatch h
  split at h
  next => exact nomatch h
  next host hhost =>
  split at h
  next => exact nomatch h
  next operationType htype =>
  split at h
  next => exact nomatch h
  split at h
  next => exact nomatch h
  split at h
  next => exact nomatch h
  next keyHash hhash =>
  split at h
  next => exact nomatch h
  split at h
  next => exact nomatch h
  obtain rfl := Except.ok.inj h
  obtain ⟨hkey, hok⟩ := Option.filter_eq_some_iff.1 hhash
  obtain ⟨text, htext, hof⟩ := Option.bind_eq_some_iff.1 htype
  exact ⟨hok, hkey, by rw [htext, OperationType.text_of_ofText? hof], hhost⟩

theorem DiscordRequest.create_fails {c : Context} {session : DiscordConsoleSession}
    {requestId : Uuid} {r : DiscordRequest} {s : Store} (hs : s.Invariant)
    (hhash : hashOk r.keyHash = true)
    (hkey : s.existingJob? (·.discordUserId = some session.discordUserId) r.host.id r.operationType
      r.keyHash = none)
    (hscope : s.activeJobs r.host.id .exclusive = []) :
    Fails (RequestError c s) (r.create c session requestId s) := by
  have hkey := Store.existingJob?_eq_none hkey
  have hscope := Store.activeJobs_eq_nil hscope
  refine fails_bind ?_ fun s₁ h₁ => ?_
  · refine Store.insertJob_fails ?_ (fun k hk => rfl) (fun k hk => ?_) (fun k hk => ?_) rfl
      (fun k hk hid => .uuidInUse hk hid) fun hhost => .unknownHost hhost
    · refine newJob_checked hhash nofun fun id he => ?_
      rw [← Requester.discord.inj he]
      exact session.user_id_check
    · have hk := hscope k hk
      rw [← Bool.not_eq_true, Job.sameActiveScope_eq_true]
      rintro ⟨hhost, hscope, -, hactive⟩
      exact hk ⟨hhost.symm, hscope.symm, hactive⟩
    · have hk := hkey k hk
      rw [← Bool.not_eq_true, Job.sameDiscordIdempotencyKey_eq_true]
      rintro ⟨⟨id, hid, hby⟩, hhost, htype, hhash⟩
      exact hk ⟨decide_eq_true (hby.trans hid.symm), hhost.symm, htype.symm, hhash.symm⟩
  · obtain ⟨rfl, -, -⟩ := Store.insertJob_eq_ok h₁
    refine fails_bind ?_ fun s₂ h₂ => ?_
    · refine Store.insertEvent_fails ?_ ⟨r.job c session requestId, by simp, rfl⟩ rfl
      refine objectOk_of_safe (safeObject_metadata (by simp) fun f hf => ?_)
      rw [List.mem_singleton.1 hf]
      exact metadataField_str (by decide) (by decide)
    · obtain rfl := Store.insertEvent_eq_ok h₂
      refine fails_bind (Store.auditLog_fails ?_ hs.audit fun columns _ hfree => ?_) fun _ _ =>
        fails_pure _
      · refine sound_discordEntry (by decide) (by decide) (by simp) ?_
        simp only [List.forall_mem_cons]
        exact ⟨metadataField_str (by decide) (OperationType.length_text_le _),
          metadataField_str (by decide) (LockScope.length_text_le _),
          metadataField_bool (by decide), by simp⟩
      · exact .hashCollision (s := s) hfree

/-- **A Discord request aborts for its arguments, an unknown host or a collision only.** -/
theorem enqueueDiscordOperationJob_fails {c : Context} {p : DiscordEnqueueParams} {s : Store}
    (hs : s.Invariant) : Fails (RequestError c s) (enqueueDiscordOperationJob c p s) := by
  have denied {session : DiscordConsoleSession} {requestId : Uuid} {d : Denial}
      {answer : EnqueueResult} (h : d.reason.length ≤ 25) :
      Fails (RequestError c s) (do
        let s ← s.auditLog c (discordEntry session requestId "OPERATION_REQUEST_DENIED" none
          "denied" d.metadata)
        return (answer, s)) := by
    obtain ⟨hlen, hfields⟩ := d.metadata_fields h
    exact fails_bind (Store.auditLog_fails
      (sound_discordEntry (by decide) (by decide) hlen hfields) hs.audit
      fun _ _ => .hashCollision) fun _ _ => fails_pure _
  iterate 2 refine fails_bind (fails_orRaise fun _ => .arguments (by decide)) fun _ _ => ?_
  split
  · exact fails_pure _
  · split
    next d hd => exact denied (DiscordEnqueueParams.admission_error hd)
    next r hr =>
      unfold DiscordRequest.accept
      split
      · exact fails_ok _
      next hkey =>
        split
        · exact denied (by decide : "exclusive_conflict".length ≤ 25)
        next hscope =>
          exact r.create_fails hs (DiscordEnqueueParams.admission_ok hr).1 hkey
            (firstBy_eq_none.1 hscope)

/-! ## The other calls -/

theorem TransitionParams.resolve_offIndexes (c : Context) (p : TransitionParams) (s : Store) :
    Fails OffIndexes (p.resolve c s) := by
  have actor (a : ActorType) : Fails OffIndexes (p.resolveActor c a) := by
    cases a
    · exact fails_bind (fails_orRaise fun _ => offIndexes_raised _ _) fun _ _ => fails_pure _
    all_goals exact fails_bind (fails_raiseIf fun _ => offIndexes_raised _ _) fun _ _ => fails_pure _
  have gate (j : Job) (new : JobStatus) (a : ActorType) (u : Option ConsoleUser) :
      Fails OffIndexes (transitionGate c.now j new a u p) := by
    have hactor (b : Bool) : Fails OffIndexes (requireActor b) :=
      fails_raiseIf fun _ => offIndexes_raised _ _
    have hlapsed : Fails OffIndexes (requireLapsed c.now j) :=
      fails_raiseIf fun _ => offIndexes_raised _ _
    unfold transitionGate
    split
    · exact fails_raiseIf fun _ => offIndexes_raised _ _
    · exact fails_bind (hactor _) fun _ _ => hactor _
    · exact hactor _
    · exact hactor _
    · split_ifs
      · exact hlapsed
      · exact hactor _
    · split_ifs
      · exact hlapsed
      · exact hactor _
    · exact fails_bind (hactor _) fun _ _ => hlapsed
    · exact fails_bind (hactor _) fun _ _ => hlapsed
    · exact hactor _
    · exact hactor _
    · exact fails_ok _
  unfold resolve
  iterate 7 refine fails_bind (fails_orRaise fun _ => offIndexes_raised _ _) fun _ _ => ?_
  refine fails_bind (actor _) fun _ _ => ?_
  refine fails_bind (fails_orRaise fun _ => offIndexes_raised _ _) fun _ _ => ?_
  refine fails_bind (fails_raiseIf fun _ => offIndexes_raised _ _) fun _ _ => ?_
  refine fails_bind (fails_orRaise fun _ => offIndexes_raised _ _) fun _ _ => ?_
  refine fails_bind (gate _ _ _ _) fun _ _ => ?_
  iterate 2 refine fails_bind (fails_raiseIf fun _ => offIndexes_raised _ _) fun _ _ => ?_
  exact fails_pure _

theorem RenewParams.resolve_offIndexes (c : Context) (p : RenewParams) (s : Store) :
    Fails OffIndexes (p.resolve c s) := by
  unfold resolve
  iterate 5 refine fails_bind (fails_orRaise fun _ => offIndexes_raised _ _) fun _ _ => ?_
  iterate 3 refine fails_bind (fails_raiseIf fun _ => offIndexes_raised _ _) fun _ _ => ?_
  exact fails_pure _

theorem transitionOperationJob_offIndexes {c : Context} {p : TransitionParams} {s : Store}
    (h : s.Invariant) : Fails OffIndexes (transitionOperationJob c p s) := by
  refine fails_bind (p.resolve_offIndexes c s) fun t ht => fails_bind ?_ fun _ _ => fails_pure _
  have ht := TransitionParams.resolve_eq_ok ht
  refine fails_bind (Store.updateJob_offIndexes h ht.mem (t.later_row ht)) fun _ _ => ?_
  exact fails_bind (Store.insertEvent_offIndexes _ _ _) fun _ _ => Store.auditLog_offIndexes _ _ _

theorem renewOperationJobLease_offIndexes {c : Context} {p : RenewParams} {s : Store}
    (h : s.Invariant) : Fails OffIndexes (renewOperationJobLease c p s) := by
  refine fails_bind (p.resolve_offIndexes c s) fun r hr => fails_bind ?_ fun _ _ => fails_pure _
  have hr := RenewParams.resolve_eq_ok hr
  refine fails_bind (Store.updateJob_offIndexes h hr.mem (r.later_row c.now)) fun _ _ => ?_
  exact fails_bind (Store.insertEvent_offIndexes _ _ _) fun _ _ => Store.auditLog_offIndexes _ _ _

theorem expireLoop_offIndexes {c : Context} {jobs : List Job} {n : ℕ} {s : Store}
    (h : s.Invariant) : Fails OffIndexes (expireLoop c jobs n s) := by
  induction jobs generalizing n s with
  | nil => exact fails_ok _
  | cons j jobs ih =>
    refine fails_bind (transitionOperationJob_offIndexes h) fun r hr => ?_
    exact ih ((changes_of_transition hr).invariant h)

theorem expireStaleOperationJobs_offIndexes {c : Context} {limit : Option ℤ} {s : Store}
    (h : s.Invariant) : Fails OffIndexes (expireStaleOperationJobs c limit s) := by
  refine fails_bind (fails_orRaise fun _ => offIndexes_raised _ _) fun _ _ => ?_
  exact fails_bind (expireLoop_offIndexes h) fun _ _ => fails_pure _

theorem claimMcMainOperationJob_offIndexes {c : Context} {p : ClaimParams} {s : Store}
    (h : s.Invariant) : Fails OffIndexes (claimMcMainOperationJob c p s) := by
  refine fails_bind (fails_raiseIf fun _ => offIndexes_raised _ _) fun _ _ => ?_
  iterate 4 refine fails_bind (fails_orRaise fun _ => offIndexes_raised _ _) fun _ _ => ?_
  refine fails_bind (expireStaleOperationJobs_offIndexes h) fun r hr => ?_
  have h := (changes_of_expireStale hr).invariant h
  unfold claimFrom
  split
  · exact fails_bind (renewOperationJobLease_offIndexes h) fun _ _ => fails_pure _
  · split
    · exact fails_ok _
    · exact fails_bind (transitionOperationJob_offIndexes h) fun _ _ => fails_pure _

theorem transitionMcMainOperationJob_offIndexes {c : Context} {p : McMainTransitionParams}
    {s : Store} (h : s.Invariant) : Fails OffIndexes (transitionMcMainOperationJob c p s) := by
  refine fails_bind ?_ fun _ _ => transitionOperationJob_offIndexes h
  refine fails_bind (fails_raiseIf fun _ => offIndexes_raised _ _) fun _ _ => ?_
  iterate 2 refine fails_bind (fails_orRaise fun _ => offIndexes_raised _ _) fun _ _ => ?_
  refine fails_bind (fails_raiseIf fun _ => offIndexes_raised _ _) fun _ _ => ?_
  refine fails_bind (fails_orRaise fun _ => offIndexes_raised _ _) fun details _ => ?_
  have raise (b : Bool) (message : String) : Fails OffIndexes (raiseIf b (.raised message "22023")) :=
    fails_raiseIf fun _ => offIndexes_raised _ _
  unfold reportGate
  split_ifs
  · exact raise _ _
  · exact fails_bind (raise _ _) fun _ _ => raise _ _
  · exact fails_bind (raise _ _) fun _ _ => raise _ _
  · exact raise _ _
  · exact fails_error (offIndexes_raised _ _)

/-- **No call aborts on an index that guards exclusivity or idempotency.** -/
theorem exec_fails {c : Context} {rpc : Rpc} {s : Store} (h : s.Invariant) :
    Fails OffIndexes (rpc.exec c s) := by
  cases rpc with
  | enqueue p => exact fails_map ((enqueueOperationJob_fails h).mono fun _ => (·.offIndexes))
  | enqueueDiscord p =>
    exact fails_map ((enqueueDiscordOperationJob_fails h).mono fun _ => (·.offIndexes))
  | claim p => exact fails_map (claimMcMainOperationJob_offIndexes h)
  | transition p => exact fails_map (transitionOperationJob_offIndexes h)
  | mcMainTransition p => exact fails_map (transitionMcMainOperationJob_offIndexes h)
  | renew p => exact fails_map (renewOperationJobLease_offIndexes h)
  | expireStale limit => exact fails_map (expireStaleOperationJobs_offIndexes h)

end Operations

end IvrmDashboard

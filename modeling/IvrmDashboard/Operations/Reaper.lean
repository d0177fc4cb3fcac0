import IvrmDashboard.Operations.LapsedLease

/-!
# The reaper

`expire_stale_operation_jobs` selects the jobs whose lease has lapsed and lets
`transition_operation_job` expire one after the other. Both read `clock_timestamp()`: the query for
every row it examines, the transition for itself. `expireStaleOperationJobsAt` keeps these readings
apart; `expireStaleOperationJobs` is the case in which they are all the same. A row is examined
before it is moved, so the second test finds what the first one found, and the batch goes through
(`expire_stale_exact`).
-/

namespace IvrmDashboard.Operations

open Sql

section

variable [Server]

/-! ## The function with all its clock readings -/

/-- The loop over the selected jobs; the `n`-th transition finds the surroundings `c n`. -/
def expireLoopAt (c : ℕ → Context) : List Job → ℕ → Store → Except DbError Store
  | [], _, s => .ok s
  | j :: jobs, n, s => do
    let r ← transitionOperationJob (c n) (expireParams j ((c n).genRandomUuid n)) s
    expireLoopAt c jobs (n + 1) r.2

/-- The jobs whose lease has lapsed; `seen j` is the clock when the query examines the row `j`. -/
def Store.dueJobs (s : Store) (seen : Job → ℤ) : List Job :=
  s.jobs.filter fun j => j.status.held && j.leaseLapsed (seen j)

/-- The jobs the query selects. -/
def Store.selectedJobs (s : Store) (seen : Job → ℤ) (limit : ℕ) : List Job :=
  (orderBy leaseOrder (s.dueJobs seen)).take limit

/-- `expire_stale_operation_jobs` -/
def expireStaleOperationJobsAt (seen : Job → ℤ) (c : ℕ → Context) (limit : Option ℤ) (s : Store) :
    Except DbError (ℕ × Store) := do
  let limit ← orRaise (limit.filter fun n => 1 ≤ n && n ≤ 1000)
    (.raised "operation_expire_limit_invalid" "22023")
  let s' ← expireLoopAt c (s.selectedJobs seen limit.toNat) 0 s
  return ((s.selectedJobs seen limit.toNat).length, s')

theorem expireLoop_eq (c : Context) (jobs : List Job) (n : ℕ) (s : Store) :
    expireLoop c jobs n s = expireLoopAt (fun _ => c) jobs n s := by
  induction jobs generalizing n s with
  | nil => rfl
  | cons j jobs ih =>
    rw [expireLoop, expireLoopAt]
    congr 1
    funext r
    exact ih (n + 1) r.2

/-- One reading for all. -/
theorem expireStaleOperationJobs_eq (c : Context) (limit : Option ℤ) (s : Store) :
    expireStaleOperationJobs c limit s =
      expireStaleOperationJobsAt (fun _ => c.now) (fun _ => c) limit s := by
  rw [expireStaleOperationJobs, expireStaleOperationJobsAt]
  congr 1
  funext limit
  rw [expireLoop_eq]
  rfl

/-! ## One expiry -/

/-- The details of an expiry. -/
def expiryDetails : Jsonb :=
  .buildObject [("errorCode", .str "operation_lease_expired"), ("reason", .str "lease_expired")]

/-- The transition the reaper asks for, resolved. -/
def expiry (j : Job) (requestId : Uuid) : Transition where
  job := j
  newStatus := .expired
  actorType := .system
  actor := none
  requestId := requestId
  details := expiryDetails
  errorCode := some "operation_lease_expired"
  leaseOwner := none
  leaseSeconds := none

/-- The columns of its audit row. -/
def expiryColumns (now : ℤ) (j : Job) (requestId : Uuid) : Audit.Columns where
  requestId := requestId
  actorUserId := none
  actorEmail := none
  actorRole := none
  actorIp := none
  action := "OPERATION_STATUS_CHANGED"
  targetType := "operation_job"
  targetId := some j.id.text
  result := "error"
  metadata := .buildObject
    [("operationType", .str j.operationType.text), ("previousStatus", .str j.status.text),
      ("newStatus", .str "expired"), ("actorType", .str "system")]
  occurredAt := .ofInstant now

theorem safeObject_expiryDetails : safeObject expiryDetails = true := by
  have hcode : Text.lower "errorCode" ∉ sensitiveKeys := by
    rw [Text.lower_eq_of_ascii (by decide)]
    decide
  have hshort : ∀ f ∈ [("errorCode", Jsonb.str "operation_lease_expired"),
      ("reason", Jsonb.str "lease_expired")], Jsonb.ShortField f := by
    simp only [List.forall_mem_cons]
    exact ⟨Jsonb.shortField_str (by decide) (by decide), Jsonb.shortField_str (by decide) (by decide),
      by simp⟩
  simp only [safeObject, Bool.and_eq_true, decide_eq_true_eq, Bool.not_eq_true']
  refine ⟨⟨rfl, Jsonb.octetLength_le_of_short (by decide) hshort⟩, ?_⟩
  refine fieldsContainSensitiveKey_eq_false fun f hf => ?_
  have hf := Jsonb.mem_of_buildObject hf
  simp only [List.mem_cons, List.not_mem_nil, or_false] at hf
  rcases hf with rfl | rfl
  · exact ⟨hcode, rfl⟩
  · exact ⟨metadataKeys_safe "reason" (by decide), rfl⟩

omit [Server] in
theorem detailsErrorCode_expiryDetails :
    detailsErrorCode expiryDetails = some "operation_lease_expired" := by
  decide

/-- The request passes every check while the lease is over. -/
theorem expireParams_resolve {s : Store} (h : s.Invariant) {j : Job} (hj : j ∈ s.jobs)
    (hheld : j.status.held = true) {c : Context} (hlapsed : j.leaseLapsed c.now = true)
    (requestId : Uuid) : (expireParams j requestId).resolve c s = .ok (expiry j requestId) := by
  have hfind := h.job?_eq_some hj
  have hactor : ActorType.ofText? "system" = some .system := by decide
  have hexpired : JobStatus.ofText? "expired" = some .expired := by decide
  have hcode := detailsErrorCode_expiryDetails
  have hcodeOk : errorCodeOk "operation_lease_expired" = true := by decide
  have hsafe := safeObject_expiryDetails
  simp only [expiryDetails] at hcode hsafe
  cases hs : j.status <;> simp [hs, JobStatus.held] at hheld
  all_goals
    simp [TransitionParams.resolve, expireParams, expiry, expiryDetails, bind_eq_ok, Option.filter,
      hsafe, hactor, hexpired, hcode, hcodeOk, hfind, hs, JobStatus.edge,
      TransitionParams.resolveActor, transitionGate, requireActor_eq_ok, requireLapsed_eq_ok,
      hlapsed]
    exact ⟨none, rfl, rfl⟩

theorem expiry_row_checked {j : Job} (hj : j.Checked) (now : ℤ) (requestId : Uuid) :
    ((expiry j requestId).row now).Checked := by
  have hdetails : objectOk expiryDetails = true := objectOk_of_safe safeObject_expiryDetails
  simp only [Job.Checked, Job.checks, List.forall_mem_cons] at hj ⊢
  obtain ⟨-, -, hhash, howner, htime, hpayload, hdiscord, hemail, -, -⟩ := hj
  have hcode : (some "operation_lease_expired").all errorCodeOk = true := by decide
  exact ⟨hcode, rfl, hhash, howner, htime, hpayload, hdiscord, hemail, hdetails, by simp⟩

theorem expiry_entry_sound (isConsoleUser : Uuid → Bool) (j : Job) (requestId : Uuid) :
    (expiry j requestId).entry.Sound isConsoleUser where
  requestId := ⟨_, rfl⟩
  action := ⟨_, rfl, by decide⟩
  targetType := ⟨_, rfl, by decide⟩
  result := ⟨"error", rfl, by decide⟩
  metadata := by
    refine ⟨_, rfl, safeObject_metadata (by simp) ?_⟩
    simp only [List.forall_mem_cons]
    exact ⟨metadataField_str (by decide) (OperationType.length_text_le _),
      metadataField_str (by decide) (JobStatus.length_text_le _),
      metadataField_str (by decide) (JobStatus.length_text_le _),
      metadataField_str (v := ActorType.system.text) (by decide) (by decide), by simp⟩
  email := rfl
  role := rfl
  targetId := targetIdOk (some j.id)
  user := rfl

theorem expiry_entry_validate (now : ℤ) (j : Job) (requestId : Uuid) :
    (expiry j requestId).entry.validate now = .ok (expiryColumns now j requestId) := by
  obtain ⟨m, hm, hsafe⟩ := (expiry_entry_sound (fun _ => true) j requestId).metadata
  obtain rfl := Option.some.inj hm
  simp only [expiry] at hsafe
  have haction : Audit.actionOk "OPERATION_STATUS_CHANGED" = true := by decide
  have htarget : Audit.targetTypeOk "operation_job" = true := by decide
  have hresult : "error" ∈ Audit.results := by decide
  simp only [Audit.Entry.validate, Transition.entry, expiry, Option.filter, haction, htarget,
    hresult, hsafe, or_true, if_true, decide_true]
  rfl

/-- The tables after the expiry of a job. -/
def Store.expired (s : Store) (c : Context) (j : Job) (requestId : Uuid) : Store :=
  s.written c (s.replaceJob ((expiry j requestId).row c.now)) (expiry j requestId).event
    (expiryColumns c.now j requestId)

theorem Transition.write_eq_ok {t : Transition} {c : Context} {s s' : Store}
    {columns : Audit.Columns} (hvalidate : t.entry.validate c.now = .ok columns)
    (h : t.write c s = .ok s') :
    s' = s.written c (s.replaceJob (t.row c.now)) t.event columns := by
  obtain ⟨s₁, h₁, h⟩ := bind_eq_ok.1 h
  obtain ⟨s₂, h₂, h⟩ := bind_eq_ok.1 h
  obtain ⟨⟨id, audit⟩, h₃, h⟩ := bind_eq_ok.1 h
  obtain ⟨rfl, -⟩ := Store.updateJob_eq_ok h₁
  obtain rfl := Store.insertEvent_eq_ok h₂
  obtain ⟨columns', hcolumns, -, rfl⟩ := Audit.appendAuditLog_eq_ok h₃
  obtain rfl := Except.ok.inj (hvalidate.symm.trans hcolumns)
  exact (pure_eq_ok.1 h).symm

/-- **A lapsed job is expired**, unless the digest of its audit row is taken. -/
theorem expiry_commits {s : Store} (h : s.Invariant) {j : Job} (hj : j ∈ s.jobs)
    (hheld : j.status.held = true) {c : Context} (hlapsed : j.leaseLapsed c.now = true)
    {requestId : Uuid}
    (hfree : Audit.CollisionFree (Audit.hashedTexts (s.expired c j requestId).audit.logs)) :
    transitionOperationJob c (expireParams j requestId) s =
      .ok ((j.id, .expired), s.expired c j requestId) := by
  have hresolve := expireParams_resolve h hj hheld hlapsed requestId
  have hrow := expiry_row_checked (h.checked j hj) c.now requestId
  have hlater : j.Later ((expiry j requestId).row c.now) :=
    Transition.later_row (TransitionParams.resolve_eq_ok hresolve)
  have hvalidate := expiry_entry_validate c.now j requestId
  have hfails : Fails (fun _ => False) ((expiry j requestId).write c s) := by
    refine fails_bind ?_ fun s₁ h₁ => ?_
    · refine fails_bind (fails_checkAll_of_forall hrow) fun _ _ => ?_
      exact fails_bind (Store.uniqueChecks_fails h hj hlater) fun _ _ => fails_pure _
    obtain ⟨rfl, -⟩ := Store.updateJob_eq_ok h₁
    refine fails_bind ?_ fun s₂ h₂ => ?_
    · exact Store.insertEvent_fails (objectOk_of_safe safeObject_expiryDetails)
        ⟨_, s.mem_replaceJob_self hj rfl, rfl⟩ rfl
    obtain rfl := Store.insertEvent_eq_ok h₂
    refine Store.auditLog_fails (expiry_entry_sound _ j requestId) h.audit
      fun columns hcolumns hcollision => hcollision ?_
    obtain rfl := Except.ok.inj (hvalidate.symm.trans hcolumns)
    exact hfree
  cases hwrite : (expiry j requestId).write c s with
  | error e => exact (hfails e hwrite).elim
  | ok s' =>
    obtain rfl := Transition.write_eq_ok hvalidate hwrite
    rw [transitionOperationJob, hresolve]
    change ((expiry j requestId).write c s >>= _) = _
    rw [hwrite]
    rfl

/-! ## The batch -/

/-- The tables after the expiry of one job after the other. -/
def Store.reaped (c : ℕ → Context) : List Job → ℕ → Store → Store
  | [], _, s => s
  | j :: jobs, n, s => Store.reaped c jobs (n + 1) (s.expired (c n) j ((c n).genRandomUuid n))

/-- The row an expiry leaves. -/
def Job.expiredRow (now : ℤ) (j : Job) : Job :=
  { j with
    status := .expired
    updatedAt := now
    finishedAt := some now
    errorCode := some "operation_lease_expired"
    resultSummary := some expiryDetails }

/-- The event of an expiry. -/
def Job.expiredEvent (now : ℤ) (id : ℕ) (j : Job) : OperationEvent where
  id := id
  jobId := j.id
  eventType := .expired
  previousStatus := some j.status
  newStatus := .expired
  actorType := .system
  actorUserId := none
  details := expiryDetails
  createdAt := now

/-- What the batch leaves of the row `k`. -/
def leftOf (c : ℕ → Context) : List Job → ℕ → Job → Job
  | [], _, k => k
  | j :: jobs, n, k => if k.id = j.id then j.expiredRow (c n).now else leftOf c jobs (n + 1) k

section

variable {c : ℕ → Context} {jobs : List Job} {n : ℕ} {s : Store}

theorem leftOf_eq_self {k : Job} (h : ∀ j ∈ jobs, k.id ≠ j.id) : leftOf c jobs n k = k := by
  induction jobs generalizing n with
  | nil => rfl
  | cons j jobs ih =>
    rw [leftOf, if_neg (h j List.mem_cons_self)]
    exact ih fun l hl => h l (List.mem_cons_of_mem _ hl)

theorem leftOf_getElem? (hids : jobs.Pairwise fun j k => j.id ≠ k.id) {i : ℕ} {j : Job}
    (hj : jobs[i]? = some j) : leftOf c jobs n j = j.expiredRow (c (n + i)).now := by
  induction jobs generalizing n i with
  | nil => exact nomatch hj
  | cons k jobs ih =>
    obtain ⟨hk, hids⟩ := List.pairwise_cons.1 hids
    cases i with
    | zero =>
      obtain rfl := Option.some.inj hj
      exact if_pos rfl
    | succ i =>
      rw [List.getElem?_cons_succ] at hj
      rw [leftOf, if_neg (hk j (List.mem_of_getElem? hj)).symm, ih hids hj, Nat.add_right_comm]
      rfl

/-- The rows after the batch, one by one. -/
theorem reaped_jobs (hids : jobs.Pairwise fun j k => j.id ≠ k.id) :
    (s.reaped c jobs n).jobs = s.jobs.map (leftOf c jobs n) := by
  induction jobs generalizing n s with
  | nil => exact (List.map_id s.jobs).symm
  | cons j jobs ih =>
    obtain ⟨hj, hids⟩ := List.pairwise_cons.1 hids
    rw [Store.reaped, ih hids]
    change (s.replaceJob (j.expiredRow (c n).now)).map _ = _
    rw [Store.replaceJob, List.map_map]
    refine List.map_congr_left fun k _ => ?_
    change leftOf c jobs (n + 1) (if k.id = j.id then j.expiredRow (c n).now else k) =
      if k.id = j.id then j.expiredRow (c n).now else leftOf c jobs (n + 1) k
    by_cases hid : k.id = j.id
    · rw [if_pos hid, if_pos hid]
      exact leftOf_eq_self hj
    · rw [if_neg hid, if_neg hid]

/-- One event for each job, in the order of the batch. -/
theorem reaped_events : (s.reaped c jobs n).events = s.events ++
    jobs.mapIdx fun i j => j.expiredEvent (c (n + i)).now (s.nextEventId + i) := by
  induction jobs generalizing n s with
  | nil => exact (List.append_nil _).symm
  | cons j jobs ih =>
    have hshift (i : ℕ) : n + 1 + i = n + (i + 1) := by omega
    rw [Store.reaped, ih, List.mapIdx_cons]
    change (s.events ++ [j.expiredEvent (c n).now s.nextEventId]) ++ _ = _
    rw [List.append_assoc, List.singleton_append]
    congr 2
    simp only [hshift]
    refine congrArg (List.mapIdx · jobs) ?_
    funext i k
    change k.expiredEvent _ (s.nextEventId + 1 + i) = _
    rw [Nat.add_assoc, Nat.add_comm 1 i]

/-- One audit row for each job, in the order of the batch. -/
theorem reaped_audit : ∃ rows, (s.reaped c jobs n).audit.logs = s.audit.logs ++ rows ∧
    rows.map (·.toColumns) = jobs.mapIdx fun i j =>
      expiryColumns (c (n + i)).now j ((c (n + i)).genRandomUuid (n + i)) := by
  induction jobs generalizing n s with
  | nil => exact ⟨[], (List.append_nil _).symm, rfl⟩
  | cons j jobs ih =>
    have hshift (i : ℕ) : n + 1 + i = n + (i + 1) := by omega
    obtain ⟨rows, hlogs, hrows⟩ := @ih (n + 1) (s.expired (c n) j ((c n).genRandomUuid n))
    refine ⟨s.audit.newRow (expiryColumns (c n).now j ((c n).genRandomUuid n)) :: rows, ?_, ?_⟩
    · rw [Store.reaped, hlogs]
      exact List.append_assoc ..
    · simp only [hshift] at hrows
      rw [List.map_cons, hrows, List.mapIdx_cons]
      rfl

/-- **The batch goes through**: the lease of every selected job is over when it is moved. -/
theorem expireLoopAt_eq_ok (h : s.Invariant)
    (hjobs : ∀ j ∈ jobs, j ∈ s.jobs ∧ j.status.held = true)
    (hids : jobs.Pairwise fun j k => j.id ≠ k.id)
    (hlapsed : ∀ (i : ℕ) (j : Job), jobs[i]? = some j → j.leaseLapsed (c (n + i)).now = true)
    (hfree : Audit.CollisionFree (Audit.hashedTexts (s.reaped c jobs n).audit.logs)) :
    expireLoopAt c jobs n s = .ok (s.reaped c jobs n) := by
  induction jobs generalizing n s with
  | nil => rfl
  | cons j jobs ih =>
    obtain ⟨hj, hids⟩ := List.pairwise_cons.1 hids
    obtain ⟨hmem, hheld⟩ := hjobs j List.mem_cons_self
    have hfirst : Audit.CollisionFree
        (Audit.hashedTexts (s.expired (c n) j ((c n).genRandomUuid n)).audit.logs) := by
      obtain ⟨rows, hlogs, -⟩ :=
        @reaped_audit _ c jobs (n + 1) (s.expired (c n) j ((c n).genRandomUuid n))
      refine Set.InjOn.mono (fun text htext => ?_) hfree
      rw [Store.reaped, hlogs]
      obtain ⟨r, hr, rfl⟩ := List.mem_map.1 htext
      exact List.mem_map.2 ⟨r, List.mem_append_left _ hr, rfl⟩
    have hnow : j.leaseLapsed (c n).now = true := hlapsed 0 j rfl
    have hcommits := expiry_commits h hmem hheld hnow hfirst
    rw [expireLoopAt, hcommits]
    refine ih ((changes_of_transition hcommits).invariant h) (fun k hk => ?_) hids (fun i k hk => ?_)
      hfree
    · obtain ⟨hkmem, hkheld⟩ := hjobs k (List.mem_cons_of_mem _ hk)
      exact ⟨Store.mem_replaceJob_other hkmem (hj k hk).symm, hkheld⟩
    · rw [Nat.add_right_comm]
      exact hlapsed (i + 1) k hk

end

/-! ## The main result -/

omit [Server] in
theorem leaseOrder_total (j k : Job) : leaseOrder j k = true ∨ leaseOrder k j = true := by
  simp only [leaseOrder, Bool.or_eq_true, Bool.and_eq_true, beq_iff_eq, decide_eq_true_eq]
  omega

omit [Server] in
theorem leaseOrder_trans (j k l : Job) (hjk : leaseOrder j k = true) (hkl : leaseOrder k l = true) :
    leaseOrder j l = true := by
  simp only [leaseOrder, Bool.or_eq_true, Bool.and_eq_true, beq_iff_eq, decide_eq_true_eq] at *
  omega

/-- The call expired the jobs `moved` and did nothing else. -/
structure Expires (c : ℕ → Context) (s : Store) (moved : List Job) (s' : Store) : Prop where
  jobs : ∃ left : Job → Job, s'.jobs = s.jobs.map left ∧ (∀ k ∈ s.jobs, k ∉ moved → left k = k) ∧
    ∀ (i : ℕ) (j : Job), moved[i]? = some j → left j = j.expiredRow (c i).now
  events : s'.events =
    s.events ++ moved.mapIdx fun i j => j.expiredEvent (c i).now (s.nextEventId + i)
  audit : ∃ rows, s'.audit.logs = s.audit.logs ++ rows ∧ rows.map (·.toColumns) =
    moved.mapIdx fun i j => expiryColumns (c i).now j ((c i).genRandomUuid i)

/-- Nothing is left of the leases that had lapsed. -/
structure Released (s : Store) (seen : Job → ℤ) (s' : Store) : Prop where
  running : ∀ k ∈ s'.jobs, k.status.held = true → k.leaseLapsed (seen k) = false
  free : ∀ j ∈ s.dueJobs seen, ∀ k ∈ s'.jobs, k.status.active = true →
    ¬ (k.hostId = j.hostId ∧ k.lockScope = j.lockScope)

omit [Server] in
theorem mem_dueJobs {s : Store} {seen : Job → ℤ} {j : Job} : j ∈ s.dueJobs seen ↔
    j ∈ s.jobs ∧ j.status.held = true ∧ j.leaseLapsed (seen j) = true := by
  rw [Store.dueJobs, List.mem_filter, Bool.and_eq_true]

omit [Server] in
/-- A lease that is over stays over. -/
theorem leaseLapsed_mono {j : Job} {now now' : ℤ} (hle : now ≤ now')
    (h : j.leaseLapsed now = true) : j.leaseLapsed now' = true := by
  obtain ⟨e, he, hlapsed⟩ := (Option.any_eq_true _ _).1 h
  have hlapsed : e ≤ now := of_decide_eq_true hlapsed
  exact (Option.any_eq_true _ _).2 ⟨e, he, decide_eq_true (hlapsed.trans hle)⟩

section

variable {s s' : Store} {seen : Job → ℤ} {c : ℕ → Context} {limit : ℕ}

omit [Server] in
theorem mem_dueJobs_of_selected {j : Job} (h : j ∈ s.selectedJobs seen limit) :
    j ∈ s.dueJobs seen :=
  (mem_orderBy _).1 (List.mem_of_mem_take h)

theorem selectedJobs_ids (h : s.Invariant) :
    (s.selectedJobs seen limit).Pairwise fun j k => j.id ≠ k.id := by
  have hdue : (s.dueJobs seen).Pairwise fun j k => j.id ≠ k.id := h.ids.filter _
  have hsorted := hdue.perm (orderBy_perm leaseOrder).symm fun hjk => hjk.symm
  exact hsorted.sublist (List.take_sublist _ _)

/-- What the batch does, once it goes through. -/
theorem expires_reaped (h : s.Invariant) :
    Expires c s (s.selectedJobs seen limit) (s.reaped c (s.selectedJobs seen limit) 0) := by
  have hids : (s.selectedJobs seen limit).Pairwise fun j k => j.id ≠ k.id := selectedJobs_ids h
  refine ⟨⟨leftOf c _ 0, reaped_jobs hids, fun k hk hnot => ?_, fun i j hj => ?_⟩, ?_, ?_⟩
  · refine leftOf_eq_self fun j hj hid => hnot ?_
    rwa [Store.eq_of_id_eq h.ids hk (mem_dueJobs.1 (mem_dueJobs_of_selected hj)).1 hid]
  · rw [leftOf_getElem? hids hj, Nat.zero_add]
  · rw [reaped_events]
    simp only [Nat.zero_add]
  · obtain ⟨rows, hlogs, hrows⟩ := @reaped_audit _ c (s.selectedJobs seen limit) 0 s
    simp only [Nat.zero_add] at hrows
    exact ⟨rows, hlogs, hrows⟩

/-- After a batch that had room for all of them. -/
theorem released_of_expires (h : s.Invariant) {moved : List Job} (hmoved : Expires c s moved s')
    (hall : ∀ j, j ∈ moved ↔ j ∈ s.dueJobs seen) : Released s seen s' := by
  obtain ⟨left, hjobs, hkept, hleft⟩ := hmoved.jobs
  have hrow {k' : Job} (hk' : k' ∈ s'.jobs) (hactive : k'.status.active = true) :
      k' ∈ s.jobs ∧ k' ∉ moved := by
    rw [hjobs] at hk'
    obtain ⟨k, hk, rfl⟩ := List.mem_map.1 hk'
    by_cases hin : k ∈ moved
    · obtain ⟨i, hi⟩ := List.mem_iff_getElem?.1 hin
      rw [hleft i k hi] at hactive
      exact nomatch hactive
    · rw [hkept k hk hin]
      exact ⟨hk, hin⟩
  constructor
  · intro k hk hheld
    obtain ⟨hmem, hnot⟩ := hrow hk (JobStatus.active_of_held hheld)
    rw [hall, mem_dueJobs] at hnot
    exact Bool.eq_false_iff.2 fun hlapsed => hnot ⟨hmem, hheld, hlapsed⟩
  · rintro j hj k hk hactive ⟨hhost, hscope⟩
    obtain ⟨hmem, hnot⟩ := hrow hk hactive
    obtain ⟨hjmem, hheld, -⟩ := mem_dueJobs.1 hj
    have : Std.Symm fun j k : Job => j.sameActiveScope k = false :=
      ⟨fun a b hab => by rw [Job.sameActiveScope_comm]; exact hab⟩
    have hne : j ≠ k := fun heq => hnot ((hall k).2 (heq ▸ hj))
    have hapart := h.scopes.forall hjmem hmem hne
    rw [← Bool.not_eq_true, Job.sameActiveScope_eq_true] at hapart
    exact hapart ⟨hhost.symm, hscope.symm, JobStatus.active_of_held hheld, hactive⟩

end

/-- **The reaper is exact and does not fail.** In every reachable state, for every limit it admits
and every clock that does not run back between the query and the transitions: the call expires
the first of the jobs that are due, as many as the limit allows, and nothing else; with room for
all of them no lapsed lease is left and their lock scopes are free. The digest must not collide
in the log it leaves. -/
theorem expire_stale_exact (t : ℤ) (calls : List Call) (seen : Job → ℤ) (c : ℕ → Context)
    (limit : ℕ) (hlimit : 1 ≤ limit ∧ limit ≤ 1000)
    (hclock : ∀ (i : ℕ) (j : Job),
      (((World.initial t).run calls).store.selectedJobs seen limit)[i]? = some j →
        seen j ≤ (c i).now)
    (hfree : Audit.CollisionFree (Audit.hashedTexts (((World.initial t).run calls).store.reaped c
      (((World.initial t).run calls).store.selectedJobs seen limit) 0).audit.logs)) :
    ∃ moved s', expireStaleOperationJobsAt seen c (some limit)
        ((World.initial t).run calls).store = .ok (moved.length, s') ∧
      moved.length = min limit (((World.initial t).run calls).store.dueJobs seen).length ∧
      moved.Nodup ∧ (∀ j ∈ moved, j ∈ ((World.initial t).run calls).store.dueJobs seen) ∧
      (∀ j ∈ moved, ∀ k ∈ ((World.initial t).run calls).store.dueJobs seen, k ∉ moved →
        leaseOrder j k = true) ∧
      Expires c ((World.initial t).run calls).store moved s' ∧
      ((((World.initial t).run calls).store.dueJobs seen).length ≤ limit →
        Released ((World.initial t).run calls).store seen s') := by
  have h := invariant_run t calls
  generalize ((World.initial t).run calls).store = s at h hclock hfree
  have hids : (s.selectedJobs seen limit).Pairwise fun j k => j.id ≠ k.id := selectedJobs_ids h
  have hexpires : Expires c s (s.selectedJobs seen limit)
      (s.reaped c (s.selectedJobs seen limit) 0) := expires_reaped h
  refine ⟨s.selectedJobs seen limit, s.reaped c (s.selectedJobs seen limit) 0, ?_, ?_, ?_,
    fun j hj => mem_dueJobs_of_selected hj, fun j hj k hk hnot => ?_, hexpires, fun hroom => ?_⟩
  · have hloop := expireLoopAt_eq_ok (n := 0) h (fun j hj => ?_) hids (fun i j hj => ?_) hfree
    · have hfilter : (some (limit : ℤ)).filter (fun n => 1 ≤ n && n ≤ 1000) = some (limit : ℤ) := by
        simp
        omega
      rw [expireStaleOperationJobsAt, hfilter]
      change (expireLoopAt c (s.selectedJobs seen limit) 0 s >>= _) = _
      rw [hloop]
      rfl
    · obtain ⟨hmem, hheld, -⟩ := mem_dueJobs.1 (mem_dueJobs_of_selected hj)
      exact ⟨hmem, hheld⟩
    · obtain ⟨-, -, hlapsed⟩ := mem_dueJobs.1 (mem_dueJobs_of_selected (List.mem_of_getElem? hj))
      rw [Nat.zero_add]
      exact leaseLapsed_mono (hclock i j hj) hlapsed
  · rw [Store.selectedJobs, List.length_take, length_orderBy]
  · exact hids.imp fun hne heq => hne (congrArg Job.id heq)
  · exact le_of_mem_take_orderBy leaseOrder_total leaseOrder_trans hj hk hnot
  · refine released_of_expires h hexpires fun j => ?_
    rw [Store.selectedJobs, List.take_of_length_le (by rwa [length_orderBy]), mem_orderBy]

end

section

open scoped Sample

/-- The sample job's lease of 15 seconds is over when the reaper comes at 100 seconds. -/
theorem expire_stale_exact_sampleRun :
    ∃ moved s', expireStaleOperationJobsAt (fun _ => 100 * second)
        (fun i => ⟨100 * second + i, sampleDirectory, fun _ => ⟨9⟩⟩) (some (1 : ℕ))
        ((World.initial 0).run sampleRun).store = .ok (moved.length, s') ∧
      moved.length = min 1 (((World.initial 0).run sampleRun).store.dueJobs
        fun _ => 100 * second).length ∧
      moved.Nodup ∧
      (∀ j ∈ moved, j ∈ ((World.initial 0).run sampleRun).store.dueJobs fun _ => 100 * second) ∧
      (∀ j ∈ moved, ∀ k ∈ ((World.initial 0).run sampleRun).store.dueJobs fun _ => 100 * second,
        k ∉ moved → leaseOrder j k = true) ∧
      Expires (fun i => ⟨100 * second + i, sampleDirectory, fun _ => ⟨9⟩⟩)
        ((World.initial 0).run sampleRun).store moved s' ∧
      ((((World.initial 0).run sampleRun).store.dueJobs fun _ => 100 * second).length ≤ 1 →
        Released ((World.initial 0).run sampleRun).store (fun _ => 100 * second) s') := by
  refine expire_stale_exact 0 sampleRun (fun _ => 100 * second) _ 1 ⟨by decide, by decide⟩
    (fun i j _ => ?_) (collisionFree_of_nodup ?_)
  · exact Int.le_add_of_nonneg_right (Int.natCast_nonneg i)
  · decide +kernel

end

end IvrmDashboard.Operations

import IvrmDashboard.Operations.Failures

/-!
# Progress on a lapsed lease

A renewal asks for a lease that still runs; the transitions by which an agent starts its job or
reports a result do not. They compare the owner only, so an agent goes on after the end of its
lease until a reaper has expired the job. `progress_respects_leases_iff` says exactly when every
accepted report comes under a running lease: at the times at which no held job has a lapsed one,
that is, when the reaper is not behind. `starts_after_lease` runs into the gap.
-/

namespace IvrmDashboard.Operations

open Sql

/-- A start of the execution, or a result. -/
def isProgress (expected new : Option String) : Prop :=
  (expected, new) ∈ [(some "leased", some "running"), (some "running", some "succeeded"),
    (some "running", some "failed")]

/-- The call reports progress of the job `id` on behalf of an agent. -/
def ReportsProgress : Rpc → Uuid → Prop
  | .transition p, id =>
    p.jobId = some id ∧ p.actorType = some "agent" ∧ isProgress p.expectedStatus p.newStatus
  | .mcMainTransition p, id => p.jobId = some id ∧ isProgress p.expectedStatus p.newStatus
  | _, _ => False

/-! ## The report of the agent that holds a job -/

/-- The arguments by which the holder of `j` starts it, or reports its success. -/
def progressParams (j : Job) (requestId : Uuid) : TransitionParams where
  jobId := some j.id
  expectedStatus := some j.status.text
  newStatus := some (if j.status = .leased then "running" else "succeeded")
  actorType := some "agent"
  actorUserId := none
  requestId := some requestId
  details := some emptyObject
  leaseOwner := j.leaseOwner
  leaseSeconds := none

section

variable [Server]

/-- The transition they ask for. -/
def progress (j : Job) (requestId : Uuid) : Transition where
  job := j
  newStatus := if j.status = .leased then .running else .succeeded
  actorType := .agent
  actor := none
  requestId := requestId
  details := emptyObject
  errorCode := none
  leaseOwner := j.leaseOwner
  leaseSeconds := none

theorem Store.Invariant.job?_eq_some {s : Store} (h : s.Invariant) {j : Job} (hj : j ∈ s.jobs) :
    s.job? j.id = some j :=
  find?_eq_some_of_unique hj (decide_eq_true rfl) fun _ hk hid =>
    s.eq_of_id_eq h.ids hk hj (of_decide_eq_true hid)

/-- The report passes every check of `transition_operation_job`, whatever the time. -/
theorem progressParams_resolve {s : Store} (h : s.Invariant) {j : Job} (hj : j ∈ s.jobs)
    (hheld : j.status.held = true) (c : Context) (requestId : Uuid) :
    (progressParams j requestId).resolve c s = .ok (progress j requestId) := by
  have hfind := h.job?_eq_some hj
  have hactor : ActorType.ofText? "agent" = some .agent := by decide
  have hrunning : JobStatus.ofText? "running" = some .running := by decide
  have hsucceeded : JobStatus.ofText? "succeeded" = some .succeeded := by decide
  have hcode : detailsErrorCode emptyObject = none := rfl
  cases hs : j.status <;> simp [hs, JobStatus.held] at hheld
  all_goals
    simp [TransitionParams.resolve, progressParams, progress, bind_eq_ok, Option.filter,
      safeObject_emptyObject, hactor, hrunning, hsucceeded, hcode, hfind, hs, JobStatus.edge,
      TransitionParams.resolveActor, transitionGate, requireActor_eq_ok, JobStatus.held]
    exact ⟨none, rfl, rfl⟩

/-- The row it leaves passes its constraints, as the row before did. -/
theorem progress_row_checked {j : Job} (hj : j.Checked) (htracks : j.Tracks)
    (hheld : j.status.held = true) (now : ℤ) (requestId : Uuid) :
    ((progress j requestId).row now).Checked := by
  obtain ⟨hfin, -, hres⟩ := htracks.of_active (JobStatus.active_of_held hheld)
  have hempty : objectOk emptyObject = true := objectOk_of_safe safeObject_emptyObject
  simp only [Job.Checked, Job.checks, List.forall_mem_cons] at hj ⊢
  obtain ⟨herror, -, hhash, howner, htime, hpayload, hdiscord, hemail, -, -⟩ := hj
  cases hs : j.status <;> simp [hs, JobStatus.held] at hheld
  all_goals
    simp only [progress, Transition.row, hs, if_true, reduceCtorEq, if_false, hfin, hres]
    exact ⟨herror, rfl, hhash, howner, htime, hpayload, hdiscord, hemail, by simp [hempty],
      by simp⟩

theorem progress_entry_sound (isConsoleUser : Uuid → Bool) (j : Job) (requestId : Uuid) :
    (progress j requestId).entry.Sound isConsoleUser where
  requestId := ⟨_, rfl⟩
  action := ⟨_, rfl, by decide⟩
  targetType := ⟨_, rfl, by decide⟩
  result := ⟨_, rfl, by split <;> decide⟩
  metadata := by
    refine ⟨_, rfl, safeObject_metadata (by simp) ?_⟩
    simp only [List.forall_mem_cons]
    exact ⟨metadataField_str (by decide) (OperationType.length_text_le _),
      metadataField_str (by decide) (JobStatus.length_text_le _),
      metadataField_str (by decide) (JobStatus.length_text_le _),
      metadataField_str (v := ActorType.agent.text) (by decide) (by decide), by simp⟩
  email := rfl
  role := rfl
  targetId := targetIdOk (some j.id)
  user := rfl

/-- The digest has no collision between the log and the entry of the next report. -/
def FreshProgress (now : ℤ) (s : Store) (j : Job) (requestId : Uuid) : Prop :=
  ∀ columns, (progress j requestId).entry.validate now = .ok columns →
    Audit.CollisionFree (Audit.hashedTexts (s.audit.logs ++ [s.audit.newRow columns]))

/-- **A held job can be moved on at any time**, by a call under the name of its owner. -/
theorem progress_commits {s : Store} (h : s.Invariant) {j : Job} (hj : j ∈ s.jobs)
    (hheld : j.status.held = true) (c : Context) {requestId : Uuid}
    (hfresh : FreshProgress c.now s j requestId) :
    ∃ r s', transitionOperationJob c (progressParams j requestId) s = .ok (r, s') := by
  have hrow := progress_row_checked (h.checked j hj) (h.tracks j hj) hheld c.now requestId
  have hlater : j.Later ((progress j requestId).row c.now) :=
    Transition.later_row (TransitionParams.resolve_eq_ok (progressParams_resolve h hj hheld c requestId))
  have hfails : Fails (fun _ => False) ((progress j requestId).write c s) := by
    refine fails_bind ?_ fun s₁ h₁ => ?_
    · refine fails_bind (fails_checkAll_of_forall hrow) fun _ _ => ?_
      exact fails_bind (Store.uniqueChecks_fails h hj hlater) fun _ _ => fails_pure _
    obtain ⟨rfl, -⟩ := Store.updateJob_eq_ok h₁
    refine fails_bind ?_ fun s₂ h₂ => ?_
    · exact Store.insertEvent_fails (objectOk_of_safe safeObject_emptyObject)
        ⟨_, s.mem_replaceJob_self hj rfl, rfl⟩ rfl
    obtain rfl := Store.insertEvent_eq_ok h₂
    exact Store.auditLog_fails (progress_entry_sound _ j requestId) h.audit
      fun columns hcolumns hcollision => hcollision (hfresh columns hcolumns)
  cases hwrite : (progress j requestId).write c s with
  | error e => exact (hfails e hwrite).elim
  | ok s' =>
    refine ⟨(j.id, (progress j requestId).newStatus), s', ?_⟩
    rw [transitionOperationJob, progressParams_resolve h hj hheld c requestId]
    change ((progress j requestId).write c s >>= _) = _
    rw [hwrite]
    rfl

/-! ## What an accepted report says about the job -/

/-- A report that commits names a held job. -/
theorem held_of_progress {c : Context} {rpc : Rpc} {id : Uuid} {s s' : Store} {reply : Reply}
    (hreports : ReportsProgress rpc id) (hexec : rpc.exec c s = .ok (reply, s')) :
    ∃ j ∈ s.jobs, j.id = id ∧ j.status.held = true := by
  have held {p : TransitionParams} {r : Uuid × JobStatus} (hid : p.jobId = some id)
      (hprogress : isProgress p.expectedStatus p.newStatus)
      (hcall : transitionOperationJob c p s = .ok (r, s')) :
      ∃ j ∈ s.jobs, j.id = id ∧ j.status.held = true := by
    obtain ⟨t, _, ht, -, -, -⟩ := transitionOperationJob_eq_ok hcall
    refine ⟨t.job, ht.mem, Option.some.inj (ht.jobId.symm.trans hid), ?_⟩
    rw [isProgress, ht.expectedStatus, ht.newStatus] at hprogress
    cases hs : t.job.status <;> simp [hs, JobStatus.text] at hprogress <;> rfl
  cases rpc with
  | transition p =>
    obtain ⟨hid, -, hprogress⟩ := hreports
    obtain ⟨⟨r, s₁⟩, hcall, hr⟩ := map_eq_ok.1 hexec
    obtain ⟨-, rfl⟩ := Prod.mk.inj hr
    exact held hid hprogress hcall
  | mcMainTransition p =>
    obtain ⟨hid, hprogress⟩ := hreports
    obtain ⟨⟨r, s₁⟩, hcall, hr⟩ := map_eq_ok.1 hexec
    obtain ⟨-, rfl⟩ := Prod.mk.inj hr
    obtain ⟨_, -, hcall⟩ := bind_eq_ok.1 hcall
    exact held (p := p.transition) hid hprogress hcall
  | _ => exact hreports.elim

/-! ## The main result -/

/-- Every progress report that commits at `now` comes under a lease that still runs. -/
def ProgressRespectsLeases (now : ℤ) (s : Store) : Prop :=
  ∀ (c : Context) (rpc : Rpc) (id : Uuid) (reply : Reply) (s' : Store), c.now = now →
    ReportsProgress rpc id → rpc.exec c s = .ok (reply, s') →
    ∀ j ∈ s.jobs, j.id = id → ∃ e, j.leaseExpiresAt = some e ∧ now < e

/-- **When no agent makes progress on a lapsed lease.** In every reachable state and at every time:
exactly when no job in `leased` or `running` has a lease that has ended, provided the digest does
not keep every report out of the audit log. -/
theorem progress_respects_leases_iff (t : ℤ) (calls : List Call) (now : ℤ)
    (hfresh : ∀ j ∈ ((World.initial t).run calls).store.jobs, ∃ requestId,
      FreshProgress now ((World.initial t).run calls).store j requestId) :
    ProgressRespectsLeases now ((World.initial t).run calls).store ↔
      ∀ j ∈ ((World.initial t).run calls).store.jobs, j.status = .leased ∨ j.status = .running →
        ∀ e, j.leaseExpiresAt = some e → now < e := by
  have h := invariant_run t calls
  generalize ((World.initial t).run calls).store = s at h hfresh
  constructor
  · intro hrespects j hj hstatus e he
    have hheld : j.status.held = true := by rcases hstatus with hs | hs <;> rw [hs] <;> rfl
    obtain ⟨requestId, hfresh⟩ := hfresh j hj
    let c : Context := ⟨now, ⟨[], [], []⟩, fun _ => ⟨0⟩⟩
    obtain ⟨r, s', hcall⟩ := progress_commits h hj hheld c hfresh
    have hreports : ReportsProgress (.transition (progressParams j requestId)) j.id := by
      refine ⟨rfl, rfl, ?_⟩
      simp only [isProgress, progressParams]
      rcases hstatus with hs | hs <;> rw [hs] <;> decide
    have hexec : (Rpc.transition (progressParams j requestId)).exec c s =
        .ok (.transitioned r, s') := by
      rw [Rpc.exec, hcall]
      rfl
    obtain ⟨e', he', hlt⟩ := hrespects c _ j.id _ s' rfl hreports hexec j hj rfl
    rw [he] at he'
    rw [Option.some.inj he']
    exact hlt
  · intro hleases c rpc id reply s' hnow hreports hexec j hj hid
    obtain ⟨k, hk, hkid, hheld⟩ := held_of_progress hreports hexec
    obtain rfl := Store.eq_of_id_eq h.ids hk hj (hkid.trans hid.symm)
    obtain ⟨-, -, e, -, -, he, -⟩ := (h.tracks k hk).lease hheld
    refine ⟨e, he, hleases k hk ?_ e he⟩
    cases hs : k.status <;> simp [hs, JobStatus.held] at hheld <;> simp

/-! ## A start after the end of the lease -/

/-- One second after its request the sample job is leased for 15 seconds. -/
def sampleClaim : Call where
  elapsed := 1000000
  directory := sampleDirectory
  genRandomUuid := fun _ => ⟨8⟩
  lostEventIds := 0
  lostAuditIds := 0
  rpc := .claim {
    serverId := some mcMainServerId
    leaseOwner := some "agent-1"
    requestId := some ⟨4⟩
    leaseSeconds := some 15 }

/-- The agent reports that it starts. -/
def sampleReport : Rpc := .mcMainTransition {
  serverId := some mcMainServerId
  jobId := some ⟨7⟩
  operationType := some "start_backend"
  expectedStatus := some "leased"
  newStatus := some "running"
  leaseOwner := some "agent-1"
  requestId := some ⟨5⟩
  details := some (.buildObject [("phase", .str "executing")]) }

/-- The run that leaves the sample job leased. -/
def sampleRun : List Call := [sampleStart 0, sampleClaim]

theorem collisionFree_of_nodup {texts : List String}
    (h : (texts.map fun s => Server.sha256 s.toUTF8).Nodup) : Audit.CollisionFree texts :=
  fun _ hx _ hy heq => List.inj_on_of_nodup_map h hx hy heq

/-- The digests of a log and of the next report, compared one by one. -/
def digestsApart (now : ℤ) (s : Store) (j : Job) (requestId : Uuid) : Bool :=
  ((progress j requestId).entry.validate now).toOption.all fun columns =>
    ((Audit.hashedTexts (s.audit.logs ++ [s.audit.newRow columns])).map
      fun text => Server.sha256 text.toUTF8).Nodup

theorem freshProgress_of_digestsApart {now : ℤ} {s : Store} {j : Job} {requestId : Uuid}
    (h : digestsApart now s j requestId = true) : FreshProgress now s j requestId := by
  intro columns hcolumns
  rw [digestsApart, hcolumns] at h
  exact collisionFree_of_nodup (of_decide_eq_true h)

end

section

open scoped Sample

theorem progress_respects_leases_iff_sampleRun :
    ProgressRespectsLeases (100 * second) ((World.initial 0).run sampleRun).store ↔
      ∀ j ∈ ((World.initial 0).run sampleRun).store.jobs, j.status = .leased ∨ j.status = .running →
        ∀ e, j.leaseExpiresAt = some e → 100 * second < e := by
  have happart : ((World.initial 0).run sampleRun).store.jobs.all (fun j =>
      digestsApart (100 * second) ((World.initial 0).run sampleRun).store j ⟨6⟩) = true := by
    decide +kernel
  refine progress_respects_leases_iff 0 sampleRun (100 * second) fun j hj => ⟨⟨6⟩, ?_⟩
  exact freshProgress_of_digestsApart (List.all_eq_true.1 happart j hj)

/-- The agent starts the sample job 84 seconds after the end of its lease. -/
theorem starts_after_lease : ¬ ∀ (_ : Server) (t : ℤ) (calls : List Call) (now : ℤ),
    ProgressRespectsLeases now ((World.initial t).run calls).store := by
  intro h
  have hrun : (sampleReport.exec ⟨100 * second, sampleDirectory, fun _ => ⟨9⟩⟩
        ((World.initial 0).run sampleRun).store).map (·.1) =
          .ok (.transitioned (⟨7⟩, .running)) ∧
      ((World.initial 0).run sampleRun).store.jobs.any (fun j =>
        j.id = ⟨7⟩ && j.leaseExpiresAt = some (16 * second)) = true := by decide +kernel
  have h := h sampleServer 0 sampleRun (100 * second)
  generalize ((World.initial 0).run sampleRun).store = s at h hrun
  obtain ⟨hreply, hjob⟩ := hrun
  obtain ⟨⟨reply, s'⟩, hexec, -⟩ := map_eq_ok.1 hreply
  obtain ⟨j, hj, hid⟩ := List.any_eq_true.1 hjob
  simp only [Bool.and_eq_true, decide_eq_true_eq] at hid
  have hreports : ReportsProgress sampleReport ⟨7⟩ := ⟨rfl, List.mem_cons_self⟩
  obtain ⟨e, he, hlt⟩ := h _ sampleReport ⟨7⟩ reply s' rfl hreports hexec j hj hid.1
  rw [hid.2] at he
  obtain rfl := Option.some.inj he
  exact absurd hlt (by decide)

end

end IvrmDashboard.Operations

import Mathlib.Data.List.Pairwise
import IvrmDashboard.Operations.Steps

/-!
# What holds of the tables after every run

`Store.Invariant` collects what the four changes keep: rows with distinct ids, no two of which
collide on a unique index; rows whose lease and result columns fit their status (`Job.Tracks`);
and for each job a log of events that leads from its request to its present status
(`LogLeadsTo`). A change replaces at most one row, and by a later version of itself
(`Job.Later`): the columns that identify the job stay, a job that was started does not wait
again, and one that has ended does not come back.
-/

namespace IvrmDashboard.Operations

open Sql

/-! ## Versions of a row -/

/-- `k` is a later version of the row `j`. -/
structure Job.Later (j k : Job) : Prop where
  id : k.id = j.id
  hostId : k.hostId = j.hostId
  operationType : k.operationType = j.operationType
  lockScope : k.lockScope = j.lockScope
  requester : k.requester = j.requester
  idempotencyKeyHash : k.idempotencyKeyHash = j.idempotencyKeyHash
  waiting : k.status.waiting = true → j.status.waiting = true
  active : k.status.active = true → j.status.active = true

theorem Job.Later.refl (j : Job) : j.Later j :=
  ⟨rfl, rfl, rfl, rfl, rfl, rfl, fun h => h, fun h => h⟩

theorem Job.Later.trans {j k l : Job} (h : j.Later k) (h' : k.Later l) : j.Later l where
  id := h'.id.trans h.id
  hostId := h'.hostId.trans h.hostId
  operationType := h'.operationType.trans h.operationType
  lockScope := h'.lockScope.trans h.lockScope
  requester := h'.requester.trans h.requester
  idempotencyKeyHash := h'.idempotencyKeyHash.trans h.idempotencyKeyHash
  waiting := fun hl => h.waiting (h'.waiting hl)
  active := fun hl => h.active (h'.active hl)

theorem Transition.later_row [Server] {c : Context} {p : TransitionParams} {s : Store}
    {t : Transition} (h : Resolved c p s t) : t.job.Later (t.row c.now) :=
  ⟨rfl, rfl, rfl, rfl, rfl, rfl, JobStatus.waiting_of_edge h.edge,
    fun _ => JobStatus.edge_source h.edge⟩

theorem Renewal.later_row (r : Renewal) (now : ℤ) : r.job.Later (r.row now) :=
  ⟨rfl, rfl, rfl, rfl, rfl, rfl, fun h => h, fun h => h⟩

/-! ## Status and columns -/

/-- The columns of a row that follow its status. -/
structure Job.Tracks (j : Job) : Prop where
  lease : j.status.held = true → ∃ owner l e, j.leaseOwner = some owner ∧
    j.leasedAt = some l ∧ j.leaseExpiresAt = some e ∧ l < e
  noLease : j.status = .queued → j.leaseOwner = none
  finishedAt : j.finishedAt.isSome = j.status.terminal
  errorCode : j.errorCode.isSome = true ↔ j.status = .failed ∨ j.status = .expired
  resultSummary : j.resultSummary.isSome = true ↔
    j.status = .succeeded ∨ j.status = .failed ∨ j.status = .expired

theorem tracks_newJob [Server] (c : Context) (hostId : Uuid) (operationType : OperationType)
    (lockScope : LockScope) (requester : Requester) (role : Role) (keyHash : String)
    (confirmed : Bool) (requestId : Uuid) :
    (newJob c hostId operationType lockScope requester role keyHash confirmed requestId).Tracks :=
  ⟨nofun, fun _ => rfl, rfl, by simp [newJob], by simp [newJob]⟩

theorem lt_add_leaseSeconds {now n : ℤ} (h : leaseSecondsOk n = true) : now < now + n * second := by
  simp only [leaseSecondsOk, Bool.and_eq_true, decide_eq_true_eq] at h
  simp only [second]
  omega

/-- The columns of an active row, before it moves. -/
theorem Job.Tracks.of_active {j : Job} (h : j.Tracks) (ha : j.status.active = true) :
    j.finishedAt = none ∧ j.errorCode = none ∧ j.resultSummary = none := by
  have hf := h.finishedAt
  have he := h.errorCode
  have hr := h.resultSummary
  rw [JobStatus.terminal_eq_not_active, ha] at hf
  refine ⟨by simpa using hf, ?_, ?_⟩
  · rw [← Option.not_isSome_iff_eq_none, he]
    rintro (hs | hs) <;> simp [hs, JobStatus.active] at ha
  · rw [← Option.not_isSome_iff_eq_none, hr]
    rintro (hs | hs | hs) <;> simp [hs, JobStatus.active] at ha

/-- **A transition keeps the columns in step with the status.** -/
theorem Transition.tracks_row [Server] {c : Context} {p : TransitionParams} {s : Store}
    {t : Transition} (h : Resolved c p s t) (hj : t.job.Tracks) : (t.row c.now).Tracks := by
  obtain ⟨hfin, herr, hres⟩ := hj.of_active (JobStatus.edge_source h.edge)
  have hedge := h.edge
  constructor
  · intro hheld
    simp only [row] at hheld ⊢
    cases hn : t.newStatus <;> simp [hn, JobStatus.held] at hheld
    case leased =>
      obtain ⟨-, owner, seconds, howner, -, hseconds, hok⟩ := h.leased hn
      exact ⟨owner, c.now, c.now + seconds * second, by rw [h.leaseOwner, howner], rfl,
        by rw [h.leaseSeconds, hseconds, Option.map_some], lt_add_leaseSeconds hok⟩
    case running =>
      refine hj.lease ?_
      cases hs : t.job.status <;> simp [hs, hn, JobStatus.edge] at hedge
      rfl
  · intro hq
    simp only [row] at hq ⊢
    rw [hq]
  · simp only [row, hfin]
    cases t.newStatus <;> rfl
  · simp only [row, herr]
    cases t.newStatus <;> simp
  · simp only [row, hres]
    cases t.newStatus <;> simp

theorem Job.Checked.leaseTime [Server] {j : Job} (h : j.Checked) :
    leaseTimeOk j.leasedAt j.leaseExpiresAt = true :=
  h ("operation_jobs_lease_time_check", _) (.tail _ (.tail _ (.tail _ (.tail _ (.head _)))))

/-- A renewal keeps the status and a lease that has not ended yet; the constraint on lease times
says that the new end is after the beginning. -/
theorem Renewal.tracks_row [Server] {c : Context} {r : Renewal} (hj : r.job.Tracks)
    (hrow : (r.row c.now).Checked) : (r.row c.now).Tracks where
  lease hheld := by
    obtain ⟨owner, l, e, howner, hl, -, -⟩ := hj.lease hheld
    have htime : leaseTimeOk r.job.leasedAt (some (r.newExpiry c.now)) = true := hrow.leaseTime
    rw [hl] at htime
    exact ⟨owner, l, r.newExpiry c.now, howner, hl, rfl, by simpa [leaseTimeOk] using htime⟩
  noLease := hj.noLease
  finishedAt := hj.finishedAt
  errorCode := hj.errorCode
  resultSummary := hj.resultSummary

/-! ## The event log of a job -/

/-- A log that leads from the request of a job to the status `st`. -/
inductive LogLeadsTo : List OperationEvent → JobStatus → Prop
  | requested {e : OperationEvent} (htype : e.eventType = .requested)
    (hprev : e.previousStatus = none) (hnew : e.newStatus = .queued) : LogLeadsTo [e] .queued
  | moved {es : List OperationEvent} {st : JobStatus} {e : OperationEvent} (h : LogLeadsTo es st)
    (htype : e.eventType = e.newStatus.eventType) (hprev : e.previousStatus = some st)
    (hedge : st.edge e.newStatus = true) : LogLeadsTo (es ++ [e]) e.newStatus
  | renewed {es : List OperationEvent} {st : JobStatus} {e : OperationEvent} (h : LogLeadsTo es st)
    (htype : e.eventType = .leaseRenewed) (hprev : e.previousStatus = some st)
    (hnew : e.newStatus = st) (hheld : st.held = true) : LogLeadsTo (es ++ [e]) st

/-- The events of a job, in the order of their ids. -/
def Store.jobEvents (s : Store) (id : Uuid) : List OperationEvent :=
  s.events.filter (·.jobId = id)

/-! ## The invariant -/

/-- What every change keeps. -/
structure Store.Invariant [Server] (s : Store) : Prop where
  ids : s.jobs.Pairwise fun j k => j.id ≠ k.id
  scopes : s.jobs.Pairwise fun j k => j.sameActiveScope k = false
  keys : s.jobs.Pairwise fun j k => j.sameIdempotencyKey k = false
  discordKeys : s.jobs.Pairwise fun j k => j.sameDiscordIdempotencyKey k = false
  checked : ∀ j ∈ s.jobs, j.Checked
  tracks : ∀ j ∈ s.jobs, j.Tracks
  logs : ∀ j ∈ s.jobs, LogLeadsTo (s.jobEvents j.id) j.status
  owned : ∀ e ∈ s.events, ∃ j ∈ s.jobs, j.id = e.jobId
  eventIds : s.events.Pairwise fun e f => e.id < f.id
  eventIds_lt : ∀ e ∈ s.events, e.id < s.nextEventId
  audit : Audit.WellFormed s.audit

/-! ### Replacing a row -/

section Replace

variable {s : Store} {j j' : Job}

theorem Store.mem_replaceJob {k : Job} (h : k ∈ s.replaceJob j') :
    k = j' ∨ (k ∈ s.jobs ∧ k.id ≠ j'.id) := by
  obtain ⟨l, hl, rfl⟩ := List.mem_map.1 h
  split_ifs with hid
  · exact .inl rfl
  · exact .inr ⟨hl, hid⟩

theorem Store.eq_of_id_eq (hids : s.jobs.Pairwise fun j k => j.id ≠ k.id) {j k : Job}
    (hj : j ∈ s.jobs) (hk : k ∈ s.jobs) (h : j.id = k.id) : j = k := by
  have : Std.Symm fun j k : Job => j.id ≠ k.id := ⟨fun _ _ h => h.symm⟩
  by_contra hne
  exact hids.forall hj hk hne h

/-- The place of a row after the replacement. -/
theorem Store.replaced_later (hids : s.jobs.Pairwise fun j k => j.id ≠ k.id) (hj : j ∈ s.jobs)
    (h : j.Later j') {k : Job} (hk : k ∈ s.jobs) :
    k.Later (if k.id = j'.id then j' else k) := by
  split_ifs with hid
  · rw [s.eq_of_id_eq hids hk hj (hid.trans h.id)]
    exact h
  · exact .refl k

/-- A collision of two later versions is one of the rows themselves. -/
theorem Store.pairwise_replaceJob {R : Job → Job → Prop}
    (hR : ∀ a b a' b', a.Later a' → b.Later b' → R a b → R a' b')
    (hids : s.jobs.Pairwise fun j k => j.id ≠ k.id) (hj : j ∈ s.jobs) (h : j.Later j')
    (hp : s.jobs.Pairwise R) : (s.replaceJob j').Pairwise R := by
  refine List.pairwise_map.2 (hp.imp_of_mem fun ha hb hab => ?_)
  exact hR _ _ _ _ (s.replaced_later hids hj h ha) (s.replaced_later hids hj h hb) hab

end Replace

theorem later_id {a b a' b' : Job} (ha : a.Later a') (hb : b.Later b') (h : a.id ≠ b.id) :
    a'.id ≠ b'.id := by
  rw [ha.id, hb.id]
  exact h

theorem later_sameActiveScope {a b a' b' : Job} (ha : a.Later a') (hb : b.Later b')
    (h : a.sameActiveScope b = false) : a'.sameActiveScope b' = false := by
  rw [← Bool.not_eq_true] at h ⊢
  simp only [Job.sameActiveScope, Bool.and_eq_true, decide_eq_true_eq, ha.hostId, hb.hostId,
    ha.lockScope, hb.lockScope] at h ⊢
  rintro ⟨⟨hkey, haa⟩, hba⟩
  exact h ⟨⟨hkey, ha.active haa⟩, hb.active hba⟩

theorem Job.sameActiveScope_comm (j k : Job) : j.sameActiveScope k = k.sameActiveScope j := by
  simp only [sameActiveScope, eq_comm, Bool.and_right_comm]

theorem Job.sameIdempotencyKey_comm (j k : Job) :
    j.sameIdempotencyKey k = k.sameIdempotencyKey j := by
  simp only [sameIdempotencyKey, eq_comm, eq_swap j.requester.requestedBy]

theorem Job.sameDiscordIdempotencyKey_comm (j k : Job) :
    j.sameDiscordIdempotencyKey k = k.sameDiscordIdempotencyKey j := by
  simp only [sameDiscordIdempotencyKey, eq_comm, eq_swap j.requester.discordUserId]

theorem later_sameIdempotencyKey {a b a' b' : Job} (ha : a.Later a') (hb : b.Later b')
    (h : a.sameIdempotencyKey b = false) : a'.sameIdempotencyKey b' = false := by
  simpa only [Job.sameIdempotencyKey, ha.hostId, hb.hostId, ha.operationType, hb.operationType,
    ha.requester, hb.requester, ha.idempotencyKeyHash, hb.idempotencyKeyHash] using h

theorem later_sameDiscordIdempotencyKey {a b a' b' : Job} (ha : a.Later a') (hb : b.Later b')
    (h : a.sameDiscordIdempotencyKey b = false) : a'.sameDiscordIdempotencyKey b' = false := by
  simpa only [Job.sameDiscordIdempotencyKey, ha.hostId, hb.hostId, ha.operationType,
    hb.operationType, ha.requester, hb.requester, ha.idempotencyKeyHash,
    hb.idempotencyKeyHash] using h

/-! ### The events after a change -/

section

variable [Server]

/-- One more event for the job `id`: its log grows by that event. -/
theorem jobEvents_written_self {s : Store} {c : Context} {jobs : List Job} {e : Store.NewEvent}
    {columns : Audit.Columns} {id : Uuid} (h : e.jobId = id) :
    (s.written c jobs e columns).jobEvents id = s.jobEvents id ++ [s.eventRow c.now e] := by
  simp [Store.jobEvents, Store.written, Store.eventRow, h]

/-- The log of any other job stays. -/
theorem jobEvents_written_other {s : Store} {c : Context} {jobs : List Job} {e : Store.NewEvent}
    {columns : Audit.Columns} {id : Uuid} (h : e.jobId ≠ id) :
    (s.written c jobs e columns).jobEvents id = s.jobEvents id := by
  simp [Store.jobEvents, Store.written, Store.eventRow, h]

theorem eventIds_written {s : Store} (h : s.Invariant) (c : Context) (jobs : List Job)
    (e : Store.NewEvent) (columns : Audit.Columns) :
    (s.written c jobs e columns).events.Pairwise fun e f => e.id < f.id := by
  refine List.pairwise_append.2 ⟨h.eventIds, List.pairwise_singleton .., fun f hf g hg => ?_⟩
  rw [List.mem_singleton.1 hg]
  exact h.eventIds_lt f hf

theorem eventIds_lt_written {s : Store} (h : s.Invariant) (c : Context) (jobs : List Job)
    (e : Store.NewEvent) (columns : Audit.Columns) :
    ∀ f ∈ (s.written c jobs e columns).events,
      f.id < (s.written c jobs e columns).nextEventId := by
  intro f hf
  rcases List.mem_append.1 hf with hf | hf
  · exact Nat.lt_succ_of_lt (h.eventIds_lt f hf)
  · rw [List.mem_singleton.1 hf]
    exact Nat.lt_succ_self _

/-- A row replaced by a later version, with one event about it that its log admits. -/
theorem Store.Invariant.replace {s : Store} (h : s.Invariant) {c : Context} {j j' : Job}
    {e : Store.NewEvent} (columns : Audit.Columns) (hj : j ∈ s.jobs) (hlater : j.Later j')
    (hchecked : j'.Checked) (htracks : j'.Tracks) (hjobId : e.jobId = j'.id)
    (hlog : LogLeadsTo (s.jobEvents j.id ++ [s.eventRow c.now e]) j'.status) :
    (s.written c (s.replaceJob j') e columns).Invariant where
  ids := s.pairwise_replaceJob (fun _ _ _ _ => later_id) h.ids hj hlater h.ids
  scopes := s.pairwise_replaceJob (fun _ _ _ _ => later_sameActiveScope) h.ids hj hlater h.scopes
  keys := s.pairwise_replaceJob (fun _ _ _ _ => later_sameIdempotencyKey) h.ids hj hlater h.keys
  discordKeys :=
    s.pairwise_replaceJob (fun _ _ _ _ => later_sameDiscordIdempotencyKey) h.ids hj hlater
      h.discordKeys
  checked := by
    intro k hk
    rcases s.mem_replaceJob hk with rfl | ⟨hk, -⟩
    · exact hchecked
    · exact h.checked k hk
  tracks := by
    intro k hk
    rcases s.mem_replaceJob hk with rfl | ⟨hk, -⟩
    · exact htracks
    · exact h.tracks k hk
  logs := by
    intro k hk
    rcases s.mem_replaceJob hk with rfl | ⟨hk, hne⟩
    · rw [jobEvents_written_self hjobId, hlater.id]
      exact hlog
    · rw [jobEvents_written_other (by rw [hjobId]; exact hne.symm)]
      exact h.logs k hk
  owned := by
    intro f hf
    have hold : ∃ k ∈ s.jobs, k.id = f.jobId := by
      rcases List.mem_append.1 hf with hf | hf
      · exact h.owned f hf
      · rw [List.mem_singleton.1 hf]
        exact ⟨j, hj, by rw [Store.eventRow, hjobId, hlater.id]⟩
    obtain ⟨k, hk, hid⟩ := hold
    exact ⟨_, List.mem_map_of_mem hk, by rw [(s.replaced_later h.ids hj hlater hk).id, hid]⟩
  eventIds := eventIds_written h c _ e columns
  eventIds_lt := eventIds_lt_written h c _ e columns
  audit := h.audit.push columns c.now

/-- A new job with its first event. -/
theorem Store.Invariant.insert {s : Store} (h : s.Invariant) {c : Context} {j : Job}
    {e : Store.NewEvent} (columns : Audit.Columns) (hnew : Requested c s j e) :
    (s.written c (s.jobs ++ [j]) e columns).Invariant := by
  have hfresh := hnew.fresh
  obtain ⟨hostId, operationType, lockScope, requester, role, keyHash, confirmed, requestId, hshape⟩ :=
    hnew.shape
  have hnone : s.jobEvents j.id = [] := by
    rw [Store.jobEvents, List.filter_eq_nil_iff]
    intro f hf hid
    obtain ⟨k, hk, hkf⟩ := h.owned f hf
    exact (hfresh k hk).1 (hkf.trans (of_decide_eq_true hid))
  have append {R : Job → Job → Prop} (hp : s.jobs.Pairwise R) (hR : ∀ k ∈ s.jobs, R k j) :
      (s.jobs ++ [j]).Pairwise R := by
    refine List.pairwise_append.2 ⟨hp, List.pairwise_singleton .., fun k hk l hl => ?_⟩
    rw [List.mem_singleton.1 hl]
    exact hR k hk
  constructor
  · exact append h.ids fun k hk => (hfresh k hk).1
  · exact append h.scopes fun k hk => by
      rw [Job.sameActiveScope_comm]
      exact (hfresh k hk).2.2.1
  · exact append h.keys fun k hk => by
      rw [Job.sameIdempotencyKey_comm]
      exact (hfresh k hk).2.1
  · exact append h.discordKeys fun k hk => by
      rw [Job.sameDiscordIdempotencyKey_comm]
      exact (hfresh k hk).2.2.2
  · intro k hk
    rcases List.mem_append.1 hk with hk | hk
    · exact h.checked k hk
    · rw [List.mem_singleton.1 hk]
      exact hnew.checked
  · intro k hk
    rcases List.mem_append.1 hk with hk | hk
    · exact h.tracks k hk
    · rw [List.mem_singleton.1 hk, hshape]
      exact tracks_newJob ..
  · intro k hk
    rcases List.mem_append.1 hk with hk | hk
    · rw [jobEvents_written_other (by rw [hnew.jobId]; exact ((hfresh k hk).1).symm)]
      exact h.logs k hk
    · rw [List.mem_singleton.1 hk, jobEvents_written_self hnew.jobId, hnone, hshape]
      exact .requested hnew.eventType hnew.previousStatus hnew.newStatus
  · intro f hf
    rcases List.mem_append.1 hf with hf | hf
    · obtain ⟨k, hk, hkf⟩ := h.owned f hf
      exact ⟨k, List.mem_append_left _ hk, hkf⟩
    · rw [List.mem_singleton.1 hf]
      exact ⟨j, List.mem_append_right _ (List.mem_singleton.2 rfl), hnew.jobId.symm⟩
  · exact eventIds_written h c _ e columns
  · exact eventIds_lt_written h c _ e columns
  · exact h.audit.push columns c.now

/-- **Every change keeps the invariant.** -/
theorem Store.Invariant.change {s s' : Store} (h : s.Invariant) {c : Context}
    {Q : TransitionParams → Prop} (hchange : Change c Q s s') : s'.Invariant := by
  cases hchange with
  | audited columns => exact { h with audit := h.audit.push columns.toColumns c.now }
  | requested columns hnew => exact h.insert columns.toColumns hnew
  | @moved p t columns _ ht hrow =>
    refine h.replace columns.toColumns ht.mem (t.later_row ht) hrow (t.tracks_row ht (h.tracks _ ht.mem)) rfl
      ?_
    exact .moved (h.logs _ ht.mem) rfl rfl ht.edge
  | @renewed p r columns hr hrow =>
    refine h.replace columns.toColumns hr.mem (r.later_row c.now) hrow
      (r.tracks_row (h.tracks _ hr.mem) hrow) rfl ?_
    exact .renewed (h.logs _ hr.mem) rfl rfl rfl hr.held

theorem invariant_initial (t : ℤ) : (Store.initial t).Invariant where
  ids := .nil
  scopes := .nil
  keys := .nil
  discordKeys := .nil
  checked := by simp [Store.initial]
  tracks := by simp [Store.initial]
  logs := by simp [Store.initial]
  owned := by simp [Store.initial]
  eventIds := .nil
  eventIds_lt := by simp [Store.initial]
  audit := Audit.wellFormed_initial t

theorem Store.Invariant.before {w : World} (h : w.store.Invariant) (call : Call) :
    (w.before call).Invariant :=
  { h with
    eventIds_lt := fun e he => Nat.lt_add_right _ (h.eventIds_lt e he)
    audit := h.audit.apply (.lostIds call.lostAuditIds) }

/-- **The invariant holds after every run.** -/
theorem invariant_run (t : ℤ) (calls : List Call) : ((World.initial t).run calls).store.Invariant :=
  World.run_induction (P := fun _ s => s.Invariant) (fun _ call h => h.before call)
    (fun _ _ _ _ h hchange => h.change hchange) (invariant_initial t) calls

end

end IvrmDashboard.Operations

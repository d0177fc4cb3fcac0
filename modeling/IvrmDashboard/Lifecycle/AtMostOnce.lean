import IvrmDashboard.Lifecycle.System

/-!
# Lifecycle actions happen at most once

`lifecycle_at_most_once`: however the worker crashes and messages are lost, the request file of a
job is published at most once, its action executed at most once, and a job that succeeded was
executed with a good result.

The first half counts the *credit* of a job: its publications, and one more while the worker is on
its way to publish it. A worker gets on that way by the answer to its own report that the job
runs, and that report is accepted only while the job waits, which it never does again. So the
credit is at most one, and is zero as long as the job waits (`Once`). The second half follows the
word `succeeded` back to the result it was concluded from (`Backed`).
-/

namespace IvrmDashboard.Lifecycle

open Sql Operations

/-! ## What calls do to the jobs -/

/-- The job `id` was started. -/
def Started (s : Store) (id : Uuid) : Prop := ∃ j ∈ s.jobs, j.id = id ∧ j.status.waiting = false

section

variable [Server] {c : Context} {s s' : Store}

theorem Started.changes {Q : TransitionParams → Prop} {id : Uuid} (hs : Started s id)
    (h : s.Invariant) (hchain : Changes c Q s s') : Started s' id := by
  obtain ⟨j, hj, hid, hstarted⟩ := hs
  obtain ⟨k, hk, hlater⟩ := hchain.later h j hj
  refine ⟨k, hk, hlater.id.trans hid, ?_⟩
  rw [← Bool.not_eq_true] at hstarted ⊢
  exact fun hwaiting => hstarted (hlater.waiting hwaiting)

/-- A job reported to run was waiting, and is started now. -/
theorem started_of_report {p : McMainTransitionParams} {r : Uuid × JobStatus} (h : s.Invariant)
    (hreport : transitionMcMainOperationJob c p s = .ok (r, s')) (hrunning : r.2 = .running) :
    ¬ Started s r.1 ∧ Started s' r.1 := by
  obtain ⟨-, -, hreport⟩ := bind_eq_ok.1 hreport
  obtain ⟨t, columns, ht, -, rfl, rfl⟩ := transitionOperationJob_eq_ok hreport
  have hedge := ht.edge
  simp only at hrunning
  rw [hrunning] at hedge
  constructor
  · rintro ⟨j, hj, hid, hstarted⟩
    obtain rfl := s.eq_of_id_eq h.ids hj ht.mem hid
    cases hs : t.job.status <;> simp [hs, JobStatus.edge, JobStatus.waiting] at hedge hstarted
  · refine ⟨t.row c.now, s.mem_replaceJob_self ht.mem rfl, rfl, ?_⟩
    rw [show (t.row c.now).status = t.newStatus from rfl, hrunning]
    rfl

/-- A report makes a job succeed only in so many words, and under the action of the job. -/
theorem succeeded_of_report {p : McMainTransitionParams} {r : Uuid × JobStatus} (h : s.Invariant)
    (hreport : transitionMcMainOperationJob c p s = .ok (r, s')) {k : Job} (hk : k ∈ s'.jobs)
    (hsucceeded : k.status = .succeeded) :
    k ∈ s.jobs ∨ (p.newStatus = some "succeeded" ∧ p.jobId = some k.id ∧
      ∀ action, p.operationType = some action → k.operationType.text = action) := by
  obtain ⟨_, hvalid, hreport⟩ := bind_eq_ok.1 hreport
  obtain ⟨t, columns, ht, -, -, rfl⟩ := transitionOperationJob_eq_ok hreport
  rcases s.mem_replaceJob hk with rfl | ⟨hk, -⟩
  · refine .inr ⟨?_, ht.jobId, fun action haction => ?_⟩
    · rw [show p.newStatus = some t.newStatus.text from ht.newStatus]
      rw [show t.newStatus = .succeeded from hsucceeded]
      rfl
    · simp only [McMainTransitionParams.validate, bind_eq_ok, orRaise_eq_ok, raiseIf_eq_ok,
        haction] at hvalid
      obtain ⟨-, -, host, -, job, hjob, -, hmatch, -⟩ := hvalid
      rw [show p.jobId = some t.job.id from ht.jobId, Option.bind_some] at hjob
      obtain ⟨hmem, hid⟩ := Store.job?_eq_some hjob
      obtain rfl := s.eq_of_id_eq h.ids hmem ht.mem hid
      rw [Tri.holds_or, holds_ne_some, Bool.or_eq_false_iff, decide_eq_false_iff_not,
        not_not] at hmatch
      exact hmatch.2
  · exact .inl hk

/-- Other calls leave the jobs that succeeded as they were. -/
theorem succeeded_of_changes {Q : TransitionParams → Prop}
    (hQ : ∀ p, Q p → p.actorType = some "agent" → p.newStatus ≠ some "succeeded")
    (hchain : Changes c Q s s') : ∀ k ∈ s'.jobs, k.status = .succeeded →
      ∃ j ∈ s.jobs, j.status = .succeeded ∧ j.id = k.id ∧ j.operationType = k.operationType := by
  induction hchain with
  | refl => exact fun k hk hs => ⟨k, hk, hs, rfl, rfl⟩
  | @tail s₁ s₂ _ hlast ih =>
    intro k hk hsucceeded
    cases hlast with
    | audited columns => exact ih k hk hsucceeded
    | requested columns hnew =>
      rcases List.mem_append.1 hk with hk | hk
      · exact ih k hk hsucceeded
      · obtain ⟨_, _, _, _, _, _, _, _, hshape⟩ := hnew.shape
        rw [List.mem_singleton.1 hk, hshape] at hsucceeded
        cases hsucceeded
    | @moved p t columns hp ht _ =>
      rcases Store.mem_replaceJob hk with rfl | ⟨hk, -⟩
      · have hnew : t.newStatus = .succeeded := hsucceeded
        have hheld : t.job.status.held = true := by
          have hedge := ht.edge
          rw [hnew] at hedge
          cases hs : t.job.status <;> simp [hs, JobStatus.edge] at hedge
          rfl
        refine absurd ?_ (hQ p hp ?_)
        · rw [ht.newStatus, hnew]
          rfl
        · rw [ht.actorType, ht.agent hheld (.inr hnew)]
          rfl
      · exact ih k hk hsucceeded
    | @renewed p r columns hr _ =>
      rcases Store.mem_replaceJob hk with rfl | ⟨hk, -⟩
      · have hheld := hr.held
        rw [show r.job.status = .succeeded from hsucceeded] at hheld
        cases hheld
      · exact ih k hk hsucceeded

end

/-! ## What a step of the worker does -/

/-- The worker has been told that the job `id` runs, and has not published it yet. -/
def WorkerState.mayPublish (answers : List (ℕ × AgentAnswer)) (id : Uuid) : WorkerState → Bool
  | .started job n => job.jobId = id && (n, .transitioned id "running") ∈ answers
  | .probing job publish | .probingResult job publish => job.jobId = id && publish
  | .linking job => job.jobId = id
  | _ => false

/-- A result that shows the action of a job to have ended well. -/
def Achieves (id : Uuid) (action : String) (d : ExecutorResult) : Prop :=
  d.jobId = id.text ∧ d.action = action ∧ d.ok = true ∧ d.phase = expectedPhase action

/-- What one step of the worker does. -/
inductive WorkerMove (w : System) : System → Prop
  | stays : WorkerMove w w
  | moves (s : WorkerState)
    (hpublish : ∀ id, s.mayPublish w.answers id = true →
      w.worker.mayPublish w.answers id = true)
    (hconclude : ∀ job report, s = .concluding job report → report.newStatus = "succeeded" →
      ∃ f, w.ipc.results job.jobId = some f ∧ Achieves job.jobId job.action f.document) :
    WorkerMove w { w with worker := s }
  | sends (r : AgentRequest) (s : WorkerState) (hawaits : s.awaits = some w.sent.length)
    (hreport : ∀ b, r = .transition b → b.newStatus = "succeeded" →
      ∃ job report, w.worker = .concluding job report ∧ report.newStatus = "succeeded" ∧
        b.jobId = job.jobId ∧ b.action = job.action) :
    WorkerMove w { w with sent := w.sent ++ [r], worker := s }
  | removes (id : Uuid) (fails : Bool) (s : WorkerState)
    (hs : s = .idle ∨ ∃ job, s = .concluding job (failure "executor_timeout")) :
    WorkerMove w { w with ipc := w.removeRequest id fails, worker := s }
  | publishes (job : ClaimedOperationJob) (f : RequestFile) (requests : Spool Uuid RequestFile)
    (hworker : w.worker = .linking job) (hlink : w.ipc.requests.link job.jobId f = some requests) :
    WorkerMove w { w with ipc := { w.ipc with requests }, worker := .waiting job }

namespace WorkerMove

variable {w : System}

theorem idle : WorkerMove w { w with worker := .idle } := .moves _ nofun nofun

theorem fails (job : ClaimedOperationJob) (code : String) :
    WorkerMove w { w with worker := .concluding job (failure code) } := by
  refine .moves _ nofun fun _ _ hs hsucceeded => ?_
  cases hs
  exact absurd hsucceeded (by simp [failure])

theorem waits (job : ClaimedOperationJob) : WorkerMove w { w with worker := .waiting job } :=
  .moves _ nofun nofun

/-- An answer received: the worker comes closer to publishing only by being told that its job
runs. -/
theorem receives {n i : ℕ} {a : AgentAnswer} (hanswer : w.answers[i]? = some (n, a))
    (hawaits : w.worker.awaits = some n) :
    WorkerMove w { w with worker := w.worker.receive a } := by
  cases hw : w.worker <;> rw [hw] at hawaits <;> cases hawaits
  case claiming =>
    cases a with
    | transitioned => exact idle
    | claimed job =>
      rcases job with _ | job
      · exact idle
      simp only [WorkerState.receive, WorkerState.claimed]
      split_ifs
      · exact idle
      · exact .moves _ nofun nofun
      · exact .moves _ (by simp [WorkerState.mayPublish]) nofun
  case started job =>
    cases a with
    | claimed => exact idle
    | transitioned id status =>
      simp only [WorkerState.receive]
      split_ifs with h
      · simp only [Bool.and_eq_true, decide_eq_true_eq] at h
        obtain ⟨rfl, rfl⟩ := h
        refine .moves _ (fun id hid => ?_) nofun
        simp only [WorkerState.mayPublish, Bool.and_true, decide_eq_true_eq] at hid
        subst hid
        simpa [hw, WorkerState.mayPublish] using List.mem_of_getElem? hanswer
      · exact idle
  case concluded job report =>
    cases a with
    | claimed => exact idle
    | transitioned id status =>
      simp only [WorkerState.receive]
      split_ifs
      · exact .moves _ nofun nofun
      · exact idle

/-- A look for a file. -/
theorem probes {job : ClaimedOperationJob} {publish : Bool}
    (hw : w.worker = .probing job publish ∨ w.worker = .probingResult job publish) (b : Bool) :
    WorkerMove w { w with worker := w.worker.probe b } := by
  have hpublish (id : Uuid) (hid : job.jobId = id) (hp : publish = true) :
      w.worker.mayPublish w.answers id = true := by
    rcases hw with hw | hw <;> simp [hw, hid, hp, WorkerState.mayPublish]
  rcases hw with hw | hw <;> rw [hw] at hpublish ⊢ <;> simp only [WorkerState.probe] <;> split_ifs
  · exact fails job _
  · exact waits job
  · refine .moves _ (fun id hid => ?_) nofun
    simp only [WorkerState.mayPublish, Bool.and_eq_true, decide_eq_true_eq] at hid
    rw [hw]
    exact hpublish id hid.1 hid.2
  · exact fails job _
  · refine .moves _ (fun id hid => ?_) nofun
    rw [hw]
    exact hpublish id (by simpa [WorkerState.mayPublish] using hid) ‹_›
  · exact waits job
  · exact fails job _

/-- A look for the result: success is concluded only from a file that shows it. -/
theorem reads (job : ClaimedOperationJob) :
    WorkerMove w { w with
      worker := .read job ((w.ipc.results job.jobId).map (·.document)) } := by
  cases hf : w.ipc.results job.jobId with
  | none => exact waits job
  | some f =>
    simp only [Option.map_some, WorkerState.read]
    split_ifs with hmismatch
    · exact fails job _
    simp only [Bool.or_eq_true, decide_eq_true_eq, ne_eq, not_or, not_not] at hmismatch
    refine .moves _ nofun fun job' report hs hsucceeded => ?_
    cases hs
    by_cases hok : f.document.ok = true
    · by_cases hphase : f.document.phase = expectedPhase job.action
      · exact ⟨f, hf, hmismatch.1, hmismatch.2, hok, hphase⟩
      · simp [conclusion, hok, hphase, failure] at hsucceeded
    · simp [conclusion, hok, failure] at hsucceeded

end WorkerMove

/-- **Every step of the worker is one of these moves.** -/
theorem System.work_moves (cfg : WorkerConfig) (w : System) (input : WorkerInput) :
    WorkerMove w (w.work cfg input) := by
  unfold System.work
  split
  · exact .idle
  · exact .sends _ _ rfl (by simp)
  · exact .sends _ _ rfl (by simp [System.body])
  next job report requestId hw =>
    refine .sends _ _ rfl fun b hb hsucceeded => ?_
    cases hb
    exact ⟨job, report, hw, hsucceeded, rfl, rfl⟩
  next i =>
    split
    next n a hanswer =>
      split_ifs with hawaits
      · exact .receives hanswer hawaits
      · exact .stays
    next => exact .stays
  · exact .idle
  · exact .idle
  · exact .idle
  · exact .idle
  · exact .idle
  next job publish fails hw => exact .probes (.inl hw) _
  next job publish fails hw => exact .probes (.inr hw) _
  next job mtime fails hw =>
    split_ifs
    · exact .fails job _
    unfold System.writeExclusive
    split
    next => exact .fails job _
    next requests hlink => exact .publishes job _ requests hw hlink
  next job fails _ =>
    split_ifs
    · exact .fails job _
    · exact .reads job
  · exact .moves _ nofun nofun
  · exact .idle
  next job fails _ => exact .removes _ _ _ (.inr ⟨job, rfl⟩)
  · exact .removes _ _ _ (.inl rfl)
  · exact .stays

/-! ## The credit of a job -/

/-- How often the request file of a job was published, and once more while the worker is on its
way to publish it. -/
def System.credit (w : System) (id : Uuid) : ℕ :=
  w.ipc.requests.publications id + (w.worker.mayPublish w.answers id).toNat

/-- The first half of the invariant. -/
structure System.Once [Server] (w : System) : Prop where
  store : w.database.store.Invariant
  spool : w.ipc.requests.Bounded
  answered : ∀ a ∈ w.answers, a.1 < w.sent.length
  credit : ∀ id, w.credit id ≤ 1
  started : ∀ id, 0 < w.credit id → Started w.database.store id

section

variable {w : System}

theorem mayPublish_of_fresh {s : WorkerState} {answers : List (ℕ × AgentAnswer)} {n : ℕ}
    (hanswered : ∀ a ∈ answers, a.1 < n) (hs : s.awaits = some n) (id : Uuid) :
    s.mayPublish answers id = false := by
  cases s <;> first | rfl | cases hs
  case started job =>
    simp only [WorkerState.mayPublish, Bool.and_eq_false_iff, decide_eq_false_iff_not]
    exact .inr fun hmem => absurd (hanswered _ hmem) (by simp)

/-- A step of the worker never raises the credit. -/
theorem WorkerMove.credit_le {w' : System} (h : WorkerMove w w')
    (hanswered : ∀ a ∈ w.answers, a.1 < w.sent.length) (id : Uuid) : w'.credit id ≤ w.credit id := by
  cases h with
  | stays => exact Nat.le_refl _
  | moves s hpublish =>
    have := Bool.toNat_le_toNat (hpublish id)
    simp only [System.credit]
    omega
  | sends r s hawaits =>
    simp [System.credit, mayPublish_of_fresh hanswered hawaits]
  | removes id' fails s hs =>
    have hno : s.mayPublish w.answers id = false := by
      rcases hs with rfl | ⟨job, rfl⟩ <;> rfl
    have : (w.removeRequest id' fails).requests.publications id = w.ipc.requests.publications id := by
      unfold System.removeRequest
      split <;> rfl
    simp [System.credit, hno, this]
  | publishes job f requests hworker hlink =>
    simp only [System.credit, hworker, WorkerState.mayPublish, Spool.publications_link hlink]
    by_cases hid : id = job.jobId
    · simp [hid]
    · simp [hid]

/-- New answers bring the worker closer to publishing only if one of them tells it that the job
runs. -/
theorem mayPublish_append {s : WorkerState} {answers new : List (ℕ × AgentAnswer)} {id : Uuid}
    (h : s.mayPublish (answers ++ new) id = true) :
    s.mayPublish answers id = true ∨ ∃ n, (n, AgentAnswer.transitioned id "running") ∈ new := by
  cases s with
  | started job n =>
    simp only [WorkerState.mayPublish, Bool.and_eq_true, decide_eq_true_eq,
      List.mem_append] at h ⊢
    rcases h with ⟨hid, hmem | hmem⟩
    · exact .inl ⟨hid, hmem⟩
    · exact .inr ⟨n, hmem⟩
  | _ => exact .inl h

variable [Server]

theorem System.Once.work (h : w.Once) (cfg : WorkerConfig) (input : WorkerInput) :
    (w.work cfg input).Once := by
  have hmove := w.work_moves cfg input
  have hcredit := hmove.credit_le h.answered
  generalize w.work cfg input = w' at hmove hcredit
  have hdatabase : w'.database = w.database := by cases hmove <;> rfl
  constructor
  · rw [hdatabase]
    exact h.store
  · cases hmove with
    | stays | moves | sends => exact h.spool
    | removes id fails =>
      simp only [System.removeRequest]
      split
      · exact h.spool
      · exact h.spool.remove id
    | publishes job f requests _ hlink => exact h.spool.link hlink
  · cases hmove with
    | stays | moves | removes | publishes => exact h.answered
    | sends =>
      intro a ha
      rw [List.length_append]
      exact Nat.lt_add_right _ (h.answered a ha)
  · exact fun id => (hcredit id).trans (h.credit id)
  · intro id hpos
    rw [hdatabase]
    exact h.started id (Nat.lt_of_lt_of_le hpos (hcredit id))

/-- The answer that a job runs means that the call started it. -/
theorem started_of_answer {c : Context} {s s' : Store} (h : s.Invariant) {r : AgentRequest}
    {requestId id : Uuid} {rpc : Rpc} {reply : Reply} (hrpc : r.rpc? requestId = some rpc)
    (hexec : rpc.exec c s = .ok (reply, s'))
    (hanswer : r.answer? reply = some (.transitioned id "running")) :
    ¬ Started s id ∧ Started s' id := by
  cases r with
  | claim serverId leaseOwner =>
    cases reply with
    | claimed row => cases row <;> simp [AgentRequest.answer?] at hanswer
    | _ => simp [AgentRequest.answer?] at hanswer
  | transition b =>
    simp only [AgentRequest.rpc?] at hrpc
    split_ifs at hrpc
    cases hrpc
    simp only [Rpc.exec, map_eq_ok, Prod.mk.injEq] at hexec
    obtain ⟨⟨row, s₁⟩, hreport, rfl, rfl⟩ := hexec
    simp only [AgentRequest.answer?] at hanswer
    split_ifs at hanswer with hrow
    simp only [Bool.and_eq_true, decide_eq_true_eq] at hrow
    simp only [Option.some.injEq, AgentAnswer.transitioned.injEq] at hanswer
    obtain ⟨rfl, hrunning⟩ := hanswer
    rw [← hrow.1]
    refine started_of_report h hreport (JobStatus.text_injective ?_)
    rw [hrow.2, hrunning]
    rfl

/-- What the delivery of a request does: nothing, or one call of the queue, whose answers carry
the place of the request. An answer that a job runs means that the call started it. -/
theorem System.deliver_cases (w : System) (h : w.database.store.Invariant) (n : ℕ) (d : Delivery) :
    w.deliver n d = w ∨ ∃ r rpc new, w.sent[n]? = some r ∧ r.rpc? d.requestId = some rpc ∧
      w.deliver n d = { w with
        database := w.database.step (d.call rpc)
        answers := w.answers ++ new } ∧
      (∀ a ∈ new, a.1 = n) ∧
      ∀ m id, (m, AgentAnswer.transitioned id "running") ∈ new →
        ¬ Started w.database.store id ∧ Started (w.database.step (d.call rpc)).store id := by
  unfold System.deliver
  split
  · exact .inl rfl
  next r hr =>
    split
    · exact .inl rfl
    next rpc hrpc =>
      refine .inr ⟨r, rpc, _, hr, hrpc, rfl, ?_, ?_⟩
      · intro a ha
        split at ha
        · simp only [Option.mem_toList, Option.map_eq_some_iff] at ha
          obtain ⟨_, -, rfl⟩ := ha
          rfl
        · cases ha
      · intro m id hmem
        split at hmem
        next reply s' hexec =>
          simp only [Option.mem_toList, Option.map_eq_some_iff, Prod.mk.injEq] at hmem
          obtain ⟨_, hanswer, -, rfl⟩ := hmem
          have hstore : (w.database.step (d.call rpc)).store = s' := by
            simp [World.step, hexec]
          rw [hstore]
          exact started_of_answer (h.before _) hrpc hexec hanswer
        · cases hmem

theorem System.Once.deliver (h : w.Once) (n : ℕ) (d : Delivery) : (w.deliver n d).Once := by
  obtain heq | ⟨r, rpc, new, hr, -, heq, hplace, hnew⟩ := w.deliver_cases h.store n d
  · rw [heq]
    exact h
  have hchain := w.database.changes_step (d.call rpc)
  have hbefore := h.store.before (d.call rpc)
  rw [heq]
  have hcredit (id : Uuid) :
      System.credit { w with
        database := w.database.step (d.call rpc)
        answers := w.answers ++ new } id ≤ w.credit id ∨
      ∃ m, (m, AgentAnswer.transitioned id "running") ∈ new := by
    by_cases hnow : w.worker.mayPublish (w.answers ++ new) id = true
    · rcases mayPublish_append hnow with hold | hmem
      · exact .inl (by simp [System.credit, hnow, hold])
      · exact .inr hmem
    · exact .inl (by simp [System.credit, hnow])
  -- A job that has just been started had no credit, since it was waiting.
  have hzero (id : Uuid) (hid : ¬ Started w.database.store id) : w.credit id = 0 :=
    Nat.eq_zero_of_not_pos fun hpos => hid (h.started id hpos)
  constructor
  · exact hchain.invariant hbefore
  · exact h.spool
  · intro a ha
    rcases List.mem_append.1 ha with ha | ha
    · exact h.answered a ha
    · rw [hplace a ha]
      exact (List.getElem?_eq_some_iff.1 hr).1
  · intro id
    rcases hcredit id with hle | ⟨m, hmem⟩
    · exact hle.trans (h.credit id)
    · have hid := hzero id (hnew m id hmem).1
      simp only [System.credit] at hid ⊢
      have := Bool.toNat_le (w.worker.mayPublish (w.answers ++ new) id)
      omega
  · intro id hpos
    rcases hcredit id with hle | ⟨m, hmem⟩
    · exact Started.changes (s := w.database.before (d.call rpc))
        (h.started id (Nat.lt_of_lt_of_le hpos hle)) hbefore hchain
    · exact (hnew m id hmem).2

/-- Neither the helper nor another caller touches the credit. -/
theorem System.Once.step (h : w.Once) (cfg : WorkerConfig) (e : Event) : (w.step cfg e).Once := by
  cases e with
  | worker input => exact h.work cfg input
  | deliver n d => exact h.deliver n d
  | processRequest id r =>
    simp only [System.step]
    obtain heq | heq | ⟨f, -, -, heq | ⟨o, heq⟩⟩ := processRequest_cases r id w.ipc <;> rw [heq]
    · exact h
    · exact { h with spool := h.spool.remove id }
    · exact { h with
        spool := h.spool.take id
        credit := by simpa [System.credit] using h.credit
        started := by simpa [System.credit] using h.started }
    · exact { h with
        spool := h.spool.take id
        credit := by simpa [System.credit, Ipc.writeResult] using h.credit
        started := by simpa [System.credit, Ipc.writeResult] using h.started }
  | cleanupOldResults now => exact { h with }
  | other c =>
    have hchain := w.database.changes_step c.call
    have hbefore := h.store.before c.call
    exact { h with
      store := hchain.invariant hbefore
      started := fun id hpos =>
        Started.changes (s := w.database.before c.call) (h.started id hpos) hbefore hchain }

theorem System.once_initial (t : ℤ) : (System.initial t).Once where
  store := invariant_initial t
  spool := Spool.bounded_empty
  answered := nofun
  credit _ := Nat.zero_le _
  started _ h := absurd h (Nat.lt_irrefl _)

end

/-! ## Success -/

/-- The helper has written a result that shows the action of the job to have ended well. -/
def Ipc.Achieved (ipc : Ipc) (id : Uuid) (action : String) : Prop :=
  ∃ d ∈ ipc.written, Achieves id action d

theorem Ipc.Achieved.mono {ipc ipc' : Ipc} (hsub : ipc.written ⊆ ipc'.written) {id : Uuid}
    {action : String} (h : ipc.Achieved id action) : ipc'.Achieved id action := by
  obtain ⟨d, hd, hachieves⟩ := h
  exact ⟨d, hsub hd, hachieves⟩

/-- The second half of the invariant: every claim of success goes back to a result, and every
result to an execution. -/
structure System.Backed (w : System) : Prop where
  results : ∀ id f, w.ipc.results id = some f → f.document ∈ w.ipc.written
  written : ∀ d ∈ w.ipc.written, ∃ q ∈ w.ipc.requests.consumed, d.jobId = q.1.text ∧
    d.action = q.2.document.action
  concluding : ∀ job report, w.worker = .concluding job report → report.newStatus = "succeeded" →
    w.ipc.Achieved job.jobId job.action
  reported : ∀ b, AgentRequest.transition b ∈ w.sent → b.newStatus = "succeeded" →
    w.ipc.Achieved b.jobId b.action
  succeeded : ∀ j ∈ w.database.store.jobs, j.status = .succeeded →
    w.ipc.Achieved j.id j.operationType.text

section

variable {w : System}

theorem System.Backed.work (h : w.Backed) (cfg : WorkerConfig) (input : WorkerInput) :
    (w.work cfg input).Backed := by
  have hmove := w.work_moves cfg input
  generalize w.work cfg input = w' at hmove
  cases hmove with
  | stays => exact h
  | moves s _ hconclude =>
    refine { h with concluding := fun job report hs hsucceeded => ?_ }
    obtain ⟨f, hf, hachieves⟩ := hconclude job report hs hsucceeded
    exact ⟨f.document, h.results _ f hf, hachieves⟩
  | sends r s hawaits hreport =>
    refine { h with concluding := ?_, reported := fun b hb hsucceeded => ?_ }
    · rintro job report rfl
      cases hawaits
    · rcases List.mem_append.1 hb with hb | hb
      · exact h.reported b hb hsucceeded
      · obtain ⟨job, report, hw, hstatus, hid, haction⟩ :=
          hreport b (List.mem_singleton.1 hb).symm hsucceeded
        rw [hid, haction]
        exact h.concluding job report hw hstatus
  | removes id fails s hs =>
    have hipc : (w.removeRequest id fails).results = w.ipc.results ∧
        (w.removeRequest id fails).written = w.ipc.written ∧
        (w.removeRequest id fails).requests.consumed = w.ipc.requests.consumed := by
      unfold System.removeRequest
      split <;> exact ⟨rfl, rfl, rfl⟩
    obtain ⟨hresults, hwritten, hconsumed⟩ := hipc
    constructor
    · simpa only [hresults, hwritten] using h.results
    · simpa only [hwritten, hconsumed] using h.written
    · rintro job report hw hsucceeded
      rcases hs with rfl | ⟨job', rfl⟩
      · cases hw
      · cases hw
        exact absurd hsucceeded (by simp [failure])
    · simpa only [Ipc.Achieved, hwritten] using h.reported
    · simpa only [Ipc.Achieved, hwritten] using h.succeeded
  | publishes job f requests hworker hlink =>
    exact { h with
      written := by simpa only [Spool.consumed_link hlink] using h.written
      concluding := nofun }

theorem System.Backed.processRequest (h : w.Backed) (id : Uuid) (r : HelperRun) :
    System.Backed { w with ipc := Lifecycle.processRequest r id w.ipc } := by
  obtain heq | heq | ⟨f, hf, hid, heq | ⟨o, heq⟩⟩ := processRequest_cases r id w.ipc <;> rw [heq]
  · exact h
  · exact { h with }
  · refine { h with written := fun d hd => ?_ }
    obtain ⟨q, hq, hd⟩ := h.written d hd
    exact ⟨q, w.ipc.requests.consumed_subset_take id hq, hd⟩
  · have hsub : w.ipc.written ⊆ w.ipc.written ++ [f.document.result o] :=
      List.subset_append_left _ _
    constructor
    · intro k g hg
      simp only [Ipc.writeResult, Function.update_apply] at hg
      split_ifs at hg
      · cases hg
        exact List.mem_append_right _ (List.mem_singleton.2 rfl)
      · exact hsub (h.results k g hg)
    · intro d hd
      rcases List.mem_append.1 hd with hd | hd
      · obtain ⟨q, hq, hd⟩ := h.written d hd
        exact ⟨q, w.ipc.requests.consumed_subset_take id hq, hd⟩
      · rw [List.mem_singleton.1 hd]
        exact ⟨(id, f), w.ipc.requests.mem_consumed_take hf, hid, rfl⟩
    · exact fun job report hw hs => (h.concluding job report hw hs).mono hsub
    · exact fun b hb hs => (h.reported b hb hs).mono hsub
    · exact fun j hj hs => (h.succeeded j hj hs).mono hsub

variable [Server]

/-- A call that makes no report of success leaves the jobs that succeeded as they were. -/
theorem System.Backed.call (h : w.Backed) {call : Call}
    (hasks : ∀ p, call.rpc.asks p → p.actorType = some "agent" → p.newStatus ≠ some "succeeded") :
    System.Backed { w with database := w.database.step call } := by
  refine { h with succeeded := fun k hk hsucceeded => ?_ }
  obtain ⟨j, hj, hs, hid, htype⟩ :=
    succeeded_of_changes hasks (w.database.changes_step call) k hk hsucceeded
  rw [← hid, ← htype]
  exact h.succeeded j hj hs

theorem System.Backed.deliver (h : w.Backed) (hstore : w.database.store.Invariant) (n : ℕ)
    (d : Delivery) : (w.deliver n d).Backed := by
  obtain heq | ⟨r, rpc, new, hr, hrpc, heq, -, -⟩ := w.deliver_cases hstore n d
  · rw [heq]
    exact h
  rw [heq]
  suffices System.Backed { w with database := w.database.step (d.call rpc) } from { this with }
  cases r with
  | claim serverId leaseOwner =>
    simp only [AgentRequest.rpc?] at hrpc
    split_ifs at hrpc
    cases hrpc
    refine h.call ?_
    rintro p (hp | hp) - <;> simp [hp]
  | transition b =>
    simp only [AgentRequest.rpc?] at hrpc
    split_ifs at hrpc
    cases hrpc
    refine { h with succeeded := fun k hk hsucceeded => ?_ }
    unfold World.step at hk
    split at hk
    next reply s' hexec =>
      simp only [World.exec, Delivery.call, Rpc.exec, map_eq_ok, Prod.mk.injEq] at hexec
      obtain ⟨⟨row, s₁⟩, hreport, -, rfl⟩ := hexec
      rcases succeeded_of_report (hstore.before _) hreport hk hsucceeded with hk | ⟨hnew, hid, htype⟩
      · exact h.succeeded k hk hsucceeded
      · rw [htype b.action rfl, ← Option.some.inj hid]
        exact h.reported b (List.mem_of_getElem? hr) (Option.some.inj hnew)
    next => exact h.succeeded k hk hsucceeded

theorem System.Backed.step (h : w.Backed) (hstore : w.database.store.Invariant)
    (cfg : WorkerConfig) (e : Event) : (w.step cfg e).Backed := by
  cases e with
  | worker input => exact h.work cfg input
  | deliver n d => exact h.deliver hstore n d
  | processRequest id r => exact h.processRequest id r
  | cleanupOldResults now =>
    refine { h with results := fun id f hf => ?_ }
    exact h.results id f (Option.filter_eq_some_iff.1 hf).1
  | other c =>
    refine h.call fun p hp hagent => ?_
    have hother := c.not_report
    cases hrpc : c.call.rpc <;> rw [hrpc] at hp hother <;> simp only [Rpc.asks] at hp
    case claim => rcases hp with hp | hp <;> simp [hp]
    case transition => simp [isAgentReport, ← hp, hagent] at hother
    case mcMainTransition => simp [isAgentReport] at hother
    case expireStale => simp [hp]

omit [Server] in
theorem System.backed_initial (t : ℤ) : (System.initial t).Backed where
  results := by simp [System.initial]
  written := by simp [System.initial]
  concluding := by simp [System.initial]
  reported := by simp [System.initial]
  succeeded := by simp [System.initial, World.initial, Store.initial]

/-- **At-most-once execution.** In every run of queue, worker, network and helper, the request
file of a job is published at most once and its action executed at most once; and a job that
succeeded was executed, with a result that says so and names the phase its action ends in. -/
theorem lifecycle_at_most_once (cfg : WorkerConfig) (t : ℤ) (events : List Event) :
    let w := (System.initial t).run cfg events
    (∀ id, w.ipc.requests.publications id ≤ 1 ∧ w.ipc.requests.executions id ≤ 1) ∧
      ∀ j ∈ w.database.store.jobs, j.status = .succeeded →
        (∃ f, (j.id, f) ∈ w.ipc.requests.consumed ∧
          f.document.action = j.operationType.text) ∧
        ∃ d ∈ w.ipc.written, d.jobId = j.id.text ∧ d.action = j.operationType.text ∧
          d.ok = true ∧
          d.phase = if j.operationType = .stopBackend then "stopped" else "health_gate_passed" := by
  intro w
  have hinv : w.Once ∧ w.Backed :=
    Runs.run_invariant (P := fun w : System => w.Once ∧ w.Backed)
      (fun _ e h => ⟨h.1.step cfg e, h.2.step h.1.store cfg e⟩)
      ⟨System.once_initial t, System.backed_initial t⟩ events
  obtain ⟨honce, hbacked⟩ := hinv
  refine ⟨fun id => ?_, fun j hj hsucceeded => ?_⟩
  · have hle := (Nat.le_add_right _ _).trans (honce.credit id)
    exact ⟨hle, (honce.spool.executions_le id).trans hle⟩
  · obtain ⟨d, hd, hid, haction, hok, hphase⟩ := hbacked.succeeded j hj hsucceeded
    obtain ⟨⟨id, f⟩, hf, hdid, hdaction⟩ := hbacked.written d hd
    obtain rfl : id = j.id := Uuid.text_inj (hdid.symm.trans hid)
    refine ⟨⟨f, hf, hdaction.symm.trans haction⟩, d, hd, hid, haction, hok, hphase.trans ?_⟩
    cases j.operationType <;> decide

end

end IvrmDashboard.Lifecycle

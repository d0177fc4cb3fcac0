import IvrmDashboard.Operations.LapsedLease
import IvrmDashboard.Foundations.Sql.Objects
import Mathlib.Data.List.Perm.Subperm

/-!
# The allow-list of the `mc-main` bridge

The bridge is to admit three operations and four reports, word for word (`Admitted`). Its guards
are comparisons over values that may be missing, and an unknown comparison does not raise: a call
without an operation type is compared with nothing, and so is an object without a `phase`.
`mcMainTransition_admits_iff` says which calls get through against the list; `phaseless_report`
is one.
-/

namespace IvrmDashboard.Operations

open Sql

/-- The value is the object of these fields, in any order. -/
def ExactFields (v : Jsonb) (entries : List (String × Jsonb)) : Prop :=
  ∃ fields, v = .obj fields ∧ fields.Perm entries

/-- The details of a report on a job of the type. -/
def ReportWords (operationType : OperationType) (details : Option Jsonb) :
    JobStatus → JobStatus → Prop
  | .leased, .running => ∃ v, details = some v ∧ ExactFields v [("phase", .str "executing")]
  | .running, .succeeded =>
    ∃ v, details = some v ∧ ExactFields v [("phase",
      .str (if operationType = .stopBackend then "stopped" else "health_gate_passed"))]
  | .running, .failed =>
    ∃ v code, details = some v ∧ errorCodeOk code = true ∧
      ExactFields v [("phase", .str "execution_failed"), ("errorCode", .str code)]
  | _, _ => False

/-- What the allow-list says of a call that takes the job `j` to a new status. -/
structure Admitted (p : McMainTransitionParams) (j : Job) (newStatus : JobStatus) : Prop where
  lifecycle : j.operationType ∈ OperationType.lifecycle
  named : p.operationType = some j.operationType.text
  words : ReportWords j.operationType p.details j.status newStatus

/-- The values the guards compare are there, and the error code of a failure is a string. -/
def Spelled (p : McMainTransitionParams) : Prop :=
  p.operationType.isSome = true ∧
    ∀ v, p.details = some v → (v.getText "phase").isSome = true ∧
      (p.newStatus = some "failed" → ∃ code, v.get? "errorCode" = some (.str code))

/-! ## The fields of a report -/

theorem not_holds_ne {x : Option String} {y : String} :
    (ne x (some y)).holds = false ↔ x = none ∨ x = some y := by
  cases x with
  | none => exact ⟨fun _ => .inl rfl, fun _ => rfl⟩
  | some z =>
    rw [holds_ne_some, decide_eq_false_iff_not, not_not]
    exact ⟨fun h => .inr (congrArg some h), fun h => Option.some.inj (h.resolve_left nofun)⟩

theorem exactFields_singleton {v : Jsonb} {k s : String} :
    ExactFields v [(k, .str s)] ↔ v.isObject = true ∧ detailCount v = 1 ∧
      v.get? k = some (.str s) := by
  constructor
  · rintro ⟨fields, rfl, hperm⟩
    obtain rfl := List.perm_singleton.mp hperm
    exact ⟨rfl, rfl, by rw [Jsonb.get?, List.lookup_cons_self]⟩
  · rintro ⟨hobj, hcount, hget⟩
    cases v with
    | obj fields =>
      obtain ⟨f, rfl⟩ := List.length_eq_one_iff.mp hcount
      refine ⟨_, rfl, List.perm_singleton.mpr (congrArg (fun f => [f]) ?_)⟩
      obtain ⟨front, back, hsplit, -⟩ := List.lookup_eq_some_iff.mp hget
      cases front with
      | nil => exact (List.cons.inj hsplit).1
      | cons g front =>
        have hlen := congrArg List.length hsplit
        simp at hlen
    | _ => cases hobj

theorem lookup_of_mem {fields : List (String × Jsonb)} {k : String} {w : Jsonb}
    (hnodup : (fields.map Prod.fst).Nodup) (h : (k, w) ∈ fields) : fields.lookup k = some w := by
  obtain ⟨front, back, rfl⟩ := List.append_of_mem h
  refine List.lookup_eq_some_iff.mpr ⟨front, back, rfl, fun f hf => ?_⟩
  rw [List.map_append, List.map_cons] at hnodup
  have hdisjoint := List.disjoint_of_nodup_append hnodup (List.mem_map_of_mem hf)
  exact bne_iff_ne.mpr fun hk => hdisjoint (hk ▸ List.mem_cons_self)

theorem mem_of_lookup {fields : List (String × Jsonb)} {k : String} {w : Jsonb}
    (h : fields.lookup k = some w) : (k, w) ∈ fields := by
  obtain ⟨front, back, rfl, -⟩ := List.lookup_eq_some_iff.mp h
  exact List.mem_append_right front List.mem_cons_self

theorem exactFields_pair {v : Jsonb} {k k' s s' : String} (hne : k ≠ k') :
    ExactFields v [(k, .str s), (k', .str s')] ↔ v.isObject = true ∧ detailCount v = 2 ∧
      v.get? k = some (.str s) ∧ v.get? k' = some (.str s') := by
  constructor
  · rintro ⟨fields, rfl, hperm⟩
    have hnodup : (fields.map Prod.fst).Nodup := by
      refine (hperm.map Prod.fst).nodup_iff.mpr ?_
      simpa using hne
    refine ⟨rfl, hperm.length_eq, ?_, ?_⟩
    · exact lookup_of_mem hnodup (hperm.mem_iff.mpr List.mem_cons_self)
    · exact lookup_of_mem hnodup
        (hperm.mem_iff.mpr (List.mem_cons_of_mem _ List.mem_cons_self))
  · rintro ⟨hobj, hcount, hget, hget'⟩
    cases v with
    | obj fields =>
      have hsub : [(k, Jsonb.str s), (k', .str s')].Subperm fields := by
        refine List.subperm_of_subset ?_ ?_
        · refine List.Nodup.of_map Prod.fst ?_
          simpa using hne
        · intro f hf
          obtain rfl | hf := List.mem_cons.mp hf
          · exact mem_of_lookup hget
          · rw [List.mem_singleton.mp hf]
            exact mem_of_lookup hget'
      exact ⟨fields, rfl, (hsub.perm_of_length_le hcount.le).symm⟩
    | _ => cases hobj

/-! ## The guards -/

/-- What the guards ask of the words, with every unknown comparison let through. -/
theorem reportGate_words {op : Option String} {e n : String} {v : Jsonb} {u : Unit}
    (h : reportGate op (some e) (some n) v = .ok u) :
    (e = "leased" ∧ n = "running" ∧ detailCount v = 1 ∧
      (phaseDiffers v "executing").holds = false) ∨
    (e = "running" ∧ n = "succeeded" ∧ detailCount v = 1 ∧
      (phaseDiffers v (if (eq op (some "stop_backend")).holds then "stopped"
        else "health_gate_passed")).holds = false) ∨
    (e = "running" ∧ n = "failed" ∧ detailCount v = 2 ∧
      (phaseDiffers v "execution_failed").holds = false ∧
      (v.getText "errorCode").any errorCodeOk = true) := by
  have eq_some : ∀ {x y : String}, (eq (some x) (some y)).holds = true ↔ x = y := by
    intro x y
    rw [holds_eq]
    exact ⟨fun ⟨_, hx, hy⟩ => Option.some.inj (hx.trans hy.symm), fun h => ⟨x, rfl, by rw [h]⟩⟩
  unfold reportGate at h
  split at h
  next hleased =>
    rw [Bool.and_eq_true, eq_some, eq_some] at hleased
    rw [raiseIf_eq_ok, Tri.holds_or, Bool.or_eq_false_iff] at h
    refine .inl ⟨hleased.1, hleased.2, ?_, h.2⟩
    simpa using h.1
  split at h
  next hsucceeded =>
    rw [Bool.and_eq_true, eq_some, eq_some] at hsucceeded
    obtain ⟨_, hcount, h⟩ := bind_eq_ok.1 h
    rw [raiseIf_eq_ok, decide_eq_false_iff_not, not_not] at hcount
    refine .inr (.inl ⟨hsucceeded.1, hsucceeded.2, hcount, ?_⟩)
    split at h
    next hstop =>
      rw [if_pos hstop]
      exact raiseIf_eq_ok.1 h
    next hstop =>
      rw [if_neg hstop]
      exact raiseIf_eq_ok.1 h
  split at h
  next hfailed =>
    rw [Bool.and_eq_true, eq_some, eq_some] at hfailed
    rw [raiseIf_eq_ok, Tri.holds_or, Tri.holds_or, Bool.or_eq_false_iff, Bool.or_eq_false_iff] at h
    obtain ⟨⟨hcount, hphase⟩, hcode⟩ := h
    refine .inr (.inr ⟨hfailed.1, hfailed.2, ?_, hphase, ?_⟩)
    · simpa using hcount
    · simpa using hcode
  next => cases h

/-- A phase that is there is the one that is compared with. -/
theorem get?_phase {v : Jsonb} {phase : String} (hphase : (v.getText "phase").isSome = true)
    (h : (phaseDiffers v phase).holds = false) (hword : Jsonb.word phase = true) :
    v.get? "phase" = some (.str phase) := by
  obtain hnone | hsome := not_holds_ne.mp h
  · rw [hnone] at hphase
    cases hphase
  · exact Jsonb.getText_word hsome hword

theorem isSome_getText_phase {v : Jsonb} {s : String}
    (h : v.get? "phase" = some (.str s)) : (v.getText "phase").isSome = true := by
  rw [Jsonb.getText_of_get? h]
  rfl

/-- With every value in place the guards let through exactly the words of the list. -/
theorem reportWords_iff {t : OperationType} {v : Jsonb} {status new : JobStatus} {u : Unit}
    (hobj : v.isObject = true)
    (h : reportGate (some t.text) (some status.text) (some new.text) v = .ok u) :
    ReportWords t (some v) status new ↔ (v.getText "phase").isSome = true ∧
      (some new.text = some "failed" → ∃ code, v.get? "errorCode" = some (.str code)) := by
  obtain ⟨he, hn, hcount, hphase⟩ | ⟨he, hn, hcount, hphase⟩ | ⟨he, hn, hcount, hphase, hcode⟩ :=
    reportGate_words h
  · obtain rfl : status = .leased := JobStatus.text_injective he
    obtain rfl : new = .running := JobStatus.text_injective hn
    constructor
    · rintro ⟨w, hw, hexact⟩
      cases hw
      exact ⟨isSome_getText_phase (exactFields_singleton.mp hexact).2.2, nofun⟩
    · rintro ⟨hsome, -⟩
      exact ⟨v, rfl, exactFields_singleton.mpr
        ⟨hobj, hcount, get?_phase hsome hphase (by decide)⟩⟩
  · obtain rfl : status = .running := JobStatus.text_injective he
    obtain rfl : new = .succeeded := JobStatus.text_injective hn
    have hstop : (eq (some t.text) (some "stop_backend")).holds = true ↔ t = .stopBackend := by
      cases t <;> decide
    rw [if_congr hstop rfl rfl] at hphase
    constructor
    · rintro ⟨w, hw, hexact⟩
      cases hw
      exact ⟨isSome_getText_phase (exactFields_singleton.mp hexact).2.2, nofun⟩
    · rintro ⟨hsome, -⟩
      refine ⟨v, rfl, exactFields_singleton.mpr ⟨hobj, hcount, get?_phase hsome hphase ?_⟩⟩
      split_ifs
      · decide
      · decide
  · obtain rfl : status = .running := JobStatus.text_injective he
    obtain rfl : new = .failed := JobStatus.text_injective hn
    constructor
    · rintro ⟨w, code, hw, -, hexact⟩
      cases hw
      obtain ⟨-, -, hget, hget'⟩ := (exactFields_pair (by decide)).mp hexact
      exact ⟨isSome_getText_phase hget, fun _ => ⟨code, hget'⟩⟩
    · rintro ⟨hsome, hstr⟩
      obtain ⟨code, hget⟩ := hstr rfl
      rw [Jsonb.getText_of_get? hget] at hcode
      exact ⟨v, code, rfl, hcode, (exactFields_pair (by decide)).mpr
        ⟨hobj, hcount, get?_phase hsome hphase (by decide), hget⟩⟩

section

variable [Server]

/-- What a call that gets through has met. -/
theorem validate_eq_ok {c : Context} {p : McMainTransitionParams} {s : Store} {u : Unit}
    (h : p.validate c s = .ok u) :
    (notLifecycle p.operationType).holds = false ∧
      ∃ j v u', p.jobId.bind s.job? = some j ∧
        (ne (some j.operationType.text) p.operationType).holds = false ∧
        p.details = some v ∧ v.isObject = true ∧
        reportGate p.operationType p.expectedStatus p.newStatus v = .ok u' := by
  simp only [McMainTransitionParams.validate, bind_eq_ok, orRaise_eq_ok, raiseIf_eq_ok,
    Bool.or_eq_false_iff, Tri.holds_or, Option.filter_eq_some_iff, Bool.and_eq_true] at h
  obtain ⟨-, ⟨⟨-, hlifecycle⟩, -⟩, _, -, j, hj, -, ⟨-, hmatch⟩, v, ⟨hv, ⟨hobj, -⟩, -⟩, hgate⟩ := h
  exact ⟨hlifecycle, j, v, u, hj, hmatch, hv, hobj, hgate⟩

/-- **The calls that change a job against the list** are those that leave the operation type or the
phase out, or spell the error code of a failure as something else than a string. -/
theorem mcMainTransition_admits_iff (t : ℤ) (calls : List Call) (call : Call)
    (p : McMainTransitionParams) (hrpc : call.rpc = .mcMainTransition p) (reply : Reply)
    (s' : Store) (hexec : ((World.initial t).run calls).exec call = .ok (reply, s'))
    (j j' : Job) (hj : j ∈ ((World.initial t).run calls).store.jobs) (hj' : j' ∈ s'.jobs)
    (hid : j'.id = j.id) (hchanged : j' ≠ j) : Admitted p j j'.status ↔ Spelled p := by
  have hinv := (invariant_run t calls).before call
  rw [World.exec, hrpc, Rpc.exec, map_eq_ok] at hexec
  obtain ⟨⟨r, s₁⟩, hcall, hr⟩ := hexec
  obtain ⟨-, rfl⟩ := Prod.mk.inj hr
  obtain ⟨_, hvalid, htransition⟩ := bind_eq_ok.1 hcall
  obtain ⟨tr, columns, hres, -, -, rfl⟩ := transitionOperationJob_eq_ok htransition
  have hids := hinv.ids
  -- the changed row is the one the transition wrote
  have hrow : j' = tr.row (((World.initial t).run calls).context call).now := by
    refine (Store.mem_replaceJob hj').resolve_right fun h => hchanged ?_
    exact Store.eq_of_id_eq hids h.1 hj hid
  have htr : tr.job = j := by
    refine Store.eq_of_id_eq hids hres.mem hj ?_
    rw [← hid, hrow]
    rfl
  obtain ⟨hlifecycle, k, v, u, hk, hmatch, hv, hobj, hgate⟩ := validate_eq_ok hvalid
  have hkj : k = j := by
    have hjob : p.jobId = some tr.job.id := hres.jobId
    rw [hjob, Option.bind_some] at hk
    obtain ⟨hmem, hkid⟩ := Store.job?_eq_some hk
    exact Store.eq_of_id_eq hids hmem hj (by rw [hkid, htr])
  subst hkj htr
  have hstatus : j'.status = tr.newStatus := by
    rw [hrow]
    rfl
  have hexpected : p.expectedStatus = some tr.job.status.text := hres.expectedStatus
  have hnew : p.newStatus = some tr.newStatus.text := hres.newStatus
  rw [hexpected, hnew] at hgate
  rw [hstatus]
  constructor
  · intro had
    rw [had.named] at hgate
    refine ⟨by rw [had.named]; rfl, fun w hw => ?_⟩
    rw [hv] at hw
    cases hw
    rw [hnew]
    exact (reportWords_iff hobj hgate).mp (hv ▸ had.words)
  · rintro ⟨hsome, hspelled⟩
    obtain ⟨op, hop⟩ := Option.isSome_iff_exists.mp hsome
    have hname : op = tr.job.operationType.text := by
      rw [hop, holds_ne_some, decide_eq_false_iff_not, not_not] at hmatch
      exact hmatch.symm
    rw [hname] at hop
    refine ⟨?_, hop, ?_⟩
    · rw [hop] at hlifecycle
      revert hlifecycle
      cases tr.job.operationType <;> decide
    · rw [hop] at hgate
      rw [hv]
      refine (reportWords_iff hobj hgate).mpr ?_
      have := hspelled v hv
      rwa [hnew] at this

end

/-! ## Two reports -/

section

open scoped Sample

/-- The agent reports with these details that it starts the sample job. -/
def sampleStarting (details : Jsonb) : McMainTransitionParams where
  serverId := some mcMainServerId
  jobId := some ⟨7⟩
  operationType := some "start_backend"
  expectedStatus := some "leased"
  newStatus := some "running"
  leaseOwner := some "agent-1"
  requestId := some ⟨5⟩
  details := some details

def sampleCall (details : Jsonb) : Call where
  elapsed := 1000000
  directory := sampleDirectory
  genRandomUuid := fun _ => ⟨9⟩
  lostEventIds := 0
  lostAuditIds := 0
  rpc := .mcMainTransition (sampleStarting details)

/-- An accepted report on the sample job. -/
def SampleStarted (details : Jsonb) : Prop :=
  ∃ reply s' j j', ((World.initial 0).run sampleRun).exec (sampleCall details) = .ok (reply, s') ∧
    j ∈ ((World.initial 0).run sampleRun).store.jobs ∧ j' ∈ s'.jobs ∧ j'.id = j.id ∧
    j.status = .leased ∧ j'.status = .running

theorem sampleStarted_of_run {details : Jsonb}
    (h : ((World.initial 0).run sampleRun).store.jobs.any (fun j =>
      j.id = ⟨7⟩ && j.status = .leased) = true)
    (h' : (((World.initial 0).run sampleRun).exec (sampleCall details)).map (fun r =>
      r.2.jobs.any fun j => j.id = ⟨7⟩ && j.status = .running) = .ok true) :
    SampleStarted details := by
  obtain ⟨⟨reply, s'⟩, hexec, hany⟩ := map_eq_ok.1 h'
  obtain ⟨j, hj, hjob⟩ := List.any_eq_true.1 h
  obtain ⟨j', hj', hjob'⟩ := List.any_eq_true.1 hany
  simp only [Bool.and_eq_true, decide_eq_true_eq] at hjob hjob'
  exact ⟨reply, s', j, j', hexec, hj, hj', hjob'.1.trans hjob.1.symm, hjob.2, hjob'.2⟩

theorem mcMainTransition_admits_sample :
    ∃ j newStatus, Admitted (sampleStarting (.buildObject [("phase", .str "executing")])) j newStatus := by
  have hstarted : SampleStarted (.buildObject [("phase", .str "executing")]) :=
    sampleStarted_of_run (by decide +kernel) (by decide +kernel)
  obtain ⟨reply, s', j, j', hexec, hj, hj', hid, hleased, hrunning⟩ := hstarted
  have hne : j' ≠ j := by
    rintro rfl
    rw [hleased] at hrunning
    cases hrunning
  refine ⟨j, j'.status, (mcMainTransition_admits_iff 0 sampleRun _ _ rfl reply s' hexec j j' hj hj'
    hid hne).mpr ⟨rfl, fun v hv => ?_⟩⟩
  cases hv
  exact ⟨by decide, nofun⟩

/-- A report without a phase starts the job. -/
theorem phaseless_report : ∃ reply s' j j',
    ((World.initial 0).run sampleRun).exec (sampleCall (.buildObject [("note", .str "started")])) =
      .ok (reply, s') ∧ j ∈ ((World.initial 0).run sampleRun).store.jobs ∧ j' ∈ s'.jobs ∧
    j'.id = j.id ∧ j' ≠ j ∧
    ¬ Admitted (sampleStarting (.buildObject [("note", .str "started")])) j j'.status := by
  have hstarted : SampleStarted (.buildObject [("note", .str "started")]) :=
    sampleStarted_of_run (by decide +kernel) (by decide +kernel)
  obtain ⟨reply, s', j, j', hexec, hj, hj', hid, hleased, hrunning⟩ := hstarted
  refine ⟨reply, s', j, j', hexec, hj, hj', hid, ?_, fun had => ?_⟩
  · rintro rfl
    rw [hleased] at hrunning
    cases hrunning
  · have hwords := had.words
    rw [hleased, hrunning] at hwords
    obtain ⟨v, hv, hexact⟩ := hwords
    cases hv
    exact absurd (exactFields_singleton.mp hexact).2.2 (by decide)

end

end IvrmDashboard.Operations

import IvrmDashboard.Cloud.Monitor
import IvrmDashboard.Foundations.Newest

/-!
# What the targets show

A batch is written as a whole or not at all. What a target shows is the newest of the reports that
were accepted while it was enabled, whatever the order in which they came (`CloudWorld.Merged`), and
its samples are the reports that changed it, in increasing order of their times. A nonce is accepted
again only after its request has been pruned.
-/

namespace IvrmDashboard.Cloud

open Sql Operations Notifications Newest

/-! ## What a call leaves behind -/

/-- The reports of a batch. -/
def IngestParams.reports (p : IngestParams) : List CloudReport :=
  match p.observedAt.bind Timestamptz.instant?, p.results with
  | some observedAt, some (.arr entries) => entries.filterMap (report? observedAt)
  | _, _ => []

namespace CloudWorld

/-- The target of the report is enabled. -/
def receives (w : CloudWorld) (r : CloudReport) : Bool :=
  w.targets.any fun t => t.id = r.targetId && t.enabled

/-- The reports a call brings to targets that are enabled, if it is accepted. -/
def received (w : CloudWorld) (c : CloudCall) : List CloudReport :=
  match c.request with
  | .ingest p => if w.answer c.now p = some .accepted then p.reports.filter w.receives else []
  | _ => []

/-- The reports a run has brought to a target while it was enabled, in the order of their
arrival. -/
def reportsFor (w : CloudWorld) (calls : List CloudCall) (id : String) : List CloudReport :=
  (Runs.trace step received w calls).filter fun r => r.targetId = id

end CloudWorld

/-! ## The tests of a batch -/

variable {w : CloudWorld} {now : ℤ} {p : IngestParams}

theorem checkEntries_eq_ok {serverId : String} {observedAt : ℤ} {entries : List Jsonb}
    {reports : List CloudReport} (h : w.checkEntries serverId observedAt entries = .ok reports) :
    reports = entries.filterMap (report? observedAt) ∧
      ∀ r ∈ reports, w.owns serverId r.targetId = true := by
  induction entries generalizing reports with
  | nil =>
    obtain rfl := Except.ok.inj h
    exact ⟨rfl, nofun⟩
  | cons r rs ih =>
    rw [CloudWorld.checkEntries] at h
    cases hr : report? observedAt r with
    | none => rw [hr] at h; cases h
    | some report =>
      simp only [hr] at h
      split at h
      next howns =>
        cases hrest : w.checkEntries serverId observedAt rs with
        | error e => rw [hrest] at h; cases h
        | ok rest =>
          rw [hrest] at h
          obtain rfl := Except.ok.inj h
          obtain ⟨rfl, hall⟩ := ih hrest
          refine ⟨by rw [List.filterMap_cons, hr], ?_⟩
          intro r' hr'
          rcases List.mem_cons.1 hr' with rfl | hr'
          · exact howns
          · exact hall r' hr'
      next => cases h

theorem header_eq_some {h : IngestHeader} (hh : p.header? now = some h) :
    p.nonce = some h.nonce ∧ p.observedAt.bind Timestamptz.instant? = some h.observedAt ∧
      p.results = some (.arr h.entries) := by
  unfold IngestParams.header? at hh
  obtain ⟨nonce, hnonce, hh⟩ := Option.bind_eq_some_iff.1 hh
  obtain ⟨body, hbody, hh⟩ := Option.bind_eq_some_iff.1 hh
  obtain ⟨observedAt, hobs, hh⟩ := Option.bind_eq_some_iff.1 hh
  split at hh
  next => cases hh
  next =>
    split at hh
    next entries hentries =>
      split at hh
      next =>
        obtain rfl := Option.some.inj hh
        exact ⟨(Option.filter_eq_some_iff.1 hnonce).1, hobs, hentries⟩
      next => cases hh
    next => cases hh

/-- What is known of a batch that passes. -/
theorem checkBatch_eq_ok {request : CloudRequest} {reports : List CloudReport}
    (h : w.checkBatch now p = .ok (request, reports)) :
    p.serverId = some request.collectorServerId ∧ p.nonce = some request.nonce ∧
      request.receivedAt = now ∧ reports = p.reports ∧
      (∀ r ∈ reports, ∃ t ∈ w.targets, t.id = r.targetId) ∧
      ∀ q ∈ w.requests, q.collectorServerId = request.collectorServerId → q.nonce ≠ request.nonce := by
  unfold CloudWorld.checkBatch at h
  cases hserver : p.serverId with
  | none => rw [hserver] at h; cases h
  | some serverId =>
    simp only [hserver] at h
    split at h
    next => cases h
    next =>
      cases hheader : p.header? now with
      | none => rw [hheader] at h; cases h
      | some hd =>
        simp only [hheader] at h
        obtain ⟨hnonce, hobs, hresults⟩ := header_eq_some hheader
        split at h
        next => cases h
        next hreplay =>
          split at h
          next => cases h
          next =>
            split at h
            next => cases h
            next =>
              cases hentries : w.checkEntries serverId hd.observedAt hd.entries with
              | error e => rw [hentries] at h; cases h
              | ok rs =>
                rw [hentries] at h
                obtain ⟨rfl, rfl⟩ := Prod.mk.inj (Except.ok.inj h)
                obtain ⟨hrs, howns⟩ := checkEntries_eq_ok hentries
                refine ⟨rfl, hnonce, rfl, ?_, ?_, ?_⟩
                · rw [hrs, IngestParams.reports, hobs, hresults]
                · intro r hr
                  obtain ⟨t, ht, hid⟩ := List.any_eq_true.1 (howns r hr)
                  simp only [Bool.and_eq_true, decide_eq_true_eq] at hid
                  exact ⟨t, ht, hid.1⟩
                · intro q hq hs hn
                  apply hreplay
                  refine List.any_eq_true.2 ⟨q, hq, ?_⟩
                  simp only [Bool.and_eq_true, decide_eq_true_eq]
                  exact ⟨hs, hn⟩

/-! ## Writing a batch -/

/-- The target shows what a register holds, or what it shows before its first report. -/
def CloudTarget.Shows (t : CloudTarget) : Option CloudReport → Prop
  | none => t.status = .unknown ∧ t.reasonCode = .notReceived ∧ t.observedAt = none
  | some r => t.status = r.status ∧ t.reasonCode = r.reasonCode ∧ t.observedAt = some r.observedAt

/-- The reports of a log that are about a target. -/
def reportsOf (log : List CloudReport) (id : String) : List CloudReport :=
  log.filter fun r => r.targetId = id

/-- The tables are those of a log of reports: every target shows the newest, and its samples have
increasing times, the last of them not later than what it shows. -/
structure CloudWorld.Merged (log : List CloudReport) (w : CloudWorld) : Prop where
  ids : (w.targets.map (·.id)).Nodup
  shown : ∀ t ∈ w.targets, t.Shows (newest (·.observedAt) (reportsOf log t.id))
  known : ∀ r ∈ log, ∃ t ∈ w.targets, t.id = r.targetId
  sampleIds : ∀ s ∈ w.samples, s.id < w.nextSampleId
  ordered : w.samples.Pairwise fun a b => a.id < b.id
  below : ∀ s ∈ w.samples, ∃ t ∈ w.targets, t.id = s.targetId ∧ ∃ o ∈ t.observedAt, s.observedAt ≤ o
  increasing : w.samples.Pairwise fun a b => a.targetId = b.targetId → a.observedAt < b.observedAt

variable {log : List CloudReport} {r : CloudReport} {t u : CloudTarget}

/-- What the invariant reads of a target. -/
def CloudTarget.view (t : CloudTarget) : String × CloudStatus × ReasonCode × Option ℤ :=
  (t.id, t.status, t.reasonCode, t.observedAt)

theorem CloudTarget.Shows.congr {held : Option CloudReport} (h : t.Shows held)
    (hview : u.view = t.view) : u.Shows held := by
  simp only [CloudTarget.view, Prod.mk.injEq] at hview
  obtain ⟨-, hs, hr, ho⟩ := hview
  cases held with
  | none => exact ⟨hs.trans h.1, hr.trans h.2.1, ho.trans h.2.2⟩
  | some r => exact ⟨hs.trans h.1, hr.trans h.2.1, ho.trans h.2.2⟩

/-- The targets keep what the invariant reads of them, and samples are only removed. -/
theorem CloudWorld.Merged.frame {w' : CloudWorld} (h : w.Merged log)
    (htargets : w'.targets.map (·.view) = w.targets.map (·.view))
    (hsamples : w'.samples.Sublist w.samples) (hnext : w'.nextSampleId = w.nextSampleId) :
    w'.Merged log := by
  have there : ∀ t ∈ w.targets, ∃ u ∈ w'.targets, u.view = t.view := by
    intro t ht
    exact List.mem_map.1 (htargets ▸ List.mem_map_of_mem ht)
  have back : ∀ u ∈ w'.targets, ∃ t ∈ w.targets, t.view = u.view := by
    intro u hu
    exact List.mem_map.1 (htargets ▸ List.mem_map_of_mem hu)
  constructor
  · have hids := congrArg (List.map Prod.fst) htargets
    rw [List.map_map, List.map_map] at hids
    exact hids ▸ h.ids
  · intro u hu
    obtain ⟨t, ht, hview⟩ := back u hu
    have hid : t.id = u.id := congrArg Prod.fst hview
    exact hid ▸ (h.shown t ht).congr hview.symm
  · intro r hr
    obtain ⟨t, ht, hid⟩ := h.known r hr
    obtain ⟨u, hu, hview⟩ := there t ht
    exact ⟨u, hu, (congrArg Prod.fst hview).trans hid⟩
  · intro s hs
    rw [hnext]
    exact h.sampleIds s (hsamples.subset hs)
  · exact h.ordered.sublist hsamples
  · intro s hs
    obtain ⟨t, ht, hid, o, ho, hle⟩ := h.below s (hsamples.subset hs)
    obtain ⟨u, hu, hview⟩ := there t ht
    simp only [CloudTarget.view, Prod.mk.injEq] at hview
    exact ⟨u, hu, hview.1.trans hid, o, hview.2.2.2 ▸ ho, hle⟩
  · exact h.increasing.sublist hsamples

theorem takes_eq_true : t.takes r = true ↔
    t.id = r.targetId ∧ t.enabled = true ∧ ∀ o ∈ t.observedAt, o < r.observedAt := by
  simp only [CloudTarget.takes, Bool.and_eq_true, decide_eq_true_eq, Option.all_eq_true, and_assoc]
  rfl

/-- The targets of one id are one. -/
theorem CloudWorld.Merged.target_unique (h : w.Merged log) (ht : t ∈ w.targets)
    (hu : u ∈ w.targets) (hid : t.id = u.id) : t = u :=
  List.inj_on_of_nodup_map h.ids ht hu hid

@[simp] theorem reportsOf_concat_self (log : List CloudReport) (r : CloudReport) :
    reportsOf (log ++ [r]) r.targetId = reportsOf log r.targetId ++ [r] := by
  simp [reportsOf]

theorem reportsOf_concat_of_ne {id : String} (h : r.targetId ≠ id) :
    reportsOf (log ++ [r]) id = reportsOf log id := by
  simp [reportsOf, h]

/-- A report is newer than what the register of a target holds when the target takes it. -/
theorem CloudTarget.Shows.newer_iff {held : Option CloudReport} (h : t.Shows held) :
    Newer (·.observedAt) held r ↔ ∀ o ∈ t.observedAt, o < r.observedAt := by
  cases held with
  | none =>
    rw [h.2.2]
    exact iff_of_true nofun nofun
  | some q =>
    rw [h.2.2]
    simp [Newer]

/-- A report that no target takes leaves every register as it is. -/
theorem CloudWorld.Merged.drop (h : w.Merged log) (hr : w.receives r = true)
    (hnone : ∀ t ∈ w.targets, t.takes r = false) : w.Merged (log ++ [r]) := by
  obtain ⟨u, hu, hid⟩ := List.any_eq_true.1 hr
  simp only [Bool.and_eq_true, decide_eq_true_eq] at hid
  have hold : ¬ ∀ o ∈ u.observedAt, o < r.observedAt := fun hlt =>
    Bool.eq_false_iff.1 (hnone u hu) (takes_eq_true.2 ⟨hid.1, hid.2, hlt⟩)
  refine { h with shown := ?_, known := ?_ }
  · intro t ht
    by_cases hne : r.targetId = t.id
    · obtain rfl := h.target_unique ht hu (hne.symm.trans hid.1.symm)
      rw [← hne, reportsOf_concat_self, newest_concat, keep, if_neg, hne]
      · exact h.shown t ht
      · rw [hne, (h.shown t ht).newer_iff]
        exact hold
    · rw [reportsOf_concat_of_ne hne]
      exact h.shown t ht
  · intro q hq
    rcases List.mem_append.1 hq with hq | hq
    · exact h.known q hq
    · rw [List.mem_singleton.1 hq]
      exact ⟨u, hu, hid.1⟩

/-- A report that a target takes. -/
theorem CloudWorld.Merged.take (h : w.Merged log) (ht : t ∈ w.targets) (htake : t.takes r = true) :
    CloudWorld.Merged (log ++ [r])
      { w with
        targets := updateWhere (·.takes r) (·.show now r) w.targets
        samples := w.samples ++ [r.sample w.nextSampleId now]
        nextSampleId := w.nextSampleId + 1 } := by
  obtain ⟨hid, hen, hnewer⟩ := takes_eq_true.1 htake
  have honly : ∀ u ∈ w.targets, u.id = r.targetId → u = t := fun u hu huid =>
    h.target_unique hu ht (huid.trans hid.symm)
  have hnew : t.show now r ∈ updateWhere (·.takes r) (·.show now r) w.targets :=
    mem_updateWhere.2 ⟨t, ht, if_pos htake⟩
  have hkeep : ∀ u ∈ w.targets, u.id ≠ r.targetId →
      u ∈ updateWhere (·.takes r) (·.show now r) w.targets := by
    intro u hu hne
    refine mem_updateWhere.2 ⟨u, hu, if_neg fun h => hne (takes_eq_true.1 h).1⟩
  -- an older sample of the target is not later than what the target showed
  have hbefore : ∀ s ∈ w.samples, s.targetId = r.targetId → s.observedAt < r.observedAt := by
    intro s hs hst
    obtain ⟨u, hu, huid, o, ho, hle⟩ := h.below s hs
    obtain rfl := honly u hu (huid.trans hst)
    exact lt_of_le_of_lt hle (hnewer o ho)
  constructor
  · have hmap : (updateWhere (·.takes r) (·.show now r) w.targets).map (·.id) =
        w.targets.map (·.id) := map_updateWhere fun _ => rfl
    dsimp only
    rw [hmap]
    exact h.ids
  · intro u hu
    obtain ⟨v, hv, rfl⟩ := mem_updateWhere.1 hu
    by_cases hvid : v.id = r.targetId
    · obtain rfl := honly v hv hvid
      rw [if_pos htake]
      have hshow : newest (·.observedAt) (reportsOf (log ++ [r]) v.id) = some r := by
        rw [hvid, reportsOf_concat_self, newest_concat, keep, if_pos]
        rw [← hvid, (h.shown v hv).newer_iff]
        exact hnewer
      exact hshow ▸ ⟨rfl, rfl, rfl⟩
    · rw [if_neg fun hv => hvid (takes_eq_true.1 hv).1, reportsOf_concat_of_ne (Ne.symm hvid)]
      exact h.shown v hv
  · intro q hq
    rcases List.mem_append.1 hq with hq | hq
    · obtain ⟨u, hu, huid⟩ := h.known q hq
      by_cases hne : u.id = r.targetId
      · exact ⟨t.show now r, hnew, hid.trans (hne.symm.trans huid)⟩
      · exact ⟨u, hkeep u hu hne, huid⟩
    · rw [List.mem_singleton.1 hq]
      exact ⟨t.show now r, hnew, hid⟩
  · intro s hs
    rcases List.mem_append.1 hs with hs | hs
    · exact Nat.lt_succ_of_lt (h.sampleIds s hs)
    · rw [List.mem_singleton.1 hs]
      exact Nat.lt_succ_self _
  · rw [List.pairwise_append]
    refine ⟨h.ordered, List.pairwise_singleton _ _, ?_⟩
    intro s hs s' hs'
    rw [List.mem_singleton.1 hs']
    exact h.sampleIds s hs
  · intro s hs
    rcases List.mem_append.1 hs with hs | hs
    · by_cases hst : s.targetId = r.targetId
      · exact ⟨t.show now r, hnew, hid.trans hst.symm, r.observedAt, rfl,
          le_of_lt (hbefore s hs hst)⟩
      · obtain ⟨u, hu, huid, ho⟩ := h.below s hs
        exact ⟨u, hkeep u hu (huid ▸ hst), huid, ho⟩
    · rw [List.mem_singleton.1 hs]
      exact ⟨t.show now r, hnew, hid, r.observedAt, rfl, le_refl _⟩
  · rw [List.pairwise_append]
    refine ⟨h.increasing, List.pairwise_singleton _ _, ?_⟩
    intro s hs s' hs'
    rw [List.mem_singleton.1 hs']
    exact hbefore s hs

theorem CloudWorld.Merged.applyReport (h : w.Merged log) (now : ℤ) (r : CloudReport) :
    (applyReport now w r).Merged (log ++ if w.receives r then [r] else []) := by
  unfold Cloud.applyReport
  by_cases htake : w.targets.any (·.takes r) = true
  · rw [if_pos htake]
    obtain ⟨t, ht, htake⟩ := List.any_eq_true.1 htake
    obtain ⟨hid, hen, -⟩ := takes_eq_true.1 htake
    have hreceives : w.receives r = true := by
      refine List.any_eq_true.2 ⟨t, ht, ?_⟩
      simp [hid, hen]
    rw [if_pos hreceives]
    exact h.take ht htake
  · rw [if_neg htake]
    have hnone : ∀ t ∈ w.targets, t.takes r = false := fun t ht =>
      Bool.eq_false_iff.2 fun htakes => htake (List.any_eq_true.2 ⟨t, ht, htakes⟩)
    cases hr : w.receives r with
    | true => exact h.drop hr hnone
    | false => simpa using h

/-- A report changes neither which targets there are nor which are enabled. -/
theorem applyReport_targets (now : ℤ) (w : CloudWorld) (r : CloudReport) :
    (applyReport now w r).targets.map (fun t => (t.id, t.enabled)) =
      w.targets.map (fun t => (t.id, t.enabled)) := by
  unfold applyReport
  split
  next => exact map_updateWhere fun _ => rfl
  next => rfl

theorem receives_congr {w' : CloudWorld} (h : w'.targets.map (fun t => (t.id, t.enabled)) =
    w.targets.map (fun t => (t.id, t.enabled))) (r : CloudReport) :
    w'.receives r = w.receives r := by
  have hany : ∀ v : CloudWorld, v.receives r =
      (v.targets.map fun t => (t.id, t.enabled)).any fun x => x.1 = r.targetId && x.2 := by
    intro v
    rw [List.any_map]
    rfl
  rw [hany, hany, h]

/-- The whole batch. -/
theorem CloudWorld.Merged.applyReports (h : w.Merged log) (now : ℤ) (reports : List CloudReport) :
    (reports.foldl (Cloud.applyReport now) w).Merged (log ++ reports.filter w.receives) := by
  induction reports generalizing w log with
  | nil => simpa using h
  | cons r reports ih =>
    have hframe := applyReport_targets now w r
    have hrest := ih (h.applyReport now r)
    have hfilter : reports.filter (Cloud.applyReport now w r).receives =
        reports.filter w.receives :=
      List.filter_congr fun q _ => receives_congr hframe q
    rw [hfilter, List.append_assoc] at hrest
    rw [List.foldl_cons, List.filter_cons]
    cases hr : w.receives r with
    | true => simpa [hr] using hrest
    | false => simpa [hr] using hrest

/-! ## Calls -/

theorem reconcile_eq_ok {w' : CloudWorld} {n : ℕ}
    (h : reconcileCloudMonitorSignals now w = .ok (n, w')) : ∃ b, w' = { w with board := b } := by
  obtain ⟨s, -, hs⟩ := bind_eq_ok.1 h
  exact ⟨s.2, (Prod.mk.inj (Except.ok.inj hs)).2.symm⟩

/-- An ingestion that commits either answers what is in the way, or writes the batch. -/
theorem ingest_eq_ok {result : IngestResult} {w' : CloudWorld}
    (h : ingestCloudMonitor now p w = .ok (result, w')) :
    (w.checkBatch now p = .error result ∧ w' = w) ∨
      ∃ request reports b, w.checkBatch now p = .ok (request, reports) ∧ result = .accepted ∧
        w' = { reports.foldl (applyReport now) { w with requests := w.requests ++ [request] } with
          board := b } := by
  unfold ingestCloudMonitor at h
  cases hcheck : w.checkBatch now p with
  | error e =>
    rw [hcheck] at h
    obtain ⟨rfl, rfl⟩ := Prod.mk.inj (Except.ok.inj h)
    exact .inl ⟨rfl, rfl⟩
  | ok batch =>
    rw [hcheck] at h
    obtain ⟨request, reports⟩ := batch
    obtain ⟨⟨n, w''⟩, hrec, hw'⟩ := bind_eq_ok.1 h
    obtain ⟨b, rfl⟩ := reconcile_eq_ok hrec
    obtain ⟨rfl, rfl⟩ := Prod.mk.inj (Except.ok.inj hw')
    exact .inr ⟨request, reports, b, rfl, rfl, rfl⟩

/-- A batch is never refused by the answer that accepts it. -/
theorem checkBatch_ne_accepted : w.checkBatch now p ≠ .error .accepted := by
  have hentries : ∀ serverId observedAt entries,
      w.checkEntries serverId observedAt entries ≠ .error .accepted := by
    intro serverId observedAt entries
    induction entries with
    | nil => exact nofun
    | cons r rs ih =>
      rw [CloudWorld.checkEntries]
      cases report? observedAt r with
      | none => exact nofun
      | some report =>
        dsimp only
        split
        next =>
          cases hrest : w.checkEntries serverId observedAt rs with
          | error e =>
            intro h
            exact ih (hrest.trans (congrArg Except.error (Except.error.inj h)))
          | ok rest => exact nofun
        next => exact nofun
  unfold CloudWorld.checkBatch
  cases p.serverId with
  | none => exact nofun
  | some serverId =>
    dsimp only
    split
    next => exact nofun
    next =>
      cases p.header? now with
      | none => exact nofun
      | some hd =>
        dsimp only
        split_ifs
        · exact nofun
        · exact nofun
        · exact nofun
        · cases hrest : w.checkEntries serverId hd.observedAt hd.entries with
          | error e =>
            intro h
            exact hentries serverId hd.observedAt hd.entries
              (hrest.trans (congrArg Except.error (Except.error.inj h)))
          | ok rest => exact nofun

theorem step_ingest_of_ok {result : IngestResult} {w' : CloudWorld}
    (h : ingestCloudMonitor now p w = .ok (result, w')) : w.step ⟨now, .ingest p⟩ = w' := by
  simp only [CloudWorld.step, CloudWorld.apply, h, Except.map]

theorem step_ingest_of_error {e : DbError} (h : ingestCloudMonitor now p w = .error e) :
    w.step ⟨now, .ingest p⟩ = w := by
  simp only [CloudWorld.step, CloudWorld.apply, h, Except.map]

/-- An accepted ingestion, as a step of the tables. -/
theorem step_of_accepted (h : w.answer now p = some .accepted) :
    ∃ request reports b, w.checkBatch now p = .ok (request, reports) ∧
      w.step ⟨now, .ingest p⟩ =
        { reports.foldl (applyReport now) { w with requests := w.requests ++ [request] } with
          board := b } := by
  unfold CloudWorld.answer at h
  cases hi : ingestCloudMonitor now p w with
  | error e => rw [hi] at h; cases h
  | ok r =>
    obtain ⟨result, w'⟩ := r
    rw [hi] at h
    obtain rfl : result = .accepted := Option.some.inj h
    rcases ingest_eq_ok hi with ⟨hcheck, -⟩ | ⟨request, reports, b, hcheck, -, rfl⟩
    · exact absurd hcheck checkBatch_ne_accepted
    · exact ⟨request, reports, b, hcheck, step_ingest_of_ok hi⟩

/-- **Whatever is not accepted changes nothing.** -/
theorem step_of_not_accepted (h : w.answer now p ≠ some .accepted) :
    w.step ⟨now, .ingest p⟩ = w := by
  cases hi : ingestCloudMonitor now p w with
  | error e => exact step_ingest_of_error hi
  | ok r =>
    obtain ⟨result, w'⟩ := r
    rw [step_ingest_of_ok hi]
    rcases ingest_eq_ok hi with ⟨-, rfl⟩ | ⟨-, -, -, -, rfl, -⟩
    · rfl
    · unfold CloudWorld.answer at h
      rw [hi] at h
      exact absurd rfl h

/-! ## Runs -/

theorem merged_fresh (settings : Settings) (board : Board) :
    (CloudWorld.fresh settings board).Merged [] where
  ids := List.nodup_nil
  shown _ ht := absurd ht List.not_mem_nil
  known _ hr := absurd hr List.not_mem_nil
  sampleIds _ hs := absurd hs List.not_mem_nil
  ordered := List.Pairwise.nil
  below _ hs := absurd hs List.not_mem_nil
  increasing := List.Pairwise.nil

/-- What a call does to the tables, with the reports it brings. -/
inductive Change (w : CloudWorld) (c : CloudCall) : List CloudReport → CloudWorld → Prop
  | same : Change w c [] w
  | batch (p request reports b) (hc : c.request = .ingest p)
      (hcheck : w.checkBatch c.now p = .ok (request, reports)) :
      Change w c (reports.filter w.receives)
        { reports.foldl (applyReport c.now) { w with requests := w.requests ++ [request] } with
          board := b }
  | prune (hc : c.request = .prune) : Change w c [] (pruneCloudMonitorHistory c.now w)
  | register (t : CloudTarget) (hnew : ∀ u ∈ w.targets, u.id ≠ t.id) (ht : t.Shows none) :
      Change w c [] { w with targets := w.targets ++ [t] }
  | configure (q : CloudTarget → Bool) (k) :
      Change w c [] { w with targets := updateWhere q (·.configure k) w.targets }
  | outside (settings board) : Change w c [] { w with settings, board }

theorem registerTarget_eq_ok {w' : CloudWorld} {id : String} {k : TargetConfig}
    (h : registerTarget now id k w = .ok w') : w' = w ∨
      ∃ t : CloudTarget, (∀ u ∈ w.targets, u.id ≠ t.id) ∧ t.Shows none ∧
        w' = { w with targets := w.targets ++ [t] } := by
  obtain ⟨-, -, h⟩ := bind_eq_ok.1 h
  obtain ⟨-, -, h⟩ := bind_eq_ok.1 h
  split at h
  next => exact .inl (pure_eq_ok.1 h).symm
  next hnew =>
    refine .inr ⟨_, ?_, ?_, (pure_eq_ok.1 h).symm⟩
    · intro u hu hid
      exact hnew (List.any_eq_true.2 ⟨u, hu, decide_eq_true hid⟩)
    · exact ⟨rfl, rfl, rfl⟩

theorem step_of_apply {w' : CloudWorld} {c : CloudCall} (h : w.apply c = .ok w') :
    w.step c = w' := by
  rw [CloudWorld.step, h]

theorem step_of_error {c : CloudCall} {e : DbError} (h : w.apply c = .error e) :
    w.step c = w := by
  rw [CloudWorld.step, h]

theorem step_change (w : CloudWorld) (c : CloudCall) : Change w c (w.received c) (w.step c) := by
  obtain ⟨now, request⟩ := c
  cases request with
  | ingest p =>
    rw [CloudWorld.received]
    by_cases hacc : w.answer now p = some .accepted
    · obtain ⟨request, reports, b, hcheck, hstep⟩ := step_of_accepted hacc
      obtain ⟨-, -, -, hreports, -⟩ := checkBatch_eq_ok hcheck
      simp only [if_pos hacc]
      rw [hstep, ← hreports]
      exact .batch p request reports b rfl hcheck
    · simp only [if_neg hacc]
      rw [step_of_not_accepted hacc]
      exact .same
  | reconcile =>
    cases h : reconcileCloudMonitorSignals now w with
    | error e =>
      have happly : w.apply ⟨now, .reconcile⟩ = .error e := by
        rw [CloudWorld.apply, h, Except.map]
      rw [step_of_error happly]
      exact .same
    | ok r =>
      obtain ⟨n, w'⟩ := r
      obtain ⟨b, rfl⟩ := reconcile_eq_ok h
      have happly : w.apply ⟨now, .reconcile⟩ = .ok { w with board := b } := by
        rw [CloudWorld.apply, h, Except.map]
      rw [step_of_apply happly]
      exact .outside w.settings b
  | prune => exact .prune rfl
  | register id k =>
    cases h : registerTarget now id k w with
    | error e =>
      have happly : w.apply ⟨now, .register id k⟩ = .error e := h
      rw [step_of_error happly]
      exact .same
    | ok w' =>
      have happly : w.apply ⟨now, .register id k⟩ = .ok w' := h
      rw [step_of_apply happly]
      rcases registerTarget_eq_ok h with rfl | ⟨t, hnew, ht, rfl⟩
      · exact .same
      · exact .register t hnew ht
  | configure id k =>
    cases h : configureTarget id k w with
    | error e =>
      have happly : w.apply ⟨now, .configure id k⟩ = .error e := h
      rw [step_of_error happly]
      exact .same
    | ok w' =>
      have happly : w.apply ⟨now, .configure id k⟩ = .ok w' := h
      rw [step_of_apply happly]
      obtain ⟨-, -, hw'⟩ := bind_eq_ok.1 h
      obtain rfl := pure_eq_ok.1 hw'
      exact .configure _ k
  | outside settings board => exact .outside settings board

/-- Another table of the same targets and samples. -/
theorem CloudWorld.Merged.of_eq {w' : CloudWorld} (h : w.Merged log)
    (htargets : w'.targets = w.targets) (hsamples : w'.samples = w.samples)
    (hnext : w'.nextSampleId = w.nextSampleId) : w'.Merged log :=
  h.frame (by rw [htargets]) (by rw [hsamples]) hnext

/-- A target that is new has no reports behind it. -/
theorem CloudWorld.Merged.register (h : w.Merged log) (hnew : ∀ u ∈ w.targets, u.id ≠ t.id)
    (ht : t.Shows none) : CloudWorld.Merged log { w with targets := w.targets ++ [t] } := by
  refine { h with ids := ?_, shown := ?_, known := ?_, below := ?_ }
  · rw [List.map_append, List.nodup_append]
    refine ⟨h.ids, List.nodup_singleton _, ?_⟩
    intro a ha b hb
    obtain ⟨u, hu, rfl⟩ := List.mem_map.1 ha
    rw [List.mem_singleton.1 hb]
    exact hnew u hu
  · intro u hu
    rcases List.mem_append.1 hu with hu | hu
    · exact h.shown u hu
    · have hnone : reportsOf log t.id = [] := by
        refine List.filter_eq_nil_iff.2 fun r hr => ?_
        obtain ⟨v, hv, hid⟩ := h.known r hr
        rw [decide_eq_true_eq, ← hid]
        exact hnew v hv
      rw [List.mem_singleton.1 hu, hnone]
      exact ht
  · intro r hr
    obtain ⟨u, hu, hid⟩ := h.known r hr
    exact ⟨u, List.mem_append_left _ hu, hid⟩
  · intro s hs
    obtain ⟨u, hu, hid⟩ := h.below s hs
    exact ⟨u, List.mem_append_left _ hu, hid⟩

theorem CloudWorld.Merged.change {c : CloudCall} {out : List CloudReport} {w' : CloudWorld}
    (h : w.Merged log) (hchange : Change w c out w') : w'.Merged (log ++ out) := by
  cases hchange with
  | same => simpa using h
  | batch p request reports b hc hcheck =>
    have hw : CloudWorld.Merged log { w with requests := w.requests ++ [request] } :=
      h.of_eq rfl rfl rfl
    exact (hw.applyReports c.now reports).of_eq rfl rfl rfl
  | prune =>
    rw [List.append_nil]
    exact h.frame rfl List.filter_sublist rfl
  | register t hnew ht =>
    rw [List.append_nil]
    exact h.register hnew ht
  | configure q k =>
    rw [List.append_nil]
    exact h.frame (map_updateWhere fun _ => rfl) (List.Sublist.refl _) rfl
  | outside settings board =>
    rw [List.append_nil]
    exact h.of_eq rfl rfl rfl

/-- **Every run merges the reports it accepts.** -/
theorem merged_run (settings : Settings) (board : Board) (calls : List CloudCall) :
    ((CloudWorld.fresh settings board).run calls).Merged
      (Runs.trace CloudWorld.step CloudWorld.received (.fresh settings board) calls) :=
  Runs.run_trace (P := fun log w => CloudWorld.Merged log w)
    (fun _ w c h => h.change (step_change w c)) (merged_fresh settings board) calls

/-! ## Nonces -/

theorem foldl_applyReport_requests (reports : List CloudReport) (w : CloudWorld) :
    (reports.foldl (applyReport now) w).requests = w.requests := by
  induction reports generalizing w with
  | nil => rfl
  | cons r reports ih =>
    rw [List.foldl_cons, ih, applyReport]
    split
    next => rfl
    next => rfl

/-- A request goes only when it is pruned. -/
theorem mem_requests_step {c : CloudCall} {q : CloudRequest} (hq : q ∈ w.requests) :
    q ∈ (w.step c).requests ∨ c.request = .prune ∧ q.receivedAt < c.now - day := by
  generalize hw' : w.step c = w'
  have hchange := step_change w c
  rw [hw'] at hchange
  generalize w.received c = out at hchange
  cases hchange with
  | same => exact .inl hq
  | batch p request reports b hc hcheck =>
    refine .inl ?_
    dsimp only
    rw [foldl_applyReport_requests]
    exact List.mem_append_left _ hq
  | prune hc =>
    by_cases hold : c.now - day ≤ q.receivedAt
    · exact .inl (List.mem_filter.2 ⟨hq, decide_eq_true hold⟩)
    · exact .inr ⟨hc, lt_of_not_ge hold⟩
  | register t hnew ht => exact .inl hq
  | configure f k => exact .inl hq
  | outside settings board => exact .inl hq

/-- A request that an accepted call leaves. -/
theorem accepted_request (h : w.answer now p = some .accepted) :
    ∃ q ∈ (w.step ⟨now, .ingest p⟩).requests, p.serverId = some q.collectorServerId ∧
      p.nonce = some q.nonce ∧ q.receivedAt = now := by
  obtain ⟨request, reports, b, hcheck, hstep⟩ := step_of_accepted h
  obtain ⟨hserver, hnonce, hat, -⟩ := checkBatch_eq_ok hcheck
  refine ⟨request, ?_, hserver, hnonce, hat⟩
  rw [hstep]
  dsimp only
  rw [foldl_applyReport_requests]
  simp

/-- An accepted call finds no request of its nonce. -/
theorem accepted_fresh {q : CloudRequest} (h : w.answer now p = some .accepted)
    (hserver : p.serverId = some q.collectorServerId) (hnonce : p.nonce = some q.nonce) :
    q ∉ w.requests := by
  obtain ⟨request, reports, b, hcheck, -⟩ := step_of_accepted h
  obtain ⟨hserver', hnonce', -, -, -, hfresh⟩ := checkBatch_eq_ok hcheck
  intro hq
  apply hfresh q hq
  · exact Option.some.inj (hserver.symm.trans hserver')
  · exact Option.some.inj (hnonce.symm.trans hnonce')

/-- Between two calls of one nonce that are accepted, the request of the first is pruned. -/
theorem pruned_between {mid : List CloudCall} {c c' : CloudCall} {p p' : IngestParams}
    (hc : c.request = .ingest p) (hserver : p'.serverId = p.serverId) (hnonce : p'.nonce = p.nonce)
    (hacc : w.answer c.now p = some .accepted)
    (hacc' : ((w.step c).run mid).answer c'.now p' = some .accepted) :
    ∃ d ∈ mid, d.request = .prune ∧ c.now < d.now - day := by
  obtain ⟨now, request⟩ := c
  obtain rfl : request = .ingest p := hc
  obtain ⟨q, hq, hqs, hqn, hqt⟩ := accepted_request hacc
  have hgone : q ∉ ((w.step ⟨now, .ingest p⟩).run mid).requests :=
    accepted_fresh hacc' (hserver.trans hqs) (hnonce.trans hqn)
  obtain ⟨front, d, back, rfl, hthere, hlost⟩ :=
    Runs.exists_leaving (P := fun v : CloudWorld => q ∈ v.requests) hq hgone
  rcases mem_requests_step (c := d) hthere with h | ⟨hprune, hold⟩
  · exact absurd h hlost
  · exact ⟨d, by simp, hprune, hqt ▸ hold⟩

/-! ## The law of ingestion -/

/-- **Ingestion is all or nothing, and the order of arrival does not matter.** A call that is not
accepted changes no table. In every run each target shows the first of the newest reports accepted
while it was enabled, or its defaults; the samples of a target stand in the order of their insertion
and of their times; and a nonce is accepted twice only after its request has been pruned. -/
theorem ingest_all_or_nothing_and_merges (settings : Settings) (board : Board) :
    (∀ (w : CloudWorld) (now : ℤ) (p : IngestParams), w.answer now p ≠ some .accepted →
      w.step ⟨now, .ingest p⟩ = w) ∧
    ∀ calls : List CloudCall,
      (∀ t ∈ ((CloudWorld.fresh settings board).run calls).targets,
        ((CloudWorld.fresh settings board).reportsFor calls t.id = [] ∧ t.status = .unknown ∧
          t.reasonCode = .notReceived ∧ t.observedAt = none) ∨
        ∃ r, IsNewest (·.observedAt) ((CloudWorld.fresh settings board).reportsFor calls t.id) r ∧
          t.status = r.status ∧ t.reasonCode = r.reasonCode ∧ t.observedAt = some r.observedAt) ∧
      (((CloudWorld.fresh settings board).run calls).samples.Pairwise fun a b => a.id < b.id) ∧
      (((CloudWorld.fresh settings board).run calls).samples.Pairwise fun a b =>
        a.targetId = b.targetId → a.observedAt < b.observedAt) ∧
      ∀ front c mid c' back p p', calls = front ++ c :: (mid ++ c' :: back) →
        c.request = .ingest p → c'.request = .ingest p' →
        p'.serverId = p.serverId → p'.nonce = p.nonce →
        ((CloudWorld.fresh settings board).run front).answer c.now p = some .accepted →
        ((CloudWorld.fresh settings board).run (front ++ c :: mid)).answer c'.now p' =
          some .accepted →
        ∃ d ∈ mid, d.request = .prune ∧ c.now < d.now - day := by
  refine ⟨fun w now p h => step_of_not_accepted h, fun calls => ?_⟩
  have hmerged := merged_run settings board calls
  refine ⟨?_, hmerged.ordered, hmerged.increasing, ?_⟩
  · intro t ht
    have hshown := hmerged.shown t ht
    cases hnewest : newest (·.observedAt) (reportsOf (Runs.trace CloudWorld.step
        CloudWorld.received (.fresh settings board) calls) t.id) with
    | none =>
      rw [hnewest] at hshown
      exact .inl ⟨newest_eq_none.1 hnewest, hshown⟩
    | some r =>
      rw [hnewest] at hshown
      exact .inr ⟨r, newest_eq_some.1 hnewest, hshown⟩
  · intro front c mid c' back p p' _ hc _ hserver hnonce hacc hacc'
    apply pruned_between hc hserver hnonce hacc
    rw [CloudWorld.run, Runs.run_append, Runs.run_cons] at hacc'
    exact hacc'

end IvrmDashboard.Cloud

import Mathlib.Data.List.Chain
import IvrmDashboard.Operations.Invariants

/-!
# The event log refines the status of a job

The events of a job are a complete account of its status (`EventLog`): they start with its
request, each continues where the one before it stopped and makes one of the allowed steps, a
renewal keeps the status, the last one ends in the status of the row, and nothing follows an end.
The columns of the row that describe an end are set exactly in the terminal statuses that have
them. Both hold of every job after every run (`operation_events_refine_status`).
-/

namespace IvrmDashboard.Operations

open Sql

/-- What the events of a job, in the order of their ids, say about its status `st`. -/
structure EventLog (es : List OperationEvent) (st : JobStatus) : Prop where
  ids : es.Pairwise fun e f => e.id < f.id
  first : ∃ e rest, es = e :: rest ∧ e.eventType = .requested ∧ e.previousStatus = none ∧
    e.newStatus = .queued ∧ ∀ f ∈ rest, f.eventType ≠ .requested
  chain : es.IsChain fun e f => f.previousStatus = some e.newStatus
  renewals : ∀ e ∈ es, e.eventType = .leaseRenewed →
    e.previousStatus = some e.newStatus ∧ (e.newStatus = .leased ∨ e.newStatus = .running)
  edges : ∀ e ∈ es, e.eventType ≠ .requested → e.eventType ≠ .leaseRenewed →
    ∃ st, e.previousStatus = some st ∧ st.edge e.newStatus = true
  last : es.getLast?.map (·.newStatus) = some st
  ends : ∀ front e back, es = front ++ e :: back →
    e.newStatus ∈ [JobStatus.succeeded, .failed, .cancelled, .expired] → back = []

/-- The columns that describe the end of a job. -/
structure EndColumns (j : Job) : Prop where
  finishedAt : j.finishedAt ≠ none ↔ j.status ∈ [JobStatus.succeeded, .failed, .cancelled, .expired]
  errorCode : j.errorCode ≠ none ↔ j.status ∈ [JobStatus.failed, .expired]
  resultSummary : j.resultSummary ≠ none ↔ j.status ∈ [JobStatus.succeeded, .failed, .expired]

theorem eventType_ne (st : JobStatus) : st.eventType ≠ .requested ∧ st.eventType ≠ .leaseRenewed := by
  cases st <;> exact ⟨nofun, nofun⟩

theorem not_active_of_mem {st : JobStatus}
    (h : st ∈ [JobStatus.succeeded, .failed, .cancelled, .expired]) : st.active = false := by
  cases st <;> first | rfl | simp at h

theorem LogLeadsTo.last {es : List OperationEvent} {st : JobStatus} (h : LogLeadsTo es st) :
    es.getLast?.map (·.newStatus) = some st := by
  cases h with
  | requested _ _ hnew => simp [hnew]
  | moved => simp
  | renewed _ _ _ hnew => simp [hnew]

theorem LogLeadsTo.first {es : List OperationEvent} {st : JobStatus} (h : LogLeadsTo es st) :
    ∃ e rest, es = e :: rest ∧ e.eventType = .requested ∧ e.previousStatus = none ∧
      e.newStatus = .queued ∧ ∀ f ∈ rest, f.eventType ≠ .requested := by
  induction h with
  | requested htype hprev hnew => exact ⟨_, [], rfl, htype, hprev, hnew, by simp⟩
  | @moved es st f _ htype _ _ ih =>
    obtain ⟨e, rest, rfl, h1, h2, h3, hrest⟩ := ih
    refine ⟨e, rest ++ [f], rfl, h1, h2, h3, fun g hg => ?_⟩
    rcases List.mem_append.1 hg with hg | hg
    · exact hrest g hg
    · rw [List.mem_singleton.1 hg, htype]
      exact (eventType_ne _).1
  | @renewed es st f _ htype _ _ _ ih =>
    obtain ⟨e, rest, rfl, h1, h2, h3, hrest⟩ := ih
    refine ⟨e, rest ++ [f], rfl, h1, h2, h3, fun g hg => ?_⟩
    rcases List.mem_append.1 hg with hg | hg
    · exact hrest g hg
    · rw [List.mem_singleton.1 hg, htype]
      exact nofun

/-- An event that starts from the present status continues the chain. -/
theorem chain_append {es : List OperationEvent} {st : JobStatus} {f : OperationEvent}
    (hchain : es.IsChain fun e f => f.previousStatus = some e.newStatus)
    (hlast : es.getLast?.map (·.newStatus) = some st) (hprev : f.previousStatus = some st) :
    (es ++ [f]).IsChain fun e f => f.previousStatus = some e.newStatus := by
  refine List.isChain_append.2 ⟨hchain, List.isChain_singleton f, fun e he g hg => ?_⟩
  rw [he, Option.map_some] at hlast
  obtain rfl := Option.some.inj hg
  rw [hprev, Option.some.inj hlast]

theorem LogLeadsTo.chain {es : List OperationEvent} {st : JobStatus} (h : LogLeadsTo es st) :
    es.IsChain fun e f => f.previousStatus = some e.newStatus := by
  induction h with
  | requested => exact List.isChain_singleton _
  | moved h _ hprev _ ih => exact chain_append ih h.last hprev
  | renewed h _ hprev _ _ ih => exact chain_append ih h.last hprev

theorem LogLeadsTo.renewals {es : List OperationEvent} {st : JobStatus} (h : LogLeadsTo es st) :
    ∀ e ∈ es, e.eventType = .leaseRenewed →
      e.previousStatus = some e.newStatus ∧ (e.newStatus = .leased ∨ e.newStatus = .running) := by
  induction h with
  | @requested f htype _ _ =>
    intro e he hrenewed
    rw [List.mem_singleton.1 he, htype] at hrenewed
    exact absurd hrenewed nofun
  | @moved es st f _ htype _ _ ih =>
    intro e he hrenewed
    rcases List.mem_append.1 he with he | he
    · exact ih e he hrenewed
    · rw [List.mem_singleton.1 he, htype] at hrenewed
      exact absurd hrenewed (eventType_ne _).2
  | @renewed es st f _ _ hprev hnew hheld ih =>
    intro e he hrenewed
    rcases List.mem_append.1 he with he | he
    · exact ih e he hrenewed
    · rw [List.mem_singleton.1 he, hprev, hnew]
      refine ⟨rfl, ?_⟩
      cases st <;> simp [JobStatus.held] at hheld <;> simp

theorem LogLeadsTo.edges {es : List OperationEvent} {st : JobStatus} (h : LogLeadsTo es st) :
    ∀ e ∈ es, e.eventType ≠ .requested → e.eventType ≠ .leaseRenewed →
      ∃ st, e.previousStatus = some st ∧ st.edge e.newStatus = true := by
  induction h with
  | @requested f htype _ _ =>
    intro e he hne _
    rw [List.mem_singleton.1 he] at hne
    exact absurd htype hne
  | @moved es st f _ _ hprev hedge ih =>
    intro e he hne hne'
    rcases List.mem_append.1 he with he | he
    · exact ih e he hne hne'
    · rw [List.mem_singleton.1 he]
      exact ⟨st, hprev, hedge⟩
  | @renewed es st f _ htype _ _ _ ih =>
    intro e he hne hne'
    rcases List.mem_append.1 he with he | he
    · exact ih e he hne hne'
    · rw [List.mem_singleton.1 he] at hne'
      exact absurd htype hne'

/-- Every event but the last leaves the job active: the next one starts from there. -/
theorem LogLeadsTo.active {es : List OperationEvent} {st : JobStatus} (h : LogLeadsTo es st) :
    ∀ front e back, es = front ++ e :: back → back ≠ [] → e.newStatus.active = true := by
  have step {es : List OperationEvent} {st : JobStatus} {f : OperationEvent}
      (hes : LogLeadsTo es st) (hactive : st.active = true)
      (ih : ∀ front e back, es = front ++ e :: back → back ≠ [] → e.newStatus.active = true) :
      ∀ front e back, es ++ [f] = front ++ e :: back → back ≠ [] → e.newStatus.active = true := by
    intro front e back heq hback
    obtain ⟨back, g, rfl⟩ := List.eq_nil_or_concat back |>.resolve_left hback
    rw [List.concat_eq_append, ← List.cons_append, ← List.append_assoc] at heq
    obtain ⟨heq, -⟩ := List.append_inj' heq rfl
    rcases List.eq_nil_or_concat back with rfl | ⟨back, g', rfl⟩
    · have hlast := hes.last
      rw [heq, List.getLast?_concat, Option.map_some, Option.some.injEq] at hlast
      rw [hlast]
      exact hactive
    · exact ih front e _ heq (by simp)
  induction h with
  | requested =>
    intro front e back heq hback
    rcases List.cons_eq_append_iff.1 heq with ⟨rfl, h⟩ | ⟨front', rfl, h⟩
    · exact absurd (List.cons_eq_cons.1 h).2 hback
    · simp at h
  | moved h _ _ hedge ih => exact step h (JobStatus.edge_source hedge) ih
  | renewed h _ _ _ hheld ih => exact step h (JobStatus.active_of_held hheld) ih

theorem LogLeadsTo.eventLog {es : List OperationEvent} {st : JobStatus} (h : LogLeadsTo es st)
    (hids : es.Pairwise fun e f => e.id < f.id) : EventLog es st where
  ids := hids
  first := h.first
  chain := h.chain
  renewals := h.renewals
  edges := h.edges
  last := h.last
  ends front e back heq hend := by
    by_contra hback
    have hactive := h.active front e back heq hback
    rw [not_active_of_mem hend] at hactive
    exact absurd hactive nofun

theorem Job.Tracks.endColumns {j : Job} (h : j.Tracks) : EndColumns j where
  finishedAt := by
    rw [← Option.isSome_iff_ne_none, h.finishedAt]
    cases j.status <;> simp [JobStatus.active]
  errorCode := by
    rw [← Option.isSome_iff_ne_none, h.errorCode]
    simp
  resultSummary := by
    rw [← Option.isSome_iff_ne_none, h.resultSummary]
    simp

/-- **The event log refines the job state**: after every run the events of every job lead from
its request to its present status, and the columns of its end are set exactly when it has one. -/
theorem operation_events_refine_status [Server] (t : ℤ) (calls : List Call) :
    ∀ j ∈ ((World.initial t).run calls).store.jobs,
      EventLog (((World.initial t).run calls).store.jobEvents j.id) j.status ∧ EndColumns j := by
  intro j hj
  have h := invariant_run t calls
  exact ⟨(h.logs j hj).eventLog (h.eventIds.filter _), (h.tracks j hj).endColumns⟩

open scoped Sample in
/-- A new job has a log of one event. -/
theorem eventLog_sampleJob : sampleJob ∈ ((World.initial 0).run [sampleStart 0]).store.jobs ∧
    EventLog (((World.initial 0).run [sampleStart 0]).store.jobEvents sampleJob.id)
      sampleJob.status ∧ EndColumns sampleJob := by
  have hmem : sampleJob ∈ ((World.initial 0).run [sampleStart 0]).store.jobs := by decide +kernel
  exact ⟨hmem, operation_events_refine_status 0 [sampleStart 0] sampleJob hmem⟩

end IvrmDashboard.Operations

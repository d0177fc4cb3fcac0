import IvrmDashboard.Foundations.Bands
import IvrmDashboard.Monitoring.IncidentsAgree
import IvrmDashboard.Monitoring.Overlays

/-!
# The bands tell the events

The loop over the events of a container draws its timeline (`bandLoop_drawn`), so its regions do not
overlap and show at every instant the strongest kind of trouble that the events up to it have left
(`eventRegions_tell`). The band that is open after the last event is another matter: it is shown as
long as the snapshot lets it, and not at all when the container has recovered or is maintained.
-/

namespace IvrmDashboard.Monitoring.Overlays

open Sql Incidents Bands Runs

/-! ## The timeline of a container -/

/-- What an event does to the signals and to what is expected. -/
def observe (s : ActiveSignals × Option (Option ContainerExpectedState)) (event : MonitoringEvent) :
    ActiveSignals × Option (Option ContainerExpectedState) :=
  (observeOverlay (if expectationChanges s.2 event then fun _ => none else s.1) event,
    some event.expectedState)

/-- The strongest kind of trouble after the events. -/
def timeline : Timeline MonitoringEvent (ActiveSignals × Option (Option ContainerExpectedState))
    IncidentOverlayKind where
  initial := (fun _ => none, none)
  step := observe
  shows s := strongestSignalKind s.1
  blank := rfl

/-- The drawing of some events of a container. -/
abbrev drawing (events : List MonitoringEvent) :
    Drawing (ActiveSignals × Option (Option ContainerExpectedState)) IncidentOverlayKind :=
  drawn timeline MonitoringEvent.occurredAt events

/-- The kind that is the strongest one at an instant, of the events in their order. -/
abbrev strongestAt (events : List MonitoringEvent) (t : ℤ) : Option IncidentOverlayKind :=
  shownAt timeline MonitoringEvent.occurredAt events t

/-! ## The loop draws the timeline -/

section Loop

variable (rangeStartMs rangeEndMs : ℤ) (key : String) (firstEvent : MonitoringEvent)

/-- The region of a band. -/
def regionOf (b : Band IncidentOverlayKind) : Option Region :=
  createRegion (closedBand key firstEvent b.kind b.start b.finish) rangeStartMs rangeEndMs

/-- The variables of the loop are those of the drawing. -/
structure Draws (d : Drawing (ActiveSignals × Option (Option ContainerExpectedState))
    IncidentOverlayKind) (s : BandLoop) : Prop where
  signals : d.state = (s.activeSignals, s.expectedState)
  kind : s.bandKind = d.opened.map Prod.fst
  start : s.bandStartMs = d.opened.map Prod.snd
  regions : s.regions = d.closed.filterMap (regionOf rangeStartMs rangeEndMs key firstEvent)

variable {rangeStartMs rangeEndMs key firstEvent}

theorem Draws.step {d : Drawing (ActiveSignals × Option (Option ContainerExpectedState))
    IncidentOverlayKind} {s : BandLoop} (h : Draws rangeStartMs rangeEndMs key firstEvent d s)
    (hshows : d.opened.map Prod.fst = strongestSignalKind d.state.1) (event : MonitoringEvent) :
    Draws rangeStartMs rangeEndMs key firstEvent
      (draw timeline MonitoringEvent.occurredAt d event)
      (bandStep rangeStartMs rangeEndMs key firstEvent s event) := by
  obtain ⟨⟨signals, expected⟩, opened, closed⟩ := d
  obtain ⟨activeSignals, bandKind, bandStartMs, expectedState, regions⟩ := s
  obtain ⟨hsignals, rfl, rfl, rfl⟩ := h
  obtain ⟨rfl, rfl⟩ := Prod.mk.inj hsignals
  dsimp only at hshows
  unfold bandStep
  dsimp only
  obtain ⟨next, hnext⟩ : ∃ next, observeOverlay
    (if expectationChanges expected event then fun _ => none else signals) event = next := ⟨_, rfl⟩
  have hstep : timeline.step (signals, expected) event = (next, some event.expectedState) := by
    rw [← hnext]
    rfl
  rw [hnext]
  by_cases hsame : strongestSignalKind signals = strongestSignalKind next
  · -- a band is open exactly when something is shown
    have hopen : ¬ ((strongestSignalKind next).isSome && (opened.map Prod.snd).isNone) = true := by
      rw [← hsame, ← hshows]
      cases opened <;> simp
    have hdraw : timeline.shows (signals, expected) =
        timeline.shows (timeline.step (signals, expected) event) := by
      rw [hstep]
      exact hsame
    rw [draw_of_same hdraw, if_pos hsame, if_neg hopen]
    exact ⟨hstep, rfl, rfl, rfl⟩
  · have hdraw : timeline.shows (signals, expected) ≠
        timeline.shows (timeline.step (signals, expected) event) := by
      rw [hstep]
      exact hsame
    rw [draw_of_ne hdraw, if_neg hsame]
    refine ⟨hstep, ?_, ?_, ?_⟩
    · rw [Option.map_map, hstep]
      exact Option.map_id'.symm
    · rw [Option.map_map, hstep]
      rfl
    · rw [← hshows]
      cases opened with
      | none => simp
      | some o =>
        rw [List.filterMap_append]
        rfl

/-- **The loop draws the timeline.** -/
theorem bandLoop_drawn {events : List MonitoringEvent} (hsorted : Sorted events) :
    Draws rangeStartMs rangeEndMs key firstEvent (drawing events)
      (bandLoop rangeStartMs rangeEndMs key firstEvent events) := by
  induction events using List.reverseRecOn with
  | nil => exact ⟨rfl, rfl, rfl, rfl⟩
  | append_singleton events event ih =>
    have htells := tells_drawn (T := timeline) hsorted.front
    rw [drawing, drawn, bandLoop, List.foldl_append, List.foldl_append]
    exact (ih hsorted.front).step htells.shows event

end Loop

/-! ## Regions in the range -/

section Range

variable {rangeStartMs rangeEndMs t : ℤ} {input : RegionInput} {r : Region}

theorem createRegion_eq_some (h : createRegion input rangeStartMs rangeEndMs = some r) :
    r.kind = input.kind ∧ r.startAt = max input.startMs rangeStartMs ∧
      r.endAt = min input.endMs rangeEndMs := by
  unfold createRegion at h
  split at h
  · cases h
    exact ⟨rfl, rfl, rfl⟩
  · cases h

/-- Inside the range a region covers what its input covers. -/
theorem covers_createRegion (hs : rangeStartMs ≤ t) (he : t < rangeEndMs) :
    (∃ r ∈ createRegion input rangeStartMs rangeEndMs, r.Covers t) ↔
      input.startMs ≤ t ∧ t < input.endMs := by
  constructor
  · rintro ⟨r, hr, hcovers⟩
    obtain ⟨-, hstart, hend⟩ := createRegion_eq_some hr
    rw [Region.Covers, hstart, hend] at hcovers
    omega
  · rintro ⟨hstart, hend⟩
    have hproper : max input.startMs rangeStartMs < min input.endMs rangeEndMs := by omega
    refine ⟨_, dif_pos hproper, ?_, ?_⟩
    · exact max_le hstart hs
    · exact lt_min hend he

theorem covers_kind {k kind : IncidentOverlayKind} (hkind : input.kind = kind.kind)
    (hs : rangeStartMs ≤ t) (he : t < rangeEndMs) :
    (∃ r ∈ createRegion input rangeStartMs rangeEndMs, r.kind = k.kind ∧ r.Covers t) ↔
      kind = k ∧ input.startMs ≤ t ∧ t < input.endMs := by
  have hinj : kind.kind = k.kind ↔ kind = k := by cases kind <;> cases k <;> decide
  rw [← covers_createRegion hs he, ← hinj, ← hkind]
  constructor
  · rintro ⟨r, hr, hk, hcovers⟩
    exact ⟨(createRegion_eq_some hr).1.symm.trans hk, r, hr, hcovers⟩
  · rintro ⟨hk, r, hr, hcovers⟩
    exact ⟨r, hr, (createRegion_eq_some hr).1.trans hk, hcovers⟩

end Range

/-! ## The regions of a container -/

section Entity

variable {F : Type} {rangeStartMs rangeEndMs generatedAt t : ℤ} {key : String}
  {containers : List (ContainerOverview F)} {firstEvent : MonitoringEvent}
  {entityEvents : List MonitoringEvent} {s : BandLoop} {k : IncidentOverlayKind}

/-- Inside the range the closed regions cover what the closed bands cover. -/
theorem covers_closed
    (h : Draws rangeStartMs rangeEndMs key firstEvent (drawing entityEvents) s)
    (hs : rangeStartMs ≤ t) (he : t < rangeEndMs) :
    (∃ r ∈ s.regions, r.kind = k.kind ∧ r.Covers t) ↔
      ∃ b ∈ (drawing entityEvents).closed, b.kind = k ∧ b.Covers t := by
  have hband (b : Band IncidentOverlayKind) :
      (∃ r ∈ regionOf rangeStartMs rangeEndMs key firstEvent b, r.kind = k.kind ∧ r.Covers t) ↔
        b.kind = k ∧ b.Covers t :=
    covers_kind rfl hs he
  simp only [h.regions, List.mem_filterMap, ← hband]
  constructor
  · rintro ⟨r, ⟨b, hb, hr⟩, hcovers⟩
    exact ⟨b, hb, r, hr, hcovers⟩
  · rintro ⟨b, hb, r, hr, hcovers⟩
    exact ⟨r, ⟨b, hb, hr⟩, hcovers⟩

/-- The closed regions do not overlap, and end before the band begins that is open. -/
theorem apart_closed (hsorted : Sorted entityEvents)
    (h : Draws rangeStartMs rangeEndMs key firstEvent (drawing entityEvents) s) :
    s.regions.Pairwise (fun r r' => r.endAt ≤ r'.startAt) ∧
      ∀ r ∈ s.regions, ∀ o ∈ (drawing entityEvents).opened, r.endAt ≤ o.2 := by
  have htells : Tells timeline MonitoringEvent.occurredAt entityEvents (drawing entityEvents) :=
    tells_drawn hsorted
  have hregion : ∀ b r, regionOf rangeStartMs rangeEndMs key firstEvent b = some r →
      b.start ≤ r.startAt ∧ r.endAt ≤ b.finish := by
    intro b r hr
    obtain ⟨-, hstart, hend⟩ := createRegion_eq_some hr
    rw [hstart, hend]
    exact ⟨le_max_left _ _, min_le_left _ _⟩
  rw [h.regions]
  constructor
  · rw [List.pairwise_filterMap]
    refine htells.apart.imp fun {b b'} hle r hr r' hr' => ?_
    exact ((hregion b r hr).2.trans hle).trans (hregion b' r' hr').1
  · intro r hr o ho
    obtain ⟨b, hb, hr⟩ := List.mem_filterMap.1 hr
    exact (hregion b r hr).2.trans ((htells.ended b hb).2 o ho)

/-- The region of the open band. -/
def openRegion (rangeStartMs rangeEndMs generatedAt : ℤ) (containers : List (ContainerOverview F))
    (key : String) (entityEvents : List MonitoringEvent) : Option Region :=
  (drawing entityEvents).opened.bind fun o =>
    (drawnUntil generatedAt containers key).bind fun u =>
      createRegion (activeBand key u.1 o.1 o.2 u.2) rangeStartMs rangeEndMs

/-- The regions of a container are those of the closed bands and that of the open one. -/
theorem entityRegions_eq (hsorted : Sorted (firstEvent :: entityEvents)) :
    entityRegions rangeStartMs rangeEndMs generatedAt containers key (firstEvent :: entityEvents) =
      (bandLoop rangeStartMs rangeEndMs key firstEvent (firstEvent :: entityEvents)).regions ++
        (openRegion rangeStartMs rangeEndMs generatedAt containers key
          (firstEvent :: entityEvents)).toList := by
  have hdraws : Draws rangeStartMs rangeEndMs key firstEvent (drawing (firstEvent :: entityEvents))
      (bandLoop rangeStartMs rangeEndMs key firstEvent (firstEvent :: entityEvents)) :=
    bandLoop_drawn hsorted
  rw [entityRegions, hdraws.kind, hdraws.start, openRegion]
  cases (drawing (firstEvent :: entityEvents)).opened with
  | none => simp
  | some o =>
    cases drawnUntil generatedAt containers key with
    | none => simp
    | some u => rfl

/-- Inside the range the region of the open band covers the time until its end. -/
theorem covers_openRegion (hs : rangeStartMs ≤ t) (he : t < rangeEndMs) :
    (∃ r ∈ openRegion rangeStartMs rangeEndMs generatedAt containers key entityEvents,
        r.kind = k.kind ∧ r.Covers t) ↔
      ∃ o ∈ (drawing entityEvents).opened, o.1 = k ∧ o.2 ≤ t ∧
        ∃ u ∈ drawnUntil generatedAt containers key, t < u.2 := by
  unfold openRegion
  cases (drawing entityEvents).opened with
  | none => simp
  | some o =>
    cases drawnUntil generatedAt containers key with
    | none => simp
    | some u =>
      have hband : (∃ r ∈ createRegion (activeBand key u.1 o.1 o.2 u.2) rangeStartMs rangeEndMs,
          r.kind = k.kind ∧ r.Covers t) ↔ o.1 = k ∧ o.2 ≤ t ∧ t < u.2 :=
        covers_kind rfl hs he
      simpa using hband

/-- **The regions of a container tell its events**, but for the band that is open: it is shown as
long as the snapshot lets it. -/
theorem entityRegions_tell (hsorted : Sorted entityEvents) :
    (entityRegions rangeStartMs rangeEndMs generatedAt containers key entityEvents).Pairwise
        (fun r r' => r.endAt ≤ r'.startAt) ∧
      ∀ t, rangeStartMs ≤ t → t < rangeEndMs → ∀ k : IncidentOverlayKind,
        (∃ r ∈ entityRegions rangeStartMs rangeEndMs generatedAt containers key entityEvents,
            r.kind = k.kind ∧ r.Covers t) ↔
          strongestAt entityEvents t = some k ∧ ∀ o ∈ (drawing entityEvents).opened, o.2 ≤ t →
            ∃ u ∈ drawnUntil generatedAt containers key, t < u.2 := by
  have htells : Tells timeline MonitoringEvent.occurredAt entityEvents (drawing entityEvents) :=
    tells_drawn hsorted
  cases entityEvents with
  | nil =>
    refine ⟨.nil, fun t hs he k => iff_of_false ?_ ?_⟩
    · rintro ⟨r, hr, -⟩
      exact absurd hr List.not_mem_nil
    · rintro ⟨hnone, -⟩
      cases hnone
  | cons firstEvent events =>
    rw [entityRegions_eq hsorted]
    have hdraws : Draws rangeStartMs rangeEndMs key firstEvent (drawing (firstEvent :: events))
        (bandLoop rangeStartMs rangeEndMs key firstEvent (firstEvent :: events)) :=
      bandLoop_drawn hsorted
    obtain ⟨hpairwise, hbefore⟩ := apart_closed hsorted hdraws
    constructor
    · refine List.pairwise_append.2 ⟨hpairwise, ?_, fun r hr r' hr' => ?_⟩
      · cases openRegion rangeStartMs rangeEndMs generatedAt containers key (firstEvent :: events)
        · exact .nil
        · exact List.pairwise_singleton _ _
      · obtain ⟨o, ho, hr'⟩ := Option.bind_eq_some_iff.1 (Option.mem_toList.1 hr')
        obtain ⟨u, -, hr'⟩ := Option.bind_eq_some_iff.1 hr'
        obtain ⟨-, hstart, -⟩ := createRegion_eq_some hr'
        exact (hbefore r hr o ho).trans (hstart ▸ le_max_left _ _)
    · intro t hs he k
      rw [← htells.covers_or, ← covers_closed hdraws hs he, ← covers_openRegion hs he]
      simp only [List.mem_append, Option.mem_toList, Option.mem_def, or_and_right, exists_or]

end Entity

/-! ## All regions -/

section Regions

variable {F : Type} (rangeStartMs rangeEndMs generatedAt : ℤ)
  (containers : List (ContainerOverview F))

/-- The containers that no event tells of only add regions. -/
theorem eventRegions_remain (events : List MonitoringEvent) :
    eventRegions rangeStartMs rangeEndMs generatedAt events containers <+:
      containerIncidentRegions rangeStartMs rangeEndMs generatedAt events containers := by
  have hstep (regions : List Region) (c : ContainerOverview F) :
      regions <+: fallbackStep rangeStartMs rangeEndMs generatedAt regions c := by
    unfold fallbackStep
    split_ifs
    · exact List.prefix_rfl
    · exact List.prefix_rfl
    · split
      · exact List.prefix_rfl
      · exact List.prefix_append _ _
  unfold containerIncidentRegions
  generalize eventRegions rangeStartMs rangeEndMs generatedAt events containers = regions
  induction containers generalizing regions with
  | nil => exact List.prefix_rfl
  | cons c containers ih => exact (hstep regions c).trans (ih _)

/-- The events of one container have one key. -/
theorem entities_of_one {e : MonitoringEvent} {events : List MonitoringEvent} {key : String}
    (hone : ∀ e' ∈ e :: events, e'.key = key) : entities (e :: events) = [key] := by
  have hnodup : (entities (e :: events)).Nodup := FirstPerKey.nodup_map_firstPerKey _
  have hmem : e.key ∈ entities (e :: events) :=
    FirstPerKey.key_mem_map_firstPerKey List.mem_cons_self
  have hall : ∀ k ∈ entities (e :: events), k = key := by
    intro k hk
    obtain ⟨e', he', rfl⟩ := List.mem_map.1 hk
    have hfound := FirstPerKey.find?_of_mem_firstPerKey he'
    exact hone e' (List.mem_of_find?_eq_some hfound)
  generalize entities (e :: events) = keys at *
  cases keys with
  | nil => exact absurd hmem List.not_mem_nil
  | cons k keys =>
    obtain rfl := hall k List.mem_cons_self
    congr 1
    refine List.eq_nil_iff_forall_not_mem.2 fun k' hk' => ?_
    obtain rfl := hall k' (List.mem_cons_of_mem _ hk')
    exact (List.nodup_cons.1 hnodup).1 hk'

/-- The events of one container give the regions of this container. -/
theorem eventRegions_of_one {events : List MonitoringEvent} {key : String}
    (hone : ∀ e ∈ events, e.key = key) :
    eventRegions rangeStartMs rangeEndMs generatedAt events containers =
      entityRegions rangeStartMs rangeEndMs generatedAt containers key
        (eventByEntity events key) := by
  unfold eventRegions
  cases events with
  | nil => rfl
  | cons e events => rw [entities_of_one hone, List.flatMap_singleton]

/-- **The regions of the events of a container** do not overlap. At every instant of the range they
show the strongest kind that the events up to it have left, except in the band that all events leave
open, which lasts as long as the snapshot lets it. -/
theorem eventRegions_tell {events : List MonitoringEvent} {key : String}
    (hone : ∀ e ∈ events, e.key = key) :
    (eventRegions rangeStartMs rangeEndMs generatedAt events containers).Pairwise
        (fun r r' => r.endAt ≤ r'.startAt) ∧
      ∀ t, rangeStartMs ≤ t → t < rangeEndMs → ∀ k : IncidentOverlayKind,
        (∃ r ∈ eventRegions rangeStartMs rangeEndMs generatedAt events containers,
            r.kind = k.kind ∧ r.Covers t) ↔
          strongestAt (eventByEntity events key) t = some k ∧
            ∀ o ∈ (drawing (eventByEntity events key)).opened, o.2 ≤ t →
              ∃ u ∈ drawnUntil generatedAt containers key, t < u.2 := by
  rw [eventRegions_of_one rangeStartMs rangeEndMs generatedAt containers hone]
  exact entityRegions_tell (eventByEntity_sorted events key)

end Regions

end IvrmDashboard.Monitoring.Overlays

import Mathlib.Data.Char
import Mathlib.Data.List.Lex
import IvrmDashboard.Foundations.Sweeps
import IvrmDashboard.Monitoring.OverlayBands

/-!
# Merged regions

`mergeRegions` sweeps over the sorted regions and joins those of one entity and kind with gaps of at
most a second between them. What it leaves are the longest stretches of what the regions cover and
bridge, so they depend neither on the order of the regions nor on a second sweep
(`mergeRegions_spec`). This takes for granted that the sort keeps the regions of an entity together:
the collation tells the names in the list apart, and no name is empty where others are missing
(`Separates`). The id and the label of a joined region are those of its first part, and of two parts
with the same start the order of the list decides which is the first.
-/

namespace IvrmDashboard.Monitoring.Overlays

open Sql Incidents Bands Runs Sweeps

/-! ## The sweep -/

/-- Regions as spans. -/
def regionSpans : Spans Region RegionEntity where
  key := Region.entity
  start := Region.startAt
  finish := Region.endAt
  extend := Region.extend
  proper := Region.proper
  key_extend _ _ _ := rfl
  start_extend _ _ _ := rfl
  finish_extend _ _ h := max_eq_right h

/-- The largest gap that is bridged, in milliseconds. -/
abbrev mergeGap : ℤ := 1000

theorem merged_eq (previous region : Region) :
    merged regionSpans previous region = previous.extend region.endAt := by
  have hmax : max previous.endAt (max previous.endAt region.endAt) =
    max previous.endAt region.endAt := max_eq_right (le_max_left _ _)
  ext1 <;> first | rfl | exact hmax

theorem mergeStep_concat (front : List Region) (previous region : Region) :
    mergeStep (front ++ [previous]) region =
      front ++ (if regionSpans.Joins mergeGap previous region
        then [merged regionSpans previous region] else [previous, region]) := by
  rw [mergeStep, List.getLast?_concat, List.dropLast_concat, merged_eq]
  dsimp only
  by_cases hjoins : regionSpans.Joins mergeGap previous region
  · rw [if_pos hjoins]
    exact if_pos hjoins
  · rw [if_neg hjoins, List.append_assoc]
    exact if_neg hjoins

/-- The loop is a sweep. -/
theorem foldl_mergeStep (front : List Region) (previous : Region) (regions : List Region) :
    regions.foldl mergeStep (front ++ [previous]) =
      front ++ sweepFrom regionSpans mergeGap previous regions := by
  induction regions generalizing front previous with
  | nil => rfl
  | cons region regions ih =>
    rw [List.foldl_cons, mergeStep_concat, sweepFrom]
    split
    · exact ih front _
    · rw [List.append_cons, ih (front ++ [previous]) region, List.append_assoc]
      rfl

theorem foldl_mergeStep_nil (regions : List Region) :
    regions.foldl mergeStep [] = sweep regionSpans mergeGap regions := by
  cases regions with
  | nil => rfl
  | cons region regions => exact foldl_mergeStep [] region regions

/-! ## The order of the regions -/

section

variable {ρ : Type} [LinearOrder ρ] (collationKey : String → ρ)

/-- The sort tells the entities and kinds of the regions apart. -/
def Separates (regions : List Region) : Prop :=
  ∀ r ∈ regions, ∀ r' ∈ regions,
    collate collationKey r.entity = collate collationKey r'.entity → r.entity = r'.entity

/-- The entity comes first in the sort. -/
def Precedes (e e' : RegionEntity) : Prop := collate collationKey e < collate collationKey e'

instance : IsStrictOrder RegionEntity (Precedes collationKey) where
  irrefl _ := lt_irrefl _
  trans _ _ _ := lt_trans

/-- The regions in the order of the sweep. -/
def sortedRegions (regions : List Region) : List Region :=
  orderBy (byKey (sortKey collationKey)) regions

/-- The regions the sweep leaves. -/
def swept (regions : List Region) : List Region :=
  sweep regionSpans mergeGap (sortedRegions collationKey regions)

theorem mergeRegions_eq (regions : List Region) :
    mergeRegions collationKey regions =
      orderBy (byKey Region.startAt) (swept collationKey regions) := by
  rw [mergeRegions, foldl_mergeStep_nil]
  rfl

variable {collationKey} {regions : List Region}

theorem sortKey_le {r r' : Region} :
    sortKey collationKey r ≤ sortKey collationKey r' ↔
      Precedes collationKey r.entity r'.entity ∨
        collate collationKey r.entity = collate collationKey r'.entity ∧
          r.startAt ≤ r'.startAt :=
  Prod.Lex.toLex_le_toLex

theorem sorted_sortedRegions (h : Separates collationKey regions) :
    regionSpans.Sorted (Precedes collationKey) (sortedRegions collationKey regions) := by
  have hsorted := pairwise_byKey (sortKey collationKey) regions
  refine hsorted.imp_of_mem fun {r r'} hr hr' hle => ?_
  refine (sortKey_le.1 hle).imp_right fun ⟨heq, hstart⟩ => ⟨?_, hstart⟩
  exact h r ((mem_orderBy _).1 hr) r' ((mem_orderBy _).1 hr') heq

theorem mem_mergeRegions {r : Region} :
    r ∈ mergeRegions collationKey regions ↔ r ∈ swept collationKey regions := by
  rw [mergeRegions_eq, mem_orderBy]

theorem mem_sortedRegions {r : Region} : r ∈ sortedRegions collationKey regions ↔ r ∈ regions :=
  mem_orderBy _

/-- What is swept lies apart. -/
theorem apart_swept (h : Separates collationKey regions) :
    regionSpans.Apart mergeGap (Precedes collationKey) (swept collationKey regions) :=
  apart_sweep (sorted_sortedRegions h)

/-- A joined region belongs to the entity of its parts. -/
theorem exists_entity_of_mem_swept {r : Region} (hr : r ∈ swept collationKey regions) :
    ∃ r' ∈ regions, r.entity = r'.entity := by
  unfold swept at hr
  cases hsorted : sortedRegions collationKey regions with
  | nil =>
    rw [hsorted] at hr
    exact absurd hr List.not_mem_nil
  | cons first rest =>
    rw [hsorted] at hr
    obtain ⟨r', hr', hentity, -⟩ := mem_sweepFrom hr
    rw [← hsorted, mem_sortedRegions] at hr'
    exact ⟨r', hr', hentity⟩

variable (collationKey) in
theorem bridged_sortedRegions {e : RegionEntity} :
    regionSpans.Bridged mergeGap (sortedRegions collationKey regions) e =
      regionSpans.Bridged mergeGap regions e := by
  funext t
  apply propext
  constructor
  · exact fun hb => hb.mono fun r hr => mem_sortedRegions.1 hr
  · exact fun hb => hb.mono fun r hr => mem_sortedRegions.2 hr

/-- **What is merged covers what was covered and bridged.** -/
theorem covered_mergeRegions (h : Separates collationKey regions) (e : RegionEntity) (t : ℤ) :
    (∃ r ∈ mergeRegions collationKey regions, r.entity = e ∧ r.Covers t) ↔
      regionSpans.Bridged mergeGap regions e t := by
  simp only [mem_mergeRegions]
  rw [← bridged_sortedRegions collationKey]
  exact covered_sweep (sorted_sortedRegions h)

/-- **The merged regions are the longest stretches.** -/
theorem mem_mergeRegions_iff (h : Separates collationKey regions) (e : RegionEntity) (s f : ℤ) :
    (∃ r ∈ mergeRegions collationKey regions, r.entity = e ∧ r.startAt = s ∧ r.endAt = f) ↔
      Stretch (regionSpans.Bridged mergeGap regions e) s f := by
  simp only [mem_mergeRegions]
  rw [← bridged_sortedRegions collationKey]
  exact mem_sweep_iff (sorted_sortedRegions h) (by decide)

/-- Different regions that are swept begin at different times, or belong to different entities. -/
theorem sortKey_inj (h : Separates collationKey regions) {r r' : Region}
    (hr : r ∈ swept collationKey regions) (hr' : r' ∈ swept collationKey regions)
    (hkey : sortKey collationKey r = sortKey collationKey r') : r = r' := by
  obtain ⟨hcollate, hstart⟩ := Prod.mk.inj hkey
  obtain ⟨q, hq, hentity⟩ := exists_entity_of_mem_swept hr
  obtain ⟨q', hq', hentity'⟩ := exists_entity_of_mem_swept hr'
  rw [hentity, hentity'] at hcollate
  have hsame : r.entity = r'.entity :=
    hentity.trans ((h q hq q' hq' hcollate).trans hentity'.symm)
  by_contra hne
  have hstart : r.startAt = r'.startAt := hstart
  have hp := r.proper
  have hp' := r'.proper
  rcases (apart_swept h).lt_or_lt hr hr' hne hsame with hlt | hlt
  · change r.endAt + 1000 < r'.startAt at hlt
    omega
  · change r'.endAt + 1000 < r.startAt at hlt
    omega

/-- **Merged regions stay as they are.** -/
theorem mergeRegions_idempotent (h : Separates collationKey regions) :
    mergeRegions collationKey (mergeRegions collationKey regions) =
      mergeRegions collationKey regions := by
  have hperm : (mergeRegions collationKey regions).Perm (swept collationKey regions) := by
    rw [mergeRegions_eq]
    exact orderBy_perm _
  have hsorted : (swept collationKey regions).Pairwise fun r r' =>
      sortKey collationKey r ≤ sortKey collationKey r' := by
    refine (apart_swept h).imp fun {r r'} hab => sortKey_le.2 ?_
    refine hab.imp_right fun ⟨hentity, hlt⟩ => ⟨congrArg _ hentity, ?_⟩
    have hp := r.proper
    change r.endAt + 1000 < r'.startAt at hlt
    omega
  have horder : sortedRegions collationKey (mergeRegions collationKey regions) =
      swept collationKey regions := by
    have hsame := orderBy_byKey_perm (sortKey collationKey) hperm fun a ha b hb =>
      sortKey_inj h (mem_mergeRegions.1 ha) (mem_mergeRegions.1 hb)
    exact hsame.trans (hsorted.imp decide_eq_true).insertionSort_eq
  have hswept : swept collationKey (mergeRegions collationKey regions) =
      swept collationKey regions := by
    rw [swept, horder]
    exact sweep_of_apart (apart_swept h)
  rw [mergeRegions_eq, hswept, mergeRegions_eq]

/-- **Merged regions of one entity and kind are more than a second apart.** -/
theorem mergeRegions_apart (h : Separates collationKey regions) :
    (mergeRegions collationKey regions).Pairwise fun r r' =>
      r.entity = r'.entity → r.endAt + 1000 < r'.startAt := by
  have hapart := apart_swept h
  have hnodup : (swept collationKey regions).Nodup := by
    refine hapart.imp fun {r r'} hab => ?_
    rintro rfl
    rcases hab with hbefore | ⟨-, hlt⟩
    · exact lt_irrefl _ hbefore
    · have hp := r.proper
      change r.endAt + 1000 < r.startAt at hlt
      omega
  have horder := pairwise_byKey Region.startAt (swept collationKey regions)
  have hdistinct : (orderBy (byKey Region.startAt) (swept collationKey regions)).Nodup :=
    (orderBy_perm _).nodup_iff.2 hnodup
  rw [mergeRegions_eq]
  refine (horder.and hdistinct).imp_of_mem fun {r r'} hr hr' hle hentity => ?_
  rw [mem_orderBy] at hr hr'
  rcases hapart.lt_or_lt hr hr' hle.2 hentity with hlt | hlt
  · exact hlt
  · have hp' := r'.proper
    change r'.endAt + 1000 < r.startAt at hlt
    omega

/-- The merged regions do not depend on the order of the regions. -/
theorem mergeRegions_perm (h : Separates collationKey regions) {regions' : List Region}
    (hperm : regions'.Perm regions) (e : RegionEntity) (s f : ℤ) :
    (∃ r ∈ mergeRegions collationKey regions', r.entity = e ∧ r.startAt = s ∧ r.endAt = f) ↔
      ∃ r ∈ mergeRegions collationKey regions, r.entity = e ∧ r.startAt = s ∧ r.endAt = f := by
  have h' : Separates collationKey regions' := fun r hr r' hr' =>
    h r (hperm.subset hr) r' (hperm.subset hr')
  have hbridged : regionSpans.Bridged mergeGap regions' e =
      regionSpans.Bridged mergeGap regions e := by
    funext t
    exact propext ⟨fun hb => hb.mono hperm.subset, fun hb => hb.mono hperm.symm.subset⟩
  rw [mem_mergeRegions_iff h', mem_mergeRegions_iff h, hbridged]

end

/-! ## Bands and merged regions -/

section

variable {F : Type} (rangeStartMs rangeEndMs generatedAt : ℤ)
  (containers : List (ContainerOverview F)) {ρ : Type} [LinearOrder ρ] (collationKey : String → ρ)

end

/-! ## A container that fails -/

/-- An event of the container `web`. -/
def webEvent (id occurredAt : ℤ) (eventType : EventType) (severity : EventSeverity)
    (toValue : String) : MonitoringEvent where
  id := id
  hostId := ⟨1⟩
  serverId := "host-1"
  hostDisplayName := "Host"
  containerName := "web"
  occurredAt := occurredAt
  eventType := eventType
  severity := severity
  fromValue := none
  toValue := some toValue
  expectedState := some .running

/-- A region of a container of the first host. -/
def webRegion (id : String) (name : Option String) (startAt endAt : ℤ)
    (proper : startAt < endAt) : Region :=
  ⟨id, startAt, endAt, "", .error, .container, ⟨1⟩, name, proper⟩

/-- The container exits and comes back. -/
def webOutage : List MonitoringEvent :=
  [webEvent 2 10 .stateChanged .recovery "running", webEvent 1 0 .stateChanged .critical "exited"]

/-- The container exits and becomes unhealthy, and the snapshot does not show it. -/
def webFailure : List MonitoringEvent :=
  [webEvent 1 0 .stateChanged .critical "exited", webEvent 2 10 .healthChanged .warning "starting"]

end IvrmDashboard.Monitoring.Overlays

import Mathlib.Order.Bounds.Image
import Mathlib.Order.WithBot
import IvrmDashboard.Foundations.Peaks
import IvrmDashboard.Foundations.Runs
import IvrmDashboard.Reliability.BurnHistory

/-!
# Worst buckets

A row of the burn history stands for the reports of its bucket: it should show their worst state and
rates, and the target of the latest. It does as long as every report fits the row it meets: it is
later, or of the same time and target, or does not stand out (`worst_iff`). A report that is earlier
than the row is left aside, also where it is worse.
-/

namespace IvrmDashboard.Reliability

open Sql

/-! ## Columns as numbers -/

/-- The columns that are merged. -/
inductive BurnColumn
  | state
  | burnRate (id : BurnWindowId)
  | inexact (id : BurnWindowId)
  | countedDowntime (id : BurnWindowId)
  | maintenanceExcluded (id : BurnWindowId)

/-- The columns that the charts get. -/
inductive ShownColumn
  | state
  | burnRate (id : BurnWindowId)
  | inexact (id : BurnWindowId)

def ShownColumn.toColumn : ShownColumn → BurnColumn
  | state => .state
  | burnRate id => .burnRate id
  | inexact id => .inexact id

/-- A number in each column, the worse the greater; there may be none. -/
def Levels (κ : Type) : Type := κ → WithBot ℤ

/-- The order of numbers that may be missing. It is fixed here, so that a level means the same
whatever else is imported. -/
abbrev levelSup : SemilatticeSup (WithBot ℤ) :=
  @WithBot.semilatticeSup ℤ Int.instLinearOrder.toLattice.toSemilatticeSup

instance (κ : Type) : SemilatticeSup (Levels κ) :=
  @Pi.instSemilatticeSup κ (fun _ => WithBot ℤ) fun _ => levelSup

/-- The flag as a number. -/
def inexactness (exact : Bool) : Option ℤ := if exact then some 0 else some 1

theorem greatest_eq_sup (a b : Option ℤ) :
    greatest a b = @max (WithBot ℤ) levelSup.toMax a b := by
  cases a <;> cases b <;> rfl

theorem inexactness_and (a b : Bool) :
    inexactness (a && b) = greatest (inexactness a) (inexactness b) := by
  cases a <;> cases b <;> rfl

theorem inexactness_injective : Function.Injective inexactness := by decide

namespace BurnRateState

theorem ofRank_rank (state : BurnRateState) : ofRank state.rank = state := by cases state <;> rfl

theorem rank_ofRank_max (a b : BurnRateState) :
    (ofRank (max a.rank b.rank)).rank = max a.rank b.rank := by
  cases a <;> cases b <;> rfl

theorem rank_injective : Function.Injective rank :=
  Function.LeftInverse.injective ofRank_rank

end BurnRateState

/-- The merged columns of a row. -/
def BurnRow.level (r : BurnRow) : Levels BurnColumn
  | .state => some (r.state.rank : ℤ)
  | .burnRate id => (r.window id).burnRate
  | .inexact id => inexactness (r.window id).exact
  | .countedDowntime id => (r.window id).countedDowntime
  | .maintenanceExcluded id => (r.window id).maintenanceExcluded

/-- The merged columns of a display bucket. -/
def ShownBucket.level (b : ShownBucket) : Levels ShownColumn
  | .state => some (b.state.rank : ℤ)
  | .burnRate id => (b.window id).burnRate
  | .inexact id => inexactness (b.window id).exact

/-- A row as what has been observed in its bucket. -/
def BurnRow.observation (r : BurnRow) : Observation ℤ (Levels BurnColumn) (Option ℤ) :=
  ⟨r.observedAt, r.level, r.targetPercent⟩

def ShownBucket.observation (b : ShownBucket) : Observation ℤ (Levels ShownColumn) (Option ℤ) :=
  ⟨b.observedAt, b.level, b.targetPercent⟩

/-- The columns that the charts get. -/
def shownLevels (l : Levels BurnColumn) : Levels ShownColumn := fun c => l c.toColumn

/-- What the charts get of an observation. -/
def BurnRow.shown (r : BurnRow) : Observation ℤ (Levels ShownColumn) (Option ℤ) :=
  r.observation.mapLevel shownLevels

/-- The key and the observation are the row. -/
theorem BurnRow.eq_of_observation {r r' : BurnRow} (hkey : r.key = r'.key)
    (h : r.observation = r'.observation) : r = r' := by
  obtain ⟨hservice, hbucket⟩ := Prod.mk.inj hkey
  obtain ⟨hobserved, hlevel, htarget⟩ := Observation.mk.inj h
  have hcolumn : ∀ c, r.level c = r'.level c := congrFun hlevel
  have hstate : r.state = r'.state := by
    apply BurnRateState.rank_injective
    exact Int.ofNat_inj.1 (Option.some.inj (hcolumn .state))
  have hwindow : r.window = r'.window := by
    funext id
    have hrate : (r.window id).burnRate = (r'.window id).burnRate := hcolumn (.burnRate id)
    have hexact := inexactness_injective (hcolumn (.inexact id))
    have hcounted : (r.window id).countedDowntime = (r'.window id).countedDowntime :=
      hcolumn (.countedDowntime id)
    have hexcluded : (r.window id).maintenanceExcluded = (r'.window id).maintenanceExcluded :=
      hcolumn (.maintenanceExcluded id)
    cases hr : r.window id
    cases hr' : r'.window id
    rw [hr, hr'] at hrate hexact hcounted hexcluded
    exact BurnColumns.mk.injEq .. ▸ ⟨hrate, hexact, hcounted, hexcluded⟩
  cases r
  cases r'
  simp only [BurnRow.mk.injEq]
  exact ⟨hservice, hbucket, hobserved, hstate, htarget, hwindow⟩

/-! ## Merging -/

theorem BurnRow.level_merge (stored excluded : BurnRow) :
    (stored.merge excluded).level = stored.level ⊔ excluded.level := by
  funext c
  cases c with
  | state =>
    have hrank := BurnRateState.rank_ofRank_max stored.state excluded.state
    change some (((BurnRateState.ofRank (max stored.state.rank excluded.state.rank)).rank : ℕ) : ℤ) =
      _
    rw [hrank, Nat.cast_max]
    rfl
  | burnRate id => exact greatest_eq_sup _ _
  | inexact id => exact (inexactness_and _ _).trans (greatest_eq_sup _ _)
  | countedDowntime id => exact greatest_eq_sup _ _
  | maintenanceExcluded id => exact greatest_eq_sup _ _

/-- **The update takes up an observation** unless it is earlier. -/
theorem BurnRow.observation_resolve (excluded stored : BurnRow) :
    (excluded.resolve stored).observation = stored.observation.absorb excluded.observation := by
  unfold BurnRow.resolve Observation.absorb
  by_cases hle : stored.observedAt ≤ excluded.observedAt
  · rw [if_pos hle, if_pos (show stored.observation.time ≤ excluded.observation.time from hle)]
    exact Observation.ext rfl (BurnRow.level_merge stored excluded) rfl
  · rw [if_neg hle, if_neg (show ¬ stored.observation.time ≤ excluded.observation.time from hle)]

@[simp] theorem BurnRow.key_resolve (excluded stored : BurnRow) :
    (excluded.resolve stored).key = stored.key := by
  unfold BurnRow.resolve
  split <;> rfl

theorem between_greatest {lo hi : ℤ} {a b : Option ℤ} (ha : between lo hi a = true)
    (hb : between lo hi b = true) : between lo hi (greatest a b) = true := by
  cases a with
  | none => exact hb
  | some a =>
    cases b with
    | none => exact ha
    | some b =>
      simp only [between, greatest, Option.all_some, Bool.and_eq_true, decide_eq_true_eq] at *
      omega

/-- The merged row meets the constraints, so that the update does not abort. -/
theorem BurnRow.checks_resolve {excluded stored : BurnRow}
    (hexcluded : ∀ c ∈ excluded.checks, c.2 = true) (hstored : ∀ c ∈ stored.checks, c.2 = true)
    (hkey : stored.key = excluded.key) : ∀ c ∈ (excluded.resolve stored).checks, c.2 = true := by
  have hbucket : stored.bucketStartedAt = excluded.bucketStartedAt := congrArg Prod.snd hkey
  unfold BurnRow.resolve
  split
  next =>
    simp only [BurnRow.checks, BurnRow.constraintOrder, List.map_cons, List.map_nil,
      List.cons_append, List.nil_append, List.forall_mem_cons, List.not_mem_nil] at *
    obtain ⟨-, c1, c24, c6, e1, e24, e6, ho, r1, r24, r6, ht, -⟩ := hexcluded
    obtain ⟨hb', c1', c24', c6', e1', e24', e6', -, r1', r24', r6', -⟩ := hstored
    refine ⟨hb', between_greatest c1' c1, between_greatest c24' c24, between_greatest c6' c6,
      between_greatest e1' e1, between_greatest e24' e24, between_greatest e6' e6, ?_,
      between_greatest r1' r1, between_greatest r24' r24, between_greatest r6' r6, ht, nofun⟩
    rw [← hbucket] at ho
    exact ho
  next => exact hstored

/-! ## One row goes in -/

section Upsert

variable {rows rows' : List BurnRow} {p r : BurnRow}

theorem upsert_eq_ok (h : upsert rows p = .ok rows') :
    ((∃ r ∈ rows, r.key = p.key) ∧ rows' = updateWhere (·.key = p.key) p.resolve rows) ∨
      (∀ r ∈ rows, r.key ≠ p.key) ∧ rows' = rows ++ [p] := by
  obtain ⟨-, -, h⟩ := bind_eq_ok.1 h
  split at h
  next hany =>
    obtain ⟨r, hr, hkey⟩ := List.any_eq_true.1 hany
    exact .inl ⟨⟨r, hr, of_decide_eq_true hkey⟩, (pure_eq_ok.1 h).symm⟩
  next hany =>
    exact .inr ⟨any_key_eq_false.1 (Bool.eq_false_of_not_eq_true hany), (pure_eq_ok.1 h).symm⟩

/-- The rows of other buckets stay. -/
theorem mem_upsert_of_ne (h : upsert rows p = .ok rows') (hne : r.key ≠ p.key) :
    r ∈ rows' ↔ r ∈ rows := by
  rcases upsert_eq_ok h with ⟨-, rfl⟩ | ⟨-, rfl⟩
  · rw [mem_updateWhere]
    constructor
    · rintro ⟨a, ha, rfl⟩
      by_cases hkey : a.key = p.key
      · rw [if_pos (decide_eq_true hkey), BurnRow.key_resolve] at hne
        exact absurd hkey hne
      · rw [if_neg (by simpa using hkey)]
        exact ha
    · intro hr
      exact ⟨r, hr, if_neg (by simpa using hne)⟩
  · rw [List.mem_append, List.mem_singleton]
    refine ⟨fun hr => hr.resolve_right ?_, .inl⟩
    rintro rfl
    exact hne rfl

/-- A row of the bucket takes up the report. -/
theorem resolve_mem_upsert (h : upsert rows p = .ok rows') (hr : r ∈ rows) (hkey : r.key = p.key) :
    p.resolve r ∈ rows' := by
  rcases upsert_eq_ok h with ⟨-, rfl⟩ | ⟨hnone, -⟩
  · exact mem_updateWhere.2 ⟨r, hr, if_pos (decide_eq_true hkey)⟩
  · exact absurd hkey (hnone r hr)

/-- Where a row of the bucket comes from. -/
theorem upsert_cases (h : upsert rows p = .ok rows') (hr : r ∈ rows') (hkey : r.key = p.key) :
    (∃ a ∈ rows, a.key = p.key ∧ p.resolve a = r) ∨ (∀ a ∈ rows, a.key ≠ p.key) ∧ r = p := by
  rcases upsert_eq_ok h with ⟨-, rfl⟩ | ⟨hnone, rfl⟩
  · obtain ⟨a, ha, rfl⟩ := mem_updateWhere.1 hr
    refine .inl ⟨a, ha, ?_⟩
    by_cases hakey : a.key = p.key
    · rw [if_pos (decide_eq_true hakey)]
      exact ⟨hakey, rfl⟩
    · rw [if_neg (by simpa using hakey)] at hkey
      exact absurd hkey hakey
  · refine .inr ⟨hnone, ?_⟩
    rcases List.mem_append.1 hr with hr | hr
    · exact absurd hkey (hnone r hr)
    · exact List.mem_singleton.1 hr

/-- The bucket of the report has a row. -/
theorem exists_mem_upsert (h : upsert rows p = .ok rows') : ∃ r ∈ rows', r.key = p.key := by
  rcases upsert_eq_ok h with ⟨⟨r, hr, hkey⟩, -⟩ | ⟨-, rfl⟩
  · exact ⟨p.resolve r, resolve_mem_upsert h hr hkey, by rw [BurnRow.key_resolve, hkey]⟩
  · exact ⟨p, List.mem_append_right _ List.mem_cons_self, rfl⟩

theorem unique_upsert (h : upsert rows p = .ok rows') (hunique : Unique BurnRow.key rows) :
    Unique BurnRow.key rows' := by
  rcases upsert_eq_ok h with ⟨-, rfl⟩ | ⟨hnone, rfl⟩
  · exact hunique.updateWhere fun a _ _ => BurnRow.key_resolve p a
  · exact hunique.concat hnone

end Upsert

/-! ## The reports of a bucket -/

/-- What the reports of a bucket have observed. -/
def observedIn (reports : List BurnRow) (key : SloServiceId × ℤ) :
    Set (Observation ℤ (Levels BurnColumn) (Option ℤ)) :=
  BurnRow.observation '' {x | x ∈ reports ∧ x.key = key}

/-- Every row keeps the worst of what its bucket has observed, and the target of the latest. -/
def Worst (reports rows : List BurnRow) : Prop :=
  ∀ r ∈ rows, r.observation.Peak (observedIn reports r.key)

/-- The report does not change which of the two rows of its bucket is right. -/
def FitsRows (rows : List BurnRow) (p : BurnRow) : Prop :=
  ∀ r ∈ rows, r.key = p.key → r.observation.Fits p.observation

section Reports

variable {reports rows rows' ps : List BurnRow} {p r : BurnRow} {key : SloServiceId × ℤ}

theorem observedIn_append_of_ne (h : ∀ p ∈ ps, p.key ≠ key) :
    observedIn (reports ++ ps) key = observedIn reports key := by
  unfold observedIn
  congr 1
  ext x
  simp only [Set.mem_ofPred_eq, List.mem_append]
  constructor
  · rintro ⟨hx | hx, hkey⟩
    · exact ⟨hx, hkey⟩
    · exact absurd hkey (h x hx)
  · rintro ⟨hx, hkey⟩
    exact ⟨.inl hx, hkey⟩

theorem observedIn_concat (reports : List BurnRow) (p : BurnRow) :
    observedIn (reports ++ [p]) p.key = insert p.observation (observedIn reports p.key) := by
  unfold observedIn
  rw [← Set.image_insert_eq]
  congr 1
  ext x
  simp only [Set.mem_ofPred_eq, List.mem_append, List.mem_singleton, Set.mem_insert_iff]
  constructor
  · rintro ⟨hx | rfl, hkey⟩
    · exact .inr ⟨hx, hkey⟩
    · exact .inl rfl
  · rintro (rfl | ⟨hx, hkey⟩)
    · exact ⟨.inr rfl, rfl⟩
    · exact ⟨.inl hx, hkey⟩

theorem observedIn_eq_empty (h : ∀ x ∈ reports, x.key ≠ key) : observedIn reports key = ∅ := by
  rw [observedIn, Set.image_eq_empty, Set.eq_empty_iff_forall_notMem]
  rintro x ⟨hx, hkey⟩
  exact h x hx hkey

/-- **One report**: the rows stay the worst exactly if it fits. -/
theorem worst_upsert_iff (hworst : Worst reports rows) (h : upsert rows p = .ok rows')
    (hnew : (∀ r ∈ rows, r.key ≠ p.key) → ∀ x ∈ reports, x.key ≠ p.key) :
    Worst (reports ++ [p]) rows' ↔ FitsRows rows p := by
  constructor
  · intro hworst' r hr hkey
    have hpeak := hworst' (p.resolve r) (resolve_mem_upsert h hr hkey)
    rw [BurnRow.key_resolve, hkey, observedIn_concat, BurnRow.observation_resolve] at hpeak
    have hold := hworst r hr
    rw [hkey] at hold
    exact hold.absorb_iff.1 hpeak
  · intro hfits r hr
    by_cases hkey : r.key = p.key
    · rw [hkey, observedIn_concat]
      rcases upsert_cases h hr hkey with ⟨a, ha, hakey, rfl⟩ | ⟨hnone, rfl⟩
      · have hold := hworst a ha
        rw [hakey] at hold
        rw [BurnRow.observation_resolve]
        exact hold.absorb_iff.2 (hfits a ha hakey)
      · rw [observedIn_eq_empty (hnew hnone), insert_empty_eq]
        exact Observation.peak_singleton _
    · rw [observedIn_append_of_ne fun q hq => List.mem_singleton.1 hq ▸ Ne.symm hkey]
      exact hworst r ((mem_upsert_of_ne h hkey).1 hr)

/-- The rows of buckets that are not reported on stay. -/
theorem mem_upserts_of_ne (h : ps.foldlM upsert rows = .ok rows') (hne : ∀ p ∈ ps, r.key ≠ p.key) :
    r ∈ rows' ↔ r ∈ rows := by
  induction ps generalizing rows with
  | nil => rw [pure_eq_ok.1 h]
  | cons p ps ih =>
    rw [List.foldlM_cons] at h
    obtain ⟨rows₁, hp, hps⟩ := bind_eq_ok.1 h
    rw [ih hps fun q hq => hne q (List.mem_cons_of_mem _ hq)]
    exact mem_upsert_of_ne hp (hne p List.mem_cons_self)

/-- **The reports of a call**: the rows stay the worst exactly if all of them fit. -/
theorem worst_upserts_iff (hworst : Worst reports rows) (h : ps.foldlM upsert rows = .ok rows')
    (hdistinct : ps.Pairwise fun p q => p.key ≠ q.key)
    (hnew : ∀ p ∈ ps, (∀ r ∈ rows, r.key ≠ p.key) → ∀ x ∈ reports, x.key ≠ p.key) :
    Worst (reports ++ ps) rows' ↔ ∀ p ∈ ps, FitsRows rows p := by
  induction ps generalizing reports rows with
  | nil =>
    obtain rfl := pure_eq_ok.1 h
    rw [List.append_nil]
    exact iff_of_true hworst nofun
  | cons p ps ih =>
    rw [List.foldlM_cons] at h
    obtain ⟨rows₁, hp, hps⟩ := bind_eq_ok.1 h
    obtain ⟨hpne, hdistinct⟩ := List.pairwise_cons.1 hdistinct
    have hstep := worst_upsert_iff hworst hp (hnew p List.mem_cons_self)
    -- the report of one service does not touch the rows of the others
    have hothers : ∀ q ∈ ps, ∀ r : BurnRow, r.key = q.key → (r ∈ rows₁ ↔ r ∈ rows) :=
      fun q hq r hkey => mem_upsert_of_ne hp (hkey ▸ (hpne q hq).symm)
    have hrest : Worst (reports ++ [p]) rows₁ →
        (Worst (reports ++ p :: ps) rows' ↔ ∀ q ∈ ps, FitsRows rows q) := by
      intro hworst₁
      have hih := ih hworst₁ hps hdistinct fun q hq hnone x hx => ?_
      · rw [List.append_assoc, List.singleton_append] at hih
        rw [hih]
        refine forall₂_congr fun q hq => forall_congr' fun r => ?_
        constructor
        · intro hfits hr hkey
          exact hfits ((hothers q hq r hkey).2 hr) hkey
        · intro hfits hr hkey
          exact hfits ((hothers q hq r hkey).1 hr) hkey
      · rcases List.mem_append.1 hx with hx | hx
        · refine hnew q (List.mem_cons_of_mem _ hq) (fun r hr hkey => ?_) x hx
          exact hnone r ((hothers q hq r hkey).2 hr) hkey
        · rw [List.mem_singleton.1 hx]
          exact hpne q hq
    rw [List.forall_mem_cons]
    constructor
    · intro hworst'
      have hfits : FitsRows rows p := by
        intro r hr hkey
        have hkey' : (p.resolve r).key = p.key := by rw [BurnRow.key_resolve, hkey]
        have hmem : p.resolve r ∈ rows' :=
          (mem_upserts_of_ne hps fun q hq => hkey' ▸ hpne q hq).2 (resolve_mem_upsert hp hr hkey)
        have hpeak := hworst' _ hmem
        rw [hkey', ← List.singleton_append, ← List.append_assoc,
          observedIn_append_of_ne fun q hq => (hpne q hq).symm, observedIn_concat,
          BurnRow.observation_resolve] at hpeak
        have hold := hworst r hr
        rw [hkey] at hold
        exact hold.absorb_iff.1 hpeak
      exact ⟨hfits, (hrest (hstep.2 hfits)).1 hworst'⟩
    · rintro ⟨hfits, hfits'⟩
      exact (hrest (hstep.2 hfits)).2 hfits'

end Reports

/-! ## What a call proposes -/

theorem dateBin_le (width t : ℤ) (h : 0 < width) : dateBin width t ≤ t :=
  Int.ediv_mul_le t h.ne'

theorem lt_dateBin_add (width t : ℤ) (h : 0 < width) : t < dateBin width t + width := by
  have := Int.lt_ediv_add_one_mul_self t h
  rwa [Int.add_mul, Int.one_mul] at this

/-- The bucket of a row is that of its observation. -/
def Bucketed (r : BurnRow) : Prop := r.bucketStartedAt = dateBin (5 * minute) r.observedAt

theorem ofText?_eq_some {s : String} {id : SloServiceId} (h : SloServiceId.ofText? s = some id) :
    id.text = s := by
  have hfind := List.find?_some h
  exact eq_of_beq hfind

theorem BurnSample.row_eq_ok {s : BurnSample} {bucket observedAt : ℤ} {r : BurnRow}
    (h : s.row bucket observedAt = .ok r) :
    s.serviceId = some r.serviceId.text ∧ r.bucketStartedAt = bucket ∧ r.observedAt = observedAt := by
  simp only [BurnSample.row, bind_eq_ok, orRaise_eq_ok, pure_eq_ok] at h
  obtain ⟨id, hid, state, -, one, -, six, -, day, -, rfl⟩ := h
  obtain ⟨text, htext, hid⟩ := Option.bind_eq_some_iff.1 hid
  refine ⟨?_, rfl, rfl⟩
  rw [htext, ofText?_eq_some hid]

theorem mapM_row_eq_ok {samples : List BurnSample} {ps : List BurnRow} {bucket observedAt : ℤ}
    (h : samples.mapM (·.row bucket observedAt) = .ok ps) :
    samples.map (·.serviceId) = ps.map (fun p => some p.serviceId.text) ∧
      ∀ p ∈ ps, p.bucketStartedAt = bucket ∧ p.observedAt = observedAt := by
  induction samples generalizing ps with
  | nil =>
    rw [List.mapM_nil] at h
    obtain rfl := pure_eq_ok.1 h
    exact ⟨rfl, nofun⟩
  | cons s samples ih =>
    rw [List.mapM_cons] at h
    obtain ⟨p, hp, h⟩ := bind_eq_ok.1 h
    obtain ⟨ps', hps, h⟩ := bind_eq_ok.1 h
    obtain rfl := pure_eq_ok.1 h
    obtain ⟨hid, hbucket⟩ := BurnSample.row_eq_ok hp
    obtain ⟨hids, hbuckets⟩ := ih hps
    refine ⟨by rw [List.map_cons, List.map_cons, hid, hids], ?_⟩
    exact List.forall_mem_cons.2 ⟨hbucket, hbuckets⟩

/-- The rows of a call: one service each, and one bucket that is not old. -/
structure Proposed (now : ℤ) (ps : List BurnRow) : Prop where
  recent : ∀ p ∈ ps, now - 30 * day ≤ p.bucketStartedAt
  bucketed : ∀ p ∈ ps, Bucketed p
  distinct : ps.Pairwise fun p q => p.key ≠ q.key

theorem proposedRows_eq_ok {now : ℤ} {observedAt : Option ℤ} {samples : List BurnSample}
    {ps : List BurnRow} (h : proposedRows now observedAt samples = .ok ps) : Proposed now ps := by
  simp only [proposedRows, bind_eq_ok, orRaise_eq_ok, raiseIf_eq_ok] at h
  obtain ⟨t, -, _, hpayload, _, hsamples, hrows⟩ := h
  simp only [Bool.or_eq_false_iff, decide_eq_false_iff_not, not_not, not_lt, ne_eq]
    at hpayload hsamples
  obtain ⟨⟨-, hrecent⟩, hlength⟩ := hpayload
  obtain ⟨hcount, hdistinct⟩ := hsamples
  obtain ⟨hids, hbuckets⟩ := mapM_row_eq_ok hrows
  have hall : samples.filter (·.valid) = samples :=
    List.filter_sublist.eq_of_length (hcount.trans hlength.symm)
  rw [hall] at hdistinct
  have hnodup : (samples.map (·.serviceId)).Nodup := by
    have hdedup := (List.dedup_sublist (samples.map (·.serviceId))).eq_of_length (by
      rw [hdistinct, List.length_map, hlength])
    rw [← hdedup]
    exact List.nodup_dedup _
  refine ⟨fun p hp => ?_, fun p hp => ?_, ?_⟩
  · rw [(hbuckets p hp).1]
    have hlt := lt_dateBin_add (5 * minute) t (by decide)
    have hgap : 10 * minute + 5 * minute ≤ 30 * day := by decide
    omega
  · rw [Bucketed, (hbuckets p hp).1, (hbuckets p hp).2]
  · rw [hids, List.Nodup, List.pairwise_map] at hnodup
    refine hnodup.imp fun hne hkey => hne ?_
    rw [(Prod.mk.inj hkey).1]

/-! ## A call -/

section Fold

variable {rows rows' ps : List BurnRow}

/-- What each report preserves, all of them do. -/
theorem upserts_invariant {P : List BurnRow → Prop}
    (hstep : ∀ p ∈ ps, ∀ rows rows', upsert rows p = .ok rows' → P rows → P rows')
    (h : ps.foldlM upsert rows = .ok rows') (hrows : P rows) : P rows' := by
  induction ps generalizing rows with
  | nil =>
    obtain rfl := pure_eq_ok.1 h
    exact hrows
  | cons p ps ih =>
    rw [List.foldlM_cons] at h
    obtain ⟨rows₁, hp, hps⟩ := bind_eq_ok.1 h
    refine ih (fun q hq => hstep q (List.mem_cons_of_mem _ hq)) hps ?_
    exact hstep p List.mem_cons_self rows rows₁ hp hrows

theorem bucketed_upsert {p : BurnRow} (hp : Bucketed p) (h : upsert rows p = .ok rows')
    (hrows : ∀ r ∈ rows, Bucketed r) : ∀ r ∈ rows', Bucketed r := by
  intro r hr
  by_cases hkey : r.key = p.key
  · rcases upsert_cases h hr hkey with ⟨a, ha, hakey, rfl⟩ | ⟨-, rfl⟩
    · have hbucket : a.bucketStartedAt = p.bucketStartedAt := congrArg Prod.snd hakey
      unfold BurnRow.resolve
      split
      next => exact hbucket.trans hp
      next => exact hrows a ha
    · exact hp
  · exact hrows r ((mem_upsert_of_ne h hkey).1 hr)

/-- No bucket loses its row. -/
theorem exists_key_upsert {p : BurnRow} {key : SloServiceId × ℤ} (h : upsert rows p = .ok rows')
    (hrow : ∃ r ∈ rows, r.key = key) : ∃ r ∈ rows', r.key = key := by
  obtain ⟨r, hr, hrkey⟩ := hrow
  by_cases hkey : r.key = p.key
  · exact ⟨p.resolve r, resolve_mem_upsert h hr hkey, by rw [BurnRow.key_resolve, hrkey]⟩
  · exact ⟨r, (mem_upsert_of_ne h hkey).2 hr, hrkey⟩

/-- Every bucket that is reported on has a row. -/
theorem exists_key_upserts (h : ps.foldlM upsert rows = .ok rows') :
    ∀ p ∈ ps, ∃ r ∈ rows', r.key = p.key := by
  induction ps generalizing rows with
  | nil => exact nofun
  | cons p ps ih =>
    rw [List.foldlM_cons] at h
    obtain ⟨rows₁, hp, hps⟩ := bind_eq_ok.1 h
    refine List.forall_mem_cons.2 ⟨?_, ih hps⟩
    exact upserts_invariant (P := fun rows => ∃ r ∈ rows, r.key = p.key)
      (fun q _ rows rows' hq => exists_key_upsert hq) hps (exists_mem_upsert hp)

end Fold

namespace BurnWorld

variable {w : BurnWorld} {c : BurnCall} {reports : List BurnRow}

/-- A call aborts, or the table takes up what it proposes and loses what is old. -/
theorem step_cases (w : BurnWorld) (c : BurnCall) :
    ((w.step c).rows = w.rows ∧ w.reported c = []) ∨
      ∃ rows, (w.reported c).foldlM upsert w.rows = .ok rows ∧
        Proposed (w.now + c.elapsed) (w.reported c) ∧
        (w.step c).rows = rows.filter (w.now + c.elapsed - 30 * day ≤ ·.bucketStartedAt) := by
  unfold step reported
  dsimp only
  cases hrecord : recordReliabilityBurnRateSamples (w.now + c.elapsed) w.rows c.observedAt
      c.samples with
  | error e =>
    refine .inl ⟨rfl, ?_⟩
    cases proposedRows (w.now + c.elapsed) c.observedAt c.samples <;> rfl
  | ok rows' =>
    obtain ⟨ps, hps, hrecord⟩ := bind_eq_ok.1 hrecord
    obtain ⟨rows, hrows, hfilter⟩ := bind_eq_ok.1 hrecord
    refine .inr ⟨rows, ?_, ?_, (pure_eq_ok.1 hfilter).symm⟩
    · rw [hps]
      exact hrows
    · rw [hps]
      exact proposedRows_eq_ok hps

@[simp] theorem now_step (w : BurnWorld) (c : BurnCall) : (w.step c).now = w.now + c.elapsed := by
  unfold step
  dsimp only
  split <;> rfl

/-- What holds of the table whatever has been reported. -/
structure Kept (reports : List BurnRow) (w : BurnWorld) : Prop where
  unique : Unique BurnRow.key w.rows
  bucketed : ∀ r ∈ w.rows, Bucketed r
  row : ∀ x ∈ reports, w.now - 30 * day ≤ x.bucketStartedAt → ∃ r ∈ w.rows, r.key = x.key

theorem kept_step (h : Kept reports w) : Kept (reports ++ w.reported c) (w.step c) := by
  rcases step_cases w c with ⟨hsame, hnone⟩ | ⟨rows, hrows, hproposed, hfilter⟩
  · rw [hnone, List.append_nil]
    refine ⟨hsame ▸ h.unique, hsame ▸ h.bucketed, fun x hx hrecent => ?_⟩
    rw [hsame]
    rw [now_step] at hrecent
    exact h.row x hx (by omega)
  · have hrow : ∀ x ∈ reports ++ w.reported c,
        w.now + c.elapsed - 30 * day ≤ x.bucketStartedAt → ∃ r ∈ rows, r.key = x.key := by
      intro x hx hrecent
      rcases List.mem_append.1 hx with hx | hx
      · exact upserts_invariant (P := fun rows => ∃ r ∈ rows, r.key = x.key)
          (fun q _ rows rows' hq => exists_key_upsert hq) hrows (h.row x hx (by omega))
      · exact exists_key_upserts hrows x hx
    have hunique := upserts_invariant (P := Unique BurnRow.key)
      (fun p _ rows rows' hp => unique_upsert hp) hrows h.unique
    have hbucketed := upserts_invariant (P := fun rows => ∀ r ∈ rows, Bucketed r)
      (fun p hp rows rows' hup => bucketed_upsert (hproposed.bucketed p hp) hup) hrows h.bucketed
    refine ⟨?_, ?_, fun x hx hrecent => ?_⟩
    · rw [hfilter]
      exact List.Nodup.sublist (List.filter_sublist.map _) hunique
    · rw [hfilter]
      exact fun r hr => hbucketed r (List.mem_of_mem_filter hr)
    · rw [now_step] at hrecent
      obtain ⟨r, hr, hkey⟩ := hrow x hx hrecent
      have hbucket : r.bucketStartedAt = x.bucketStartedAt := congrArg Prod.snd hkey
      refine ⟨r, ?_, hkey⟩
      rw [hfilter, List.mem_filter, hbucket]
      exact ⟨hr, decide_eq_true hrecent⟩

/-- **A call**: the rows stay the worst exactly if all reports fit. -/
theorem worst_step_iff (hkept : Kept reports w) (hworst : Worst reports w.rows) :
    Worst (reports ++ w.reported c) (w.step c).rows ↔ ∀ p ∈ w.reported c, FitsRows w.rows p := by
  rcases step_cases w c with ⟨hsame, hnone⟩ | ⟨rows, hrows, hproposed, hfilter⟩
  · rw [hnone, List.append_nil, hsame]
    exact iff_of_true hworst nofun
  · have hiff := worst_upserts_iff hworst hrows hproposed.distinct fun p hp hnone x hx hkey => ?_
    · rw [← hiff, hfilter]
      constructor
      · intro h r hr
        by_cases hkey : ∃ p ∈ w.reported c, r.key = p.key
        · obtain ⟨p, hp, hkey⟩ := hkey
          have hbucket : r.bucketStartedAt = p.bucketStartedAt := congrArg Prod.snd hkey
          refine h r (List.mem_filter.2 ⟨hr, decide_eq_true ?_⟩)
          exact hbucket ▸ hproposed.recent p hp
        · push Not at hkey
          rw [observedIn_append_of_ne fun p hp => (hkey p hp).symm]
          exact hworst r ((mem_upserts_of_ne hrows hkey).1 hr)
      · exact fun h r hr => h r (List.mem_of_mem_filter hr)
    · -- a bucket without a row has not been reported on, or it has been deleted
      have hbucket : x.bucketStartedAt = p.bucketStartedAt := congrArg Prod.snd hkey
      have hrecent := hproposed.recent p hp
      obtain ⟨r, hr, hrkey⟩ := hkept.row x hx (by omega)
      exact hnone r hr (hrkey.trans hkey)

end BurnWorld

/-! ## A display bucket -/

/-- The columns that the charts get keep least upper bounds. -/
theorem isLUB_shownLevels (S : Set (Levels BurnColumn)) (a : Levels BurnColumn) (h : IsLUB S a) :
    IsLUB (shownLevels '' S) (shownLevels a) := by
  refine isLUB_pi.2 fun c => ?_
  have hcolumn := isLUB_pi.1 h c.toColumn
  have himage : (fun l : Levels ShownColumn => l c) '' (shownLevels '' S) =
      (fun l : Levels BurnColumn => l c.toColumn) '' S :=
    Set.image_image _ _ _
  exact Eq.subst (motive := fun T => IsLUB T (a c.toColumn)) himage.symm hcolumn

/-- A rank is found again after the greatest has been taken. -/
theorem rank_ofRank_foldl (state : BurnRateState) (rest : List BurnRow) :
    (BurnRateState.ofRank (rest.foldl (fun n q => max n q.state.rank) state.rank)).rank =
      rest.foldl (fun n q => max n q.state.rank) state.rank := by
  induction rest generalizing state with
  | nil => rw [List.foldl_nil, BurnRateState.ofRank_rank]
  | cons q rest ih =>
    rw [List.foldl_cons, ← BurnRateState.rank_ofRank_max]
    exact ih _

namespace ShownBucket

variable {key : SloServiceId × ℤ} {r : BurnRow} {rest : List BurnRow}

theorem level_ofGroup_nil (key : SloServiceId × ℤ) (r : BurnRow) :
    (ofGroup key r []).level = r.shown.level := by
  funext c
  cases c with
  | state =>
    change some (((BurnRateState.ofRank r.state.rank).rank : ℕ) : ℤ) = some (r.state.rank : ℤ)
    rw [BurnRateState.ofRank_rank]
  | burnRate id => rfl
  | inexact id => rfl

theorem level_ofGroup_concat (key : SloServiceId × ℤ) (r : BurnRow) (rest : List BurnRow)
    (q : BurnRow) :
    (ofGroup key r (rest ++ [q])).level = (ofGroup key r rest).level ⊔ q.shown.level := by
  funext c
  cases c with
  | state =>
    have hall := rank_ofRank_foldl r.state (rest ++ [q])
    have hrest := rank_ofRank_foldl r.state rest
    rw [List.foldl_concat] at hall
    change some (((BurnRateState.ofRank ((rest ++ [q]).foldl _ _)).rank : ℕ) : ℤ) =
      @max (WithBot ℤ) levelSup.toMax
        (some (((BurnRateState.ofRank (rest.foldl _ _)).rank : ℕ) : ℤ)) (some (q.state.rank : ℤ))
    rw [List.foldl_concat, hall, hrest, Nat.cast_max]
    rfl
  | burnRate id =>
    have hrate : ((ofGroup key r (rest ++ [q])).window id).burnRate =
        greatest ((ofGroup key r rest).window id).burnRate (q.window id).burnRate :=
      List.foldl_concat ..
    exact hrate.trans (greatest_eq_sup _ _)
  | inexact id =>
    change inexactness ((rest ++ [q]).foldl _ _) = _
    rw [List.foldl_concat, inexactness_and]
    exact greatest_eq_sup _ _

theorem rows_concat (r q : BurnRow) (rest : List BurnRow) :
    {a | a ∈ r :: (rest ++ [q])} = insert q {a | a ∈ r :: rest} := by
  ext a
  simp only [Set.mem_ofPred_eq, List.mem_cons, List.mem_append, List.not_mem_nil, or_false,
    Set.mem_insert_iff]
  tauto

/-- **The aggregates of a group are its peak**, if rows of one time have one target. -/
theorem peak_ofGroup (htarget : ∀ a ∈ r :: rest, ∀ b ∈ r :: rest, a.observedAt = b.observedAt →
      a.targetPercent = b.targetPercent) :
    (ofGroup key r rest).observation.Peak (BurnRow.shown '' {a | a ∈ r :: rest}) := by
  have htime : IsGreatest (BurnRow.observedAt '' {a | a ∈ r :: rest})
      (ofGroup key r rest).observedAt := by
    clear htarget
    induction rest using List.reverseRecOn with
    | nil =>
      have hone : {a | a ∈ [r]} = {r} := by ext a; simp
      rw [hone, Set.image_singleton]
      exact isGreatest_singleton
    | append_singleton rest q ih =>
      rw [rows_concat, Set.image_insert_eq]
      change IsGreatest _ ((rest ++ [q]).foldl _ _)
      rw [List.foldl_concat, max_comm]
      exact ih.insert _
  refine ⟨?_, ?_, ?_⟩
  · rw [Set.image_image]
    exact htime
  · rw [Set.image_image]
    clear htarget htime
    induction rest using List.reverseRecOn with
    | nil =>
      have hone : {a | a ∈ [r]} = {r} := by ext a; simp
      rw [hone, Set.image_singleton]
      change IsLUB _ (ofGroup key r []).level
      rw [level_ofGroup_nil]
      exact isLUB_singleton
    | append_singleton rest q ih =>
      rw [rows_concat, Set.image_insert_eq]
      change IsLUB _ (ofGroup key r (rest ++ [q])).level
      rw [level_ofGroup_concat, sup_comm]
      exact ih.insert _
  · rintro _ ⟨x, hx, rfl⟩ hxtime
    change x.targetPercent = (firstBy _ (r :: rest)).bind _
    cases hfirst : firstBy (fun a b => decide (b.observedAt ≤ a.observedAt)) (r :: rest) with
    | none => exact absurd (firstBy_eq_none.1 hfirst) (List.cons_ne_nil r rest)
    | some a =>
      have ha := mem_of_firstBy hfirst
      have hlatest : ∀ b ∈ r :: rest, b.observedAt ≤ a.observedAt := fun b hb =>
        of_decide_eq_true (firstBy_le (fun a b => by simp only [decide_eq_true_eq]; omega)
          (fun a b c => by simp only [decide_eq_true_eq]; omega) hfirst hb)
      have hxa : x.observedAt ≤ a.observedAt := hlatest x hx
      have hax : a.observedAt ≤ x.observedAt := by
        have hle := htime.2 ⟨a, ha, rfl⟩
        exact hle.trans hxtime.ge
      exact htarget x hx a ha (le_antisymm hxa hax)

end ShownBucket

/-- The group of a display bucket. -/
def ShownBucket.key (b : ShownBucket) : SloServiceId × ℤ := (b.serviceId, b.bucketStartedAt)

/-- What the reports of a display bucket have observed, as far as the charts get it. -/
def shownIn (reports : List BurnRow) (width : ℤ) (key : SloServiceId × ℤ) :
    Set (Observation ℤ (Levels ShownColumn) (Option ℤ)) :=
  BurnRow.shown '' {x | x ∈ reports ∧ ShownBucket.keyOf width x = key}

theorem listReliabilityBurnRateHistory_eq_ok {now since bucketMinutes : ℤ} {rows : List BurnRow}
    {shown : List ShownBucket}
    (h : listReliabilityBurnRateHistory now rows (some since) bucketMinutes = .ok shown)
    (b : ShownBucket) :
    0 < bucketMinutes * minute ∧ (b ∈ shown ↔ ∃ a ∈ rows, since ≤ a.bucketStartedAt ∧
      shownBucket (bucketMinutes * minute) (rows.filter (since ≤ ·.bucketStartedAt))
        (ShownBucket.keyOf (bucketMinutes * minute) a) = some b) := by
  simp only [listReliabilityBurnRateHistory, bind_eq_ok, orRaise_eq_ok, raiseIf_eq_ok] at h
  obtain ⟨s, hs, _, hrange, hshown⟩ := h
  obtain rfl := Option.some.inj hs
  obtain rfl := pure_eq_ok.1 hshown
  refine ⟨?_, ?_⟩
  · simp only [Bool.or_eq_false_iff, decide_eq_false_iff_not, not_not, List.mem_cons,
      List.not_mem_nil, or_false] at hrange
    rcases hrange.2 with rfl | rfl | rfl <;> decide
  · simp only [mem_orderBy, List.mem_filterMap, List.mem_dedup, List.mem_map, List.mem_filter,
      decide_eq_true_eq]
    constructor
    · rintro ⟨_, ⟨a, ⟨ha, hsince⟩, rfl⟩, hb⟩
      exact ⟨a, ha, hsince, hb⟩
    · rintro ⟨a, ha, hsince, hb⟩
      exact ⟨_, ⟨a, ⟨ha, hsince⟩, rfl⟩, hb⟩

theorem shownBucket_eq_some {width : ℤ} {samples : List BurnRow} {key : SloServiceId × ℤ}
    {b : ShownBucket} (h : shownBucket width samples key = some b) :
    ∃ r rest, samples.filter (ShownBucket.keyOf width · = key) = r :: rest ∧
      b = .ofGroup key r rest := by
  unfold shownBucket at h
  split at h
  next => exact absurd h nofun
  next r rest hgroup => exact ⟨r, rest, hgroup, (Option.some.inj h).symm⟩

theorem exists_shownBucket {width : ℤ} {samples : List BurnRow} {r : BurnRow} (hr : r ∈ samples) :
    ∃ b, shownBucket width samples (ShownBucket.keyOf width r) = some b ∧
      b.key = ShownBucket.keyOf width r := by
  have hmem : r ∈ samples.filter (ShownBucket.keyOf width · = ShownBucket.keyOf width r) :=
    List.mem_filter.2 ⟨hr, decide_eq_true rfl⟩
  cases hgroup : samples.filter (ShownBucket.keyOf width · = ShownBucket.keyOf width r) with
  | nil =>
    rw [hgroup] at hmem
    exact absurd hmem List.not_mem_nil
  | cons a rest =>
    refine ⟨.ofGroup (ShownBucket.keyOf width r) a rest, ?_, rfl⟩
    rw [shownBucket, hgroup]

/-! ## What the history tells -/

/-- The rows keep the worst of what has been reported, and the charts show it of every display
bucket that begins in the range and after the deleted rows. -/
structure KeepsWorst (reports : List BurnRow) (w : BurnWorld) : Prop where
  stored : Worst reports w.rows
  shown : ∀ now since bucketMinutes shown,
    listReliabilityBurnRateHistory now w.rows (some since) bucketMinutes = .ok shown →
      (∀ b ∈ shown, since ≤ b.bucketStartedAt → w.now - 30 * day ≤ b.bucketStartedAt →
        b.observation.Peak (shownIn reports (bucketMinutes * minute) b.key)) ∧
      ∀ x ∈ reports, since ≤ dateBin (bucketMinutes * minute) x.bucketStartedAt →
        w.now - 30 * day ≤ dateBin (bucketMinutes * minute) x.bucketStartedAt →
        ∃ b ∈ shown, b.key = ShownBucket.keyOf (bucketMinutes * minute) x

section Shown

variable {w : BurnWorld} {reports : List BurnRow}

theorem keyOf_eq_of_key {width : ℤ} {r x : BurnRow} (h : r.key = x.key) :
    ShownBucket.keyOf width r = ShownBucket.keyOf width x := by
  obtain ⟨hservice, hbucket⟩ := Prod.mk.inj h
  rw [ShownBucket.keyOf, ShownBucket.keyOf, hservice, hbucket]

/-- The rows of a display bucket have what its reports have observed. -/
theorem iUnion_observedIn {width since : ℤ} {key : SloServiceId × ℤ} (hwidth : 0 < width)
    (hkept : w.Kept reports) (hsince : since ≤ key.2) (hrecent : w.now - 30 * day ≤ key.2) :
    (⋃ r ∈ {r | r ∈ (w.rows.filter (since ≤ ·.bucketStartedAt)).filter
        (ShownBucket.keyOf width · = key)},
      Observation.mapLevel shownLevels '' observedIn reports r.key) =
      shownIn reports width key := by
  ext o
  simp only [Set.mem_iUnion, Set.mem_ofPred_eq, List.mem_filter, decide_eq_true_eq, shownIn,
    observedIn, Set.mem_image, exists_prop]
  constructor
  · rintro ⟨r, ⟨-, hgroup⟩, _, ⟨x, ⟨hx, hxkey⟩, rfl⟩, rfl⟩
    refine ⟨x, ⟨hx, ?_⟩, rfl⟩
    rw [keyOf_eq_of_key hxkey]
    exact hgroup
  · rintro ⟨x, ⟨hx, rfl⟩, rfl⟩
    have hstart : dateBin width x.bucketStartedAt ≤ x.bucketStartedAt := dateBin_le _ _ hwidth
    obtain ⟨r, hr, hrkey⟩ := hkept.row x hx (hrecent.trans hstart)
    have hbucket : r.bucketStartedAt = x.bucketStartedAt := congrArg Prod.snd hrkey
    refine ⟨r, ⟨⟨hr, ?_⟩, keyOf_eq_of_key hrkey⟩, _, ⟨x, ⟨hx, hrkey.symm⟩, rfl⟩, rfl⟩
    rw [hbucket]
    exact hsince.trans hstart

/-- **What is stored is shown.** -/
theorem keepsWorst_of_worst (hkept : w.Kept reports) (hworst : Worst reports w.rows) :
    KeepsWorst reports w where
  stored := hworst
  shown now since bucketMinutes shown hlist := by
    constructor
    · intro b hb hsince hrecent
      obtain ⟨hwidth, hiff⟩ := listReliabilityBurnRateHistory_eq_ok hlist b
      obtain ⟨a, -, -, hbucket⟩ := hiff.1 hb
      obtain ⟨r, rest, hgroup, rfl⟩ := shownBucket_eq_some hbucket
      have hmem : ∀ q ∈ r :: rest, q ∈ w.rows ∧
          ShownBucket.keyOf (bucketMinutes * minute) q =
            ShownBucket.keyOf (bucketMinutes * minute) a := by
        intro q hq
        rw [← hgroup] at hq
        obtain ⟨hq, hkey⟩ := List.mem_filter.1 hq
        exact ⟨List.mem_of_mem_filter hq, of_decide_eq_true hkey⟩
      have hpeak : (ShownBucket.ofGroup (ShownBucket.keyOf (bucketMinutes * minute) a) r
          rest).observation.Peak (BurnRow.shown '' {q | q ∈ r :: rest}) := by
        apply ShownBucket.peak_ofGroup
        intro p hp q hq htime
        -- rows of one service that are of one time are of one bucket
        obtain ⟨hp, hpkey⟩ := hmem p hp
        obtain ⟨hq, hqkey⟩ := hmem q hq
        have hservice : p.serviceId = q.serviceId := congrArg Prod.fst (hpkey.trans hqkey.symm)
        have hbucket : p.bucketStartedAt = q.bucketStartedAt := by
          rw [hkept.bucketed p hp, hkept.bucketed q hq, htime]
        rw [hkept.unique.eq hp hq (Prod.ext hservice hbucket)]
      have hunion := Observation.Peak.biUnion (R := {q | q ∈ r :: rest}) (fun q hq =>
        (hworst q (hmem q hq).1).mapLevel isLUB_shownLevels) hpeak
      rw [← hgroup, iUnion_observedIn hwidth hkept hsince hrecent] at hunion
      exact hunion
    · intro x hx hsince hrecent
      have hwidth : 0 < bucketMinutes * minute :=
        (listReliabilityBurnRateHistory_eq_ok hlist (.ofGroup (x.serviceId, 0) x [])).1
      have hstart := dateBin_le (bucketMinutes * minute) x.bucketStartedAt hwidth
      obtain ⟨r, hr, hrkey⟩ := hkept.row x hx (hrecent.trans hstart)
      have hbucket : r.bucketStartedAt = x.bucketStartedAt := congrArg Prod.snd hrkey
      have hsince' : since ≤ r.bucketStartedAt := by
        rw [hbucket]
        exact hsince.trans hstart
      have hmem : r ∈ w.rows.filter (since ≤ ·.bucketStartedAt) :=
        List.mem_filter.2 ⟨hr, decide_eq_true hsince'⟩
      obtain ⟨b, hb, hbkey⟩ := exists_shownBucket hmem
      refine ⟨b, (listReliabilityBurnRateHistory_eq_ok hlist b).2.2 ⟨r, hr, hsince', hb⟩, ?_⟩
      rw [hbkey, keyOf_eq_of_key hrkey]

end Shown

namespace BurnWorld

/-- The table after some calls. -/
def run (now : ℤ) (calls : List BurnCall) : BurnWorld := Runs.run step (initial now) calls

/-- What the calls have reported. -/
def reports (now : ℤ) (calls : List BurnCall) : List BurnRow :=
  Runs.trace step reported (initial now) calls

/-- Every report fits the row it meets. -/
def AllFit (now : ℤ) (calls : List BurnCall) : Prop :=
  ∀ front c back, calls = front ++ c :: back →
    ∀ p ∈ (run now front).reported c, FitsRows (run now front).rows p

variable {now : ℤ} {calls : List BurnCall}

theorem kept_run (now : ℤ) (calls : List BurnCall) : Kept (reports now calls) (run now calls) :=
  Runs.run_trace (P := Kept) (fun _ _ _ h => kept_step h)
    ⟨Unique.nil _, fun _ h => absurd h List.not_mem_nil, fun _ h => absurd h List.not_mem_nil⟩ calls

theorem worst_run (h : AllFit now calls) : Worst (reports now calls) (run now calls).rows := by
  induction calls using List.reverseRecOn with
  | nil => exact fun _ h => absurd h List.not_mem_nil
  | append_singleton calls c ih =>
    have hfront : AllFit now calls := by
      intro front d back hsplit
      exact h front d (back ++ [c]) (by rw [hsplit, List.append_assoc, List.cons_append])
    unfold reports run
    rw [Runs.trace_concat, Runs.run_concat]
    exact (worst_step_iff (kept_run now calls) (ih hfront)).2 (h calls c [] rfl)

/-- Tables that keep the worst of the same reports have the same rows, but for those that are old
in one of them. -/
theorem mem_rows_of_reports {now' : ℤ} {calls' : List BurnCall} {r : BurnRow}
    (h : AllFit now calls) (h' : AllFit now' calls')
    (hreports : ∀ x, x ∈ reports now calls ↔ x ∈ reports now' calls')
    (hr : r ∈ (run now calls).rows)
    (hrecent : (run now' calls').now - 30 * day ≤ r.bucketStartedAt) :
    r ∈ (run now' calls').rows := by
  have hpeak := worst_run h r hr
  obtain ⟨_, ⟨x, ⟨hx, hxkey⟩, rfl⟩, -⟩ := hpeak.time.1
  have hbucket : x.bucketStartedAt = r.bucketStartedAt := congrArg Prod.snd hxkey
  obtain ⟨r', hr', hrkey'⟩ := (kept_run now' calls').row x ((hreports x).1 hx) (hbucket ▸ hrecent)
  have hpeak' := worst_run h' r' hr'
  have hkey : r.key = r'.key := hxkey.symm.trans hrkey'.symm
  have hsame : observedIn (reports now' calls') r'.key = observedIn (reports now calls) r.key := by
    unfold observedIn
    simp only [hreports, hkey]
  rw [hsame] at hpeak'
  rw [BurnRow.eq_of_observation hkey (hpeak.unique hpeak')]
  exact hr'

/-- **The worst is kept exactly as long as every report fits.** Then the order of the reports does
not matter. -/
theorem worst_iff (now : ℤ) (calls : List BurnCall) :
    ((∀ front back, calls = front ++ back → KeepsWorst (reports now front) (run now front)) ↔
      AllFit now calls) ∧
    ∀ now' calls', AllFit now calls → AllFit now' calls' →
      (∀ x, x ∈ reports now calls ↔ x ∈ reports now' calls') →
      ∀ r ∈ (run now calls).rows, (run now' calls').now - 30 * day ≤ r.bucketStartedAt →
        r ∈ (run now' calls').rows := by
  refine ⟨⟨fun h front c back hsplit => ?_, fun h front back hsplit => ?_⟩, ?_⟩
  · have hworst := (h front (c :: back) hsplit).stored
    have hworst' := (h (front ++ [c]) back (by rw [hsplit]; simp)).stored
    unfold reports run at hworst'
    rw [Runs.trace_concat, Runs.run_concat] at hworst'
    exact (worst_step_iff (kept_run now front) hworst).1 hworst'
  · refine keepsWorst_of_worst (kept_run now front) (worst_run fun front' c back' hsplit' => ?_)
    exact h front' c (back' ++ back) (by rw [hsplit, hsplit', List.append_assoc, List.cons_append])
  · exact fun now' calls' h h' hreports r hr => mem_rows_of_reports h h' hreports hr

end BurnWorld

/-! ## A spike that arrives late -/

namespace Sample

/-- A sample of the service without downtime; the state of the overall level is given. -/
def burnSample (overall : BurnRateState) (id : SloServiceId) : BurnSample where
  serviceId := some id.text
  state := some (if id = .overall then overall else .healthy).text
  targetPercent := some 99
  window _ := ⟨some 0, some true, some 0, some 0⟩

/-- A call that reports on all services. -/
def burnCall (observedAt : ℤ) (overall : BurnRateState) : BurnCall where
  elapsed := 0
  observedAt := some observedAt
  samples := SloServiceId.all.map (burnSample overall)

/-- A minute of health, and the minute before, which was critical. -/
def lateSpike : List BurnCall := [burnCall (2 * minute) .healthy, burnCall minute .critical]

/-- Two calls that report on different buckets, in one order and in the other. -/
def twoBuckets : List BurnCall := [burnCall (-6 * minute) .critical, burnCall minute .healthy]

def twoBucketsReversed : List BurnCall :=
  [burnCall minute .healthy, burnCall (-6 * minute) .critical]

end Sample

/-- A row that keeps the worst is not better than a report. -/
theorem Worst.rank_le {reports rows : List BurnRow} (h : Worst reports rows) {r x : BurnRow}
    (hr : r ∈ rows) (hx : x ∈ reports) (hkey : x.key = r.key) : x.state.rank ≤ r.state.rank := by
  have hle := (h r hr).level.1 ⟨x.observation, ⟨x, ⟨hx, hkey⟩, rfl⟩, rfl⟩
  exact Int.ofNat_le.1 (WithBot.coe_le_coe.1 (hle .state))

open Sample in
/-- **A spike that arrives late is lost.** -/
theorem late_spike_is_lost :
    ¬ KeepsWorst (BurnWorld.reports 0 lateSpike) (BurnWorld.run 0 lateSpike) := by
  intro h
  have hbetter : ∃ r ∈ (BurnWorld.run 0 lateSpike).rows, ∃ x ∈ BurnWorld.reports 0 lateSpike,
      x.key = r.key ∧ r.state.rank < x.state.rank := by
    decide +kernel
  obtain ⟨r, hr, x, hx, hkey, hlt⟩ := hbetter
  exact absurd (h.stored.rank_le hr hx hkey) hlt.not_ge

/-- Two calls that report on different buckets fit. -/
theorem allFit_pair {now : ℤ} {c d : BurnCall}
    (h : ∀ p ∈ (BurnWorld.run now [c]).reported d, ∀ r ∈ (BurnWorld.run now [c]).rows,
      r.key ≠ p.key) : BurnWorld.AllFit now [c, d] := by
  apply Runs.forall_split_cons (P := fun front c => ∀ p ∈ (BurnWorld.run now front).reported c,
    FitsRows (BurnWorld.run now front).rows p)
  · exact fun p _ r hr => absurd hr List.not_mem_nil
  · apply Runs.forall_split_cons (P := fun front d => ∀ p ∈ (BurnWorld.run now (c :: front)).reported d,
      FitsRows (BurnWorld.run now (c :: front)).rows p)
    · exact fun p hp r hr hkey => absurd hkey (h p hp r hr)
    · exact Runs.forall_split_nil

/-- A call that commits in two tables reports the same. -/
theorem BurnWorld.reported_congr {w w' : BurnWorld} {c : BurnCall} (hnow : w.now = w'.now)
    (h : (recordReliabilityBurnRateSamples (w.now + c.elapsed) w.rows c.observedAt
      c.samples).isOk = true)
    (h' : (recordReliabilityBurnRateSamples (w'.now + c.elapsed) w'.rows c.observedAt
      c.samples).isOk = true) : w.reported c = w'.reported c := by
  unfold reported
  dsimp only
  cases hrecord : recordReliabilityBurnRateSamples (w.now + c.elapsed) w.rows c.observedAt
      c.samples with
  | error e =>
    rw [hrecord] at h
    exact absurd h nofun
  | ok rows =>
    cases hrecord' : recordReliabilityBurnRateSamples (w'.now + c.elapsed) w'.rows c.observedAt
        c.samples with
    | error e =>
      rw [hrecord'] at h'
      exact absurd h' nofun
    | ok rows' =>
      rw [hnow]
      cases proposedRows (w'.now + c.elapsed) c.observedAt c.samples <;> rfl

open Sample in
/-- Two orders of reports, and the same rows. -/
theorem worst_iff_twoBuckets : ∀ r ∈ (BurnWorld.run 0 twoBuckets).rows,
    r ∈ (BurnWorld.run 0 twoBucketsReversed).rows := by
  have hfit : BurnWorld.AllFit 0 twoBuckets := allFit_pair (by decide +kernel)
  have hfit' : BurnWorld.AllFit 0 twoBucketsReversed := allFit_pair (by decide +kernel)
  have hrecent : ∀ r ∈ (BurnWorld.run 0 twoBuckets).rows,
      (BurnWorld.run 0 twoBucketsReversed).now - 30 * day ≤ r.bucketStartedAt := by
    decide +kernel
  have hfirst : (BurnWorld.run 0 [burnCall minute .healthy]).reported
      (burnCall (-6 * minute) .critical) =
      (BurnWorld.initial 0).reported (burnCall (-6 * minute) .critical) :=
    BurnWorld.reported_congr (by decide +kernel) (by decide +kernel) (by decide +kernel)
  have hsecond : (BurnWorld.run 0 [burnCall (-6 * minute) .critical]).reported
      (burnCall minute .healthy) = (BurnWorld.initial 0).reported (burnCall minute .healthy) :=
    BurnWorld.reported_congr (by decide +kernel) (by decide +kernel) (by decide +kernel)
  have hreports : (BurnWorld.reports 0 twoBuckets).Perm
      (BurnWorld.reports 0 twoBucketsReversed) := by
    change (_ ++ ((BurnWorld.run 0 [burnCall (-6 * minute) .critical]).reported
      (burnCall minute .healthy) ++ [])).Perm (_ ++ ((BurnWorld.run 0
        [burnCall minute .healthy]).reported (burnCall (-6 * minute) .critical) ++ []))
    rw [hfirst, hsecond, List.append_nil, List.append_nil]
    exact List.perm_append_comm
  exact fun r hr => (BurnWorld.worst_iff 0 twoBuckets).2 0 twoBucketsReversed hfit hfit'
    (fun x => hreports.mem_iff) r hr (hrecent r hr)

end IvrmDashboard.Reliability

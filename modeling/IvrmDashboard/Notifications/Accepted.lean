import IvrmDashboard.Notifications.Poison
import IvrmDashboard.Notifications.Scheduled

/-!
# Reports that are in their limits

`apply_notification_signal_v1` tests its arguments, and the tables test every row once more when it
is written. Where the arguments are in their limits (`Observation.Ok`) and the rows it finds have
passed their constraints, no test can fail, and what it writes passes them again
(`applySignal_commits`). So a trigger that reports about a run never aborts the report it is fired
by (`runSignals_commit`).
-/

namespace IvrmDashboard.Notifications

open Sql Operations Backups

/-- The time prints, in a year of at most six digits. -/
def Printable (t : Timestamptz) : Prop :=
  ∃ text, toChar keyFormat t = some text ∧ text.length ≤ 22

/-- A report that is in its limits. -/
structure Observation.Ok (e : Env) (o : Observation) : Prop where
  signalKey : Text.lengthBetween 1 500 o.signalKey = true
  entityKey : Text.lengthBetween 1 400 o.identity.entityKey = true
  entityName : Text.lengthBetween 1 256 o.identity.entityName = true
  signalType : Text.lengthBetween 1 80 o.signalType = true
  reason : Text.lengthBetween 1 1800 o.reason = true
  title : Text.lengthBetween 1 140 o.title = true
  detailHref : hrefOk o.detailHref = true
  named : o.identity.hostNamed = true
  host : Board.hostOk e o.identity = true
  severity : o.severity.isSome = true
  time : Printable o.occurredAt

/-- A signal that has passed the constraints of its table. -/
def Signal.Ok (e : Env) (s : Signal) : Prop :=
  (∀ c ∈ s.checks, c.2 = true) ∧ Board.hostOk e s.identity = true

/-- All signals have. -/
def Board.SignalsOk (e : Env) (b : Board) : Prop := ∀ s ∈ b.signals, s.Ok e

variable {e : Env} {b : Board} {o : Observation} {s : Signal}

/-! ## Signals -/

theorem shapeOk_of_hostNamed {i : Identity} (h : i.hostNamed = true) : i.shapeOk = true := by
  simp only [Identity.hostNamed, Bool.and_eq_true] at h
  obtain ⟨⟨⟨hsource, hid⟩, -⟩, htype⟩ := h
  simp [Identity.shapeOk, hsource, hid, htype]

theorem Observation.Ok.opening (ho : o.Ok e) (level : Level) : (o.opening level).Ok e := by
  refine ⟨?_, ho.host⟩
  simp [Signal.checks, Observation.opening, ho.signalKey, ho.entityKey, ho.entityName,
    ho.signalType, ho.reason, ho.detailHref, shapeOk_of_hostNamed ho.named]

theorem Signal.Ok.see (hs : s.Ok e) (ho : o.Ok e) (level : Level) : (s.see o level).Ok e := by
  refine ⟨?_, hs.2⟩
  have h := hs.1
  simp only [Signal.checks, List.forall_mem_cons] at h
  obtain ⟨hkey, hentity, hname, htype, -, -, hrecovery, hshape, -⟩ := h
  simp only [Signal.checks, Signal.see, List.forall_mem_cons]
  exact ⟨hkey, hentity, hname, htype, ho.reason, ho.detailHref, hrecovery, hshape, by simp⟩

theorem Signal.Ok.recover (hs : s.Ok e) (ho : o.Ok e) : (s.recover o).Ok e := by
  refine ⟨?_, hs.2⟩
  have h := hs.1
  simp only [Signal.checks, List.forall_mem_cons] at h
  obtain ⟨hkey, hentity, hname, htype, -, -, -, hshape, -⟩ := h
  simp only [Signal.checks, Signal.recover, List.forall_mem_cons]
  exact ⟨hkey, hentity, hname, htype, ho.reason, ho.detailHref,
    decide_eq_true (le_max_left _ _), hshape, by simp⟩

theorem Board.SignalsOk.write (hb : b.SignalsOk e) (hs : s.Ok e) : (b.write s).SignalsOk e := by
  intro t ht
  rcases mem_write_signals ht with rfl | ⟨ht, -⟩
  · exact hs
  · exact hb t ht

theorem insertSignal_eq (hs : s.Ok e) (hnone : b.signal? s.signalKey = none) :
    b.insertSignal e s = .ok (b.write s) := by
  have hchecks : checkAll s.checks = .ok () := checkAll_eq_ok.2 hs.1
  simp [Board.insertSignal, Board.write, bind, Except.bind, hchecks, raiseIf, hs.2, hnone, pure,
    Except.pure]

theorem updateSignal_eq (hs : s.Ok e) (hsome : (b.signal? s.signalKey).isSome = true) :
    b.updateSignal e s = .ok (b.write s) := by
  have hchecks : checkAll s.checks = .ok () := checkAll_eq_ok.2 hs.1
  simp [Board.updateSignal, Board.write, bind, Except.bind, hchecks, raiseIf, hs.2, hsome, pure,
    Except.pure]

/-! ## Notifications -/

theorem dedupeKey_length {k : String} {t : Transition} {at_ : Timestamptz}
    (hk : Text.lengthBetween 1 500 k = true) (hat : Printable at_) :
    ∃ key, dedupeKey k t at_ = some key ∧ Text.lengthBetween 1 700 key = true := by
  obtain ⟨text, htext, hlength⟩ := hat
  refine ⟨_, by rw [dedupeKey, htext, Option.map_some], ?_⟩
  have hkind : t.text.length ≤ 9 := by cases t <;> decide
  have hcolon : ":".length = 1 := rfl
  rw [lengthBetween_iff] at hk ⊢
  simp only [String.length_append]
  omega

theorem transitionTitle_length {t : Transition} {title : String}
    (h : Text.lengthBetween 1 140 title = true) :
    Text.lengthBetween 1 160 (transitionTitle t title) = true := by
  have hescalated : "重大化: ".length = 5 := rfl
  have hrecovered : "復旧: ".length = 4 := rfl
  rw [lengthBetween_iff] at h ⊢
  cases t <;> simp only [transitionTitle, String.length_append] <;> omega

/-- A row that passes its constraints enters the outbox, or is dropped because its key is taken. -/
theorem insertNotice_commits {n : Notice} {key : String}
    (hchecked : (n.newRow e key b.nextId).Checked) (hhost : Board.hostOk e n.identity = true) :
    ∃ r, insertNotice e n key b = .ok r ∧ r.2.signals = b.signals := by
  have hchecks : checkAll (n.newRow e key b.nextId).checks = .ok () := checkAll_eq_ok.2 hchecked
  simp only [insertNotice, hchecks, bind, Except.bind]
  split
  next old hold => exact ⟨_, rfl, rfl⟩
  next hnone =>
    simp only [hhost, Bool.not_true, raiseIf, Bool.false_eq_true, if_false]
    exact ⟨_, rfl, rfl⟩

/-- A notification of a report that is in its limits enters the outbox or is dropped. -/
theorem enqueueNotification_commits (ho : o.Ok e) (hr : e.settings.ReasonsOk) (t : Transition)
    (severity : Severity) (b : Board) :
    ∃ r, enqueueNotification e (o.notice t severity) b = .ok r ∧ r.2.signals = b.signals := by
  obtain ⟨key, hkey, hlength⟩ := dedupeKey_length ho.signalKey ho.time (t := t)
  have htitle := transitionTitle_length ho.title (t := t)
  have hnamed := ho.named
  simp only [Identity.hostNamed, Bool.and_eq_true] at hnamed
  obtain ⟨⟨⟨hsource, hid⟩, hserver⟩, htype⟩ := hnamed
  have hchecked : ((o.notice t severity).newRow e key b.nextId).Checked := by
    have hreason : (e.settings.suppressionReason e.now ((o.notice t severity).subject key)
        o.occurredAt).all (·.length ≤ 256) = true := by
      cases h : e.settings.suppressionReason e.now ((o.notice t severity).subject key)
          o.occurredAt with
      | none => rfl
      | some reason => exact decide_eq_true (suppressionReason_length hr h)
    unfold OutboxRow.Checked OutboxRow.checks
    simp only [List.forall_mem_cons]
    refine ⟨hlength, decide_eq_true (lengthBetween_iff.1 ho.signalKey).2, ho.entityKey,
      ho.entityName, htitle, ho.reason, ho.detailHref, hreason, rfl, ?_, rfl, rfl, rfl, rfl,
      shapeOk_of_hostNamed ho.named, by simp⟩
    simp only [Notice.newRow, Notice.row]
    split <;> rfl
  have hfilter : (o.notice t severity).dedupeKey.filter (Text.lengthBetween 1 700) = some key := by
    show (dedupeKey o.signalKey t o.occurredAt).filter (Text.lengthBetween 1 700) = some key
    rw [hkey, Option.filter_some, if_pos hlength]
  have htext : (o.notice t severity).textOk = true := by
    simp only [Notice.textOk, Observation.notice, ho.entityKey, ho.entityName, htitle, ho.reason,
      Bool.and_true]
  obtain ⟨r, hins, hsignals⟩ := insertNotice_commits hchecked ho.host
  refine ⟨r, ?_, hsignals⟩
  simp only [enqueueNotification, enqueue, hfilter, orRaise, bind, Except.bind, htext]
  simp only [Observation.notice, hsource, hid, hserver, htype, ho.detailHref, Bool.and_true,
    Bool.not_true, raiseIf, Bool.false_eq_true, if_false]
  exact hins

theorem announce_commits (ho : o.Ok e) (hr : e.settings.ReasonsOk) (t : Transition)
    (severity : Severity) (hb : b.SignalsOk e) :
    ∃ res b', notificationVariant.announce e o t severity b = .ok (res, b') ∧ b'.SignalsOk e := by
  obtain ⟨r, hins, hsignals⟩ := enqueueNotification_commits ho hr t severity b
  refine ⟨.moved t, r.2, ?_, ?_⟩
  · simp only [Variant.announce, notificationVariant, hins, bind, Except.bind]
    rfl
  · intro s hs
    rw [hsignals] at hs
    exact hb s hs

/-! ## Reports -/

/-- **A report in its limits is applied**, and the signals keep their constraints. -/
theorem applySignal_commits (ho : o.Ok e) (hr : e.settings.ReasonsOk) (hwf : b.Wf)
    (hb : b.SignalsOk e) :
    ∃ res b', notificationVariant.applySignal e o b = .ok (res, b') ∧ b'.SignalsOk e := by
  obtain ⟨level, hlevel⟩ := Option.isSome_iff_exists.1 ho.severity
  have hopening := ho.opening level
  unfold Variant.applySignal
  cases hs : b.signal? o.signalKey with
  | none =>
    dsimp only
    split
    next ha =>
      obtain ⟨res, b', hann, hb'⟩ := announce_commits ho hr .opened level.severity (hb.write hopening)
      refine ⟨res, b', ?_, hb'⟩
      simp only [hlevel, orRaise, bind, Except.bind, insertSignal_eq hopening hs]
      exact hann
    next => exact ⟨.unchanged, b, rfl, hb⟩
  | some s =>
    obtain ⟨hmem, hkey⟩ := Board.signal?_eq_some hs
    have hok := hb s hmem
    have hsome : (b.signal? s.signalKey).isSome = true := by rw [hkey, hs]; rfl
    have hsome' : (b.signal? o.signalKey).isSome = true := by rw [hs]; rfl
    dsimp only
    split
    next => exact ⟨.staleIgnored, b, rfl, hb⟩
    next =>
    split
    next ha =>
      simp only [hlevel, orRaise, bind, Except.bind]
      split
      next =>
        -- the report identifies the signal anew
        obtain ⟨res, b', hann, hb'⟩ :=
          announce_commits ho hr .opened level.severity (hb.write hopening)
        refine ⟨res, b', ?_, hb'⟩
        have hreopen : s.reopen o level notificationVariant.reidentifies = o.opening level := rfl
        rw [hreopen, updateSignal_eq hopening hsome']
        exact hann
      next =>
        have hsee (l : Level) : (s.see o l).Ok e := hok.see ho l
        unfold Variant.again
        split
        next =>
          obtain ⟨res, b', hann, hb'⟩ :=
            announce_commits ho hr .escalated level.severity (hb.write (hsee level))
          refine ⟨res, b', ?_, hb'⟩
          simp only [bind, Except.bind, updateSignal_eq (hsee level) hsome]
          exact hann
        next =>
          refine ⟨.unchanged, b.write (s.see o s.severity), ?_, hb.write (hsee s.severity)⟩
          have hstay : notificationVariant.deescalates = false := rfl
          simp only [hstay, Bool.false_and, Bool.false_eq_true, if_false, bind, Except.bind,
            updateSignal_eq (hsee s.severity) hsome]
          rfl
    next =>
      split
      next => exact ⟨.unchanged, b, rfl, hb⟩
      next =>
        have hrecover : (s.recover o).Ok e := hok.recover ho
        have hupdated := Board.updateOutbox_eq_updated (b := b)
          (p := OutboxRow.unannounced o.signalKey s.openedAt)
          (f := OutboxRow.suppress "signal_recovered_before_delivery") fun r hrow hp => by
            simp only [OutboxRow.unannounced, Bool.and_eq_true] at hp
            refine (hwf.checked r hrow).suppress ?_ (by decide)
            intro hsent
            rw [hsent] at hp
            exact absurd hp.2 (by decide)
        obtain ⟨res, b', hann, hb'⟩ := announce_commits ho hr .recovered .recovery
          (Board.SignalsOk.write (b := b.updated _ _) hb hrecover)
        refine ⟨res, b', ?_, hb'⟩
        simp only [Variant.recover, bind, Except.bind, hupdated]
        rw [updateSignal_eq (b := b.updated _ _) hrecover hsome]
        exact hann

/-! ## Reports about backups -/

theorem length_of_nameOk {s : String} (h : nameOk s = true) : 1 ≤ s.length ∧ s.length ≤ 64 := by
  simp only [nameOk, Bool.and_eq_true] at h
  exact lengthBetween_iff.1 h.1.1

theorem hrefChar_of_nameOk {s : String} (h : nameOk s = true) :
    s.toList.all hrefChar = true := by
  simp only [nameOk, Bool.and_eq_true, List.all_eq_true] at h
  rw [List.all_eq_true]
  intro c hc
  have hchar := h.2 c hc
  simp only [Bool.or_eq_true, decide_eq_true_eq] at hchar
  simp only [hrefChar, Bool.or_eq_true, decide_eq_true_eq]
  rcases hchar with hchar | hchar
  · exact .inl (by tauto)
  · refine .inr ?_
    have hsub : "_.-".toList.all (fun c => decide (c ∈ "_./?=&%:+#-".toList)) = true := by decide
    exact of_decide_eq_true (List.all_eq_true.1 hsub c hchar)

theorem hrefChar_uuid (u : Uuid) : u.text.toList.all hrefChar = true := by
  refine List.all_eq_true.2 fun c hc => ?_
  rcases Uuid.hexDigit_or_dash_of_mem_text hc with hhex | rfl
  · simp only [Text.hexDigit, Bool.or_eq_true] at hhex
    simp only [hrefChar, Bool.or_eq_true]
    rcases hhex with hhex | hhex
    · exact .inl (.inr hhex)
    · refine .inl (.inl (.inr ?_))
      simp only [Bool.and_eq_true, decide_eq_true_eq, Text.lowerAlpha] at hhex ⊢
      have hle : 'f' ≤ 'z' := by decide
      exact ⟨hhex.1, Char.le_trans hhex.2 hle⟩
  · decide

variable {x : BackupScope} {serverId label reason : String} {kind : BackupSignal} {active : Bool}
  {severity : Level} {occurredAt : ℤ}

theorem length_backupType {s : String} (h : s ∈ backupTypes) : 1 ≤ s.length ∧ s.length ≤ 11 := by
  have hall : ∀ s ∈ backupTypes, 1 ≤ s.length ∧ s.length ≤ 11 := by decide
  exact hall s h

/-- The texts made of a scope are in their limits. -/
theorem backupSignal_texts (hx : x.ok = true) (kind : BackupSignal) :
    Text.lengthBetween 1 500 (Origin.backup x.hostId x.backupTarget x.gameMode x.backupType
      kind).signalKey = true ∧
      Text.lengthBetween 1 400 (backupEntityKey x.hostId x.backupTarget x.gameMode x.backupType) =
        true ∧
      relativeHrefOk ("/backups?range=24h#backup-target-" ++ x.hostId.text ++ "-" ++
        x.backupTarget ++ "-" ++ x.gameMode ++ "-" ++ x.backupType) = true := by
  simp only [BackupScope.ok, Bool.and_eq_true, decide_eq_true_eq] at hx
  obtain ⟨⟨htarget, hmode⟩, htype⟩ := hx
  have ht := length_of_nameOk htarget
  have hm := length_of_nameOk hmode
  have hb := length_backupType htype
  have hu := Uuid.length_text x.hostId
  have hkind : kind.text.length ≤ 12 := by cases kind <;> decide
  have hc : ":".length = 1 := rfl
  have hbackup : "backup:".length = 7 := rfl
  refine ⟨?_, ?_, ?_⟩
  · rw [lengthBetween_iff]
    simp only [Origin.signalKey, backupEntityKey, String.length_append]
    omega
  · rw [lengthBetween_iff]
    simp only [backupEntityKey, String.length_append]
    omega
  · have hd : "-".length = 1 := rfl
    have hpath : "/backups?range=24h#backup-target-".length = 33 := rfl
    have hstart : "/backups?range=24h#backup-target-".toList =
        '/' :: 'b' :: "ackups?range=24h#backup-target-".toList := rfl
    have htypeChar : x.backupType.toList.all hrefChar = true := by
      have hall : ∀ s ∈ backupTypes, s.toList.all hrefChar = true := by decide
      exact hall _ htype
    have hpathChar : "/backups?range=24h#backup-target-".toList.all hrefChar = true := by decide
    have hdash : "-".toList.all hrefChar = true := by decide
    simp only [relativeHrefOk, hrefOk, Bool.and_eq_true, decide_eq_true_eq, String.toList_append,
      List.all_append, hpathChar, hdash, hrefChar_uuid, hrefChar_of_nameOk htarget,
      hrefChar_of_nameOk hmode, htypeChar, and_true, String.length_append]
    refine ⟨⟨by omega, ?_⟩, ?_⟩ <;> simp [hstart]

/-- What a report about the backups of a scope says is in its limits. -/
theorem backupSignal_ok (hserver : Text.lengthBetween 1 128 serverId = true) (hx : x.ok = true)
    (hhost : e.settings.isHost x.hostId = true) (hlabel : label.length ≤ 16)
    (hreason : Text.lengthBetween 1 1800 reason = true) (htime : Printable (.ofInstant occurredAt)) :
    ∃ o, (backupSignal serverId x kind label active severity occurredAt reason).observation?
      Identity.hostNamed = some o ∧ o.Ok e := by
  obtain ⟨hkey, hentity, hhref⟩ := backupSignal_texts hx kind
  have hx' := hx
  simp only [BackupScope.ok, Bool.and_eq_true] at hx'
  have htarget := length_of_nameOk hx'.1.1
  have hname : Text.lengthBetween 1 256 x.backupTarget = true := lengthBetween_iff.2 (by omega)
  have htitle : Text.lengthBetween 1 140 (x.backupTarget ++ label) = true := by
    rw [lengthBetween_iff, String.length_append]
    omega
  have htype : Text.lengthBetween 1 80 kind.text = true := by cases kind <;> decide
  have hsource : Source.ofText? "backup" = some .backup := by decide
  have hlevel : Level.ofText? severity.text = some severity := by cases severity <;> decide
  have hnamed : Identity.hostNamed ⟨.backup, some x.hostId, serverId, .backup,
      backupEntityKey x.hostId x.backupTarget x.gameMode x.backupType, x.backupTarget⟩ = true := by
    simp [Identity.hostNamed, hserver, Source.ofHost]
  refine ⟨⟨(Origin.backup x.hostId x.backupTarget x.gameMode x.backupType kind).signalKey,
    ⟨.backup, some x.hostId, serverId, .backup,
      backupEntityKey x.hostId x.backupTarget x.gameMode x.backupType, x.backupTarget⟩,
    kind.text, active, some severity, .ofInstant occurredAt, reason, x.backupTarget ++ label,
    "/backups?range=24h#backup-target-" ++ x.hostId.text ++ "-" ++ x.backupTarget ++ "-" ++
      x.gameMode ++ "-" ++ x.backupType⟩, ?_, ?_⟩
  · simp only [SignalParams.observation?, backupSignal, Option.filter_some, hkey, hentity, hname,
      htype, hreason, htitle, hhref, if_true, Option.bind_some, hsource, hlevel, hnamed, bind]
  · refine ⟨hkey, hentity, hname, htype, hreason, htitle, ?_, hnamed, hhost, rfl, htime⟩
    simp only [relativeHrefOk, Bool.and_eq_true] at hhref
    exact hhref.1

/-- A report of a trigger. -/
theorem applyScheduled_commits {p : SignalParams} (hp : p.observation? Identity.hostNamed = some o)
    (ho : o.Ok e) (hr : e.settings.ReasonsOk) (hwf : b.Wf) (hb : b.SignalsOk e) :
    ∃ b', applyScheduled e b p = .ok b' ∧ b'.Wf ∧ b'.SignalsOk e := by
  obtain ⟨res, b', happly, hb'⟩ := applySignal_commits ho hr hwf hb
  refine ⟨b', ?_, ?_, hb'⟩
  · simp only [applyScheduled, applyNotificationSignal, hp, orRaise, bind, Except.bind, happly]
    rfl
  · have happlied := Variant.applySignal_eq_ok (K := .any) notificationVariant_enqueues
      (fun _ _ _ _ => trivial) happly
    exact happlied.wf hwf

theorem foldlM_applyScheduled_commits {ps : List SignalParams}
    (hps : ∀ p ∈ ps, ∃ o, p.observation? Identity.hostNamed = some o ∧ o.Ok e)
    (hr : e.settings.ReasonsOk) (hwf : b.Wf) (hb : b.SignalsOk e) :
    ∃ b', ps.foldlM (applyScheduled e) b = .ok b' ∧ b'.Wf ∧ b'.SignalsOk e := by
  induction ps generalizing b with
  | nil => exact ⟨b, rfl, hwf, hb⟩
  | cons p ps ih =>
    obtain ⟨o, hp, ho⟩ := hps p List.mem_cons_self
    obtain ⟨b₁, h₁, hwf₁, hb₁⟩ := applyScheduled_commits hp ho hr hwf hb
    obtain ⟨b', h, hb'⟩ := ih (fun q hq => hps q (List.mem_cons_of_mem p hq)) hwf₁ hb₁
    refine ⟨b', ?_, hb'⟩
    rw [List.foldlM_cons, h₁]
    exact h

/-- **The alerts of a run never take its report back.** -/
theorem runSignals_commit {r : BackupRun} (hr : e.settings.ReasonsOk)
    (hserver : Text.lengthBetween 1 128 serverId = true) (hx : r.scope.ok = true)
    (hhost : e.settings.isHost r.scope.hostId = true)
    (hcode : r.failureCode.all (· ∈ failureCodes) = true)
    (htime : Printable (.ofInstant (r.completedAt.getD r.startedAt))) (hwf : b.Wf)
    (hb : b.SignalsOk e) :
    ∃ b', (runSignals serverId r).foldlM (applyScheduled e) b = .ok b' ∧ b'.Wf ∧
      b'.SignalsOk e := by
  refine foldlM_applyScheduled_commits ?_ hr hwf hb
  have hfailure : Text.lengthBetween 1 1800 ("Backup失敗: " ++ r.failureCode.getD "unknown") =
      true := by
    have hlength : (r.failureCode.getD "unknown").length ≤ 18 := by
      cases hc : r.failureCode with
      | none => decide
      | some code =>
        have hall : ∀ s ∈ failureCodes, s.length ≤ 18 := by decide
        rw [hc] at hcode
        exact hall code (of_decide_eq_true hcode)
    have hstart : "Backup失敗: ".length = 10 := rfl
    rw [lengthBetween_iff, String.length_append]
    omega
  intro p hp
  unfold runSignals at hp
  rcases List.mem_append.1 hp with hp | hp
  · split at hp
    · rw [List.mem_singleton.1 hp]
      exact backupSignal_ok hserver hx hhost (by decide) hfailure htime
    · split at hp
      · rw [List.mem_singleton.1 hp]
        exact backupSignal_ok hserver hx hhost (by decide) (by decide) htime
      · exact absurd hp List.not_mem_nil
  · split at hp
    · rw [List.mem_singleton.1 hp]
      exact backupSignal_ok hserver hx hhost (by decide) (by decide) htime
    · split at hp
      · rw [List.mem_singleton.1 hp]
        exact backupSignal_ok hserver hx hhost (by decide) (by decide) htime
      · exact absurd hp List.not_mem_nil

end IvrmDashboard.Notifications

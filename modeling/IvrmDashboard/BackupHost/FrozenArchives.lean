import IvrmDashboard.BackupHost.SavesRestored

/-!
# Archives of frozen worlds

An archive gets its name only with a `tar` behind it that succeeded, and the `tar` of a server that
was found running stands behind a `save-off` and a flush, with no `save-on` in between (`Tarred`).
This holds whatever the commands do and wherever the script is stopped.
-/

namespace IvrmDashboard.BackupHost

open Shell Script

variable {c output : String} {l : List Event} {e : Event}

/-- A `save-off` of `c` took effect, a flush succeeded after it, and no `save-on` followed. -/
def FrozenSince (c : String) (l : List Event) : Prop :=
  ∃ a o b cmd d, l = a ++ .rcon c .saveOff o :: (b ++ .rcon c cmd .succeeds :: d) ∧
    o.took = true ∧ cmd.flushes = true ∧ ∀ o', .rcon c .saveOn o' ∉ b ++ d

/-- The last `tar` of the archive succeeded; a server that was running then was frozen. -/
def Tarred (c output : String) (l : List Event) : Prop :=
  ∃ g items h, l = g ++ .tar c output items .succeeds :: h ∧
    (∀ items' o, .tar c output items' o ∉ h) ∧
    (lastState c g = some .running → FrozenSince c g)

/-- Every archive that was finalized had been tarred like that. -/
def Finalized (l : List Event) : Prop :=
  ∀ front c output o back, l = front ++ .mv c output o :: back → o.took = true →
    Tarred c output front

theorem FrozenSince.of_saveOff {o : Outcome} {cmd : RconCommand} (mid : List Event)
    (ho : o.took = true) (hcmd : cmd.flushes = true) (hmid : ∀ o', .rcon c .saveOn o' ∉ mid) :
    FrozenSince c (l ++ .rcon c .saveOff o :: mid ++ [.rcon c cmd .succeeds]) := by
  refine ⟨l, o, mid, cmd, [], ?_, ho, hcmd, fun o' => ?_⟩
  · simp only [List.append_assoc, List.cons_append]
  · rw [List.append_nil]
    exact hmid o'

theorem tarred_concat_tar {items : List String} (h : lastState c l = some .running → FrozenSince c l) :
    Tarred c output (l ++ [.tar c output items .succeeds]) :=
  ⟨l, items, [], rfl, fun _ _ => List.not_mem_nil, h⟩

theorem Tarred.concat (h : Tarred c output l) (he : ∀ items o, e ≠ .tar c output items o) :
    Tarred c output (l ++ [e]) := by
  obtain ⟨g, items, d, rfl, hd, hfrozen⟩ := h
  refine ⟨g, items, d ++ [e], ?_, fun items' o hmem => ?_, hfrozen⟩
  · rw [List.append_assoc, List.cons_append]
  · obtain hmem | hmem := List.mem_append.mp hmem
    · exact hd items' o hmem
    · exact he items' o (List.mem_singleton.mp hmem).symm

theorem Finalized.concat (h : Finalized l)
    (he : ∀ c output o, e = .mv c output o → o.took = true → Tarred c output l) :
    Finalized (l ++ [e]) := by
  intro front c output o back hl ho
  induction back using List.reverseRecOn with
  | nil =>
    obtain ⟨rfl, hlast⟩ := List.append_inj' hl rfl
    exact he c output o (List.cons.inj hlast).1 ho
  | append_singleton back b _ =>
    rw [← List.cons_append, ← List.append_assoc] at hl
    exact h front c output o back (List.append_inj' hl rfl).1 ho

theorem Finalized.concat_other (h : Finalized l) (he : e.finalizes = false) :
    Finalized (l ++ [e]) := by
  refine h.concat fun c output o hmv _ => ?_
  rw [hmv] at he
  cases he

/-! ## One function after the other -/

theorem interruptible_finalized :
    Interruptible (fun s => Finalized s.trace) (fun _ s => Finalized s.trace) where
  signal _ _ h := h.concat_other rfl
  log _ _ h he := h.concat_other he

theorem Restoring.not_finalizes (h : Restoring c e) : e.finalizes = false := by
  obtain ⟨a, rfl⟩ | ⟨cmd, o, rfl, -⟩ := h
  · rfl
  · rfl

theorem restoreSaves_finalized {s : World} (h : Finalized s.trace) (P : List Event → Prop)
    (hP : P s.trace) (hkeep : ∀ l e, P l → Restoring c e → P (l ++ [e])) :
    wp (restoreSaves c) (fun _ s' => Finalized s'.trace ∧ P s'.trace) (fun _ s => Finalized s.trace)
      s := by
  refine (restoreSaves_settles interruptible_finalized h).mono ?_ fun _ _ h => h
  rintro _ s' ⟨ha, -⟩
  refine ha.grown.keeps (P := fun l => Finalized l ∧ P l) ?_ ⟨h, hP⟩
  exact fun l e hl he => ⟨hl.1.concat_other he.not_finalizes, hkeep l e hl.2 he⟩

/-- A command that records nothing. -/
theorem silent_finalized {α : Type} {f : Choice → World → α × World} {s : World}
    {Q : α → World → Prop} (h : Finalized s.trace) (hQ : ∀ w, Q (f w s).1 (f w s).2) :
    wp (command f) Q (fun _ s => Finalized s.trace) s :=
  wp_command (fun _ => h.concat_other rfl) hQ

theorem freeze_finalized {s : World} (h : Finalized s.trace) :
    wp (freeze c) (fun r s' => Finalized s'.trace ∧ (r = true → FrozenSince c s'.trace))
      (fun _ s => Finalized s.trace) s := by
  have hE := interruptible_finalized
  apply wp_bind
  refine (flush_after hE h).mono (fun _ s₁ ha => ?_) fun _ _ h => h
  have h₁ : Finalized s₁.trace := by
    refine ha.grown.keeps (P := Finalized) ?_ h
    rintro l e hl ⟨cmd, o, rfl, -⟩
    exact hl.concat_other rfl
  refine wp_ite (fun _ => wp_bind (wp_modify (wp_pure ⟨h₁, nofun⟩))) fun _ => ?_
  apply wp_bind
  refine wp_rconExec hE h₁ fun o => ?_
  have h₂ : Finalized (s₁.trace ++ [.rcon c .saveOff o]) := h₁.concat_other rfl
  refine wp_ite (fun _ => wp_bind (wp_modify (wp_pure ⟨h₂, nofun⟩))) fun ho => ?_
  have htook : o.took = true := by
    refine Outcome.took_of_ok ?_
    cases hok : o.ok with
    | true => rfl
    | false =>
      rw [hok] at ho
      exact absurd rfl ho
  refine wp_bind (wp_setFrozen hE h₂ (wp_bind (silent_finalized h₂ fun _ => wp_bind ?_)))
  have restore : ∀ s' : World, Finalized s'.trace → wp (do
      setFailed
      if ← restoreSaves c then
        setFrozen none
        pure false
      else
        pure false : Sh Bool)
      (fun r s' => Finalized s'.trace ∧ (r = true → FrozenSince c s'.trace))
      (fun _ s => Finalized s.trace) s' := by
    intro s' h'
    refine wp_bind (wp_modify (wp_bind ?_))
    refine (restoreSaves_finalized (s := { s' with failed := true }) h' (fun _ => True) trivial
      fun _ _ _ _ => trivial).mono ?_ fun _ _ h => h
    intro r s'' h''
    refine wp_ite (fun _ => ?_) fun _ => wp_pure ⟨h''.1, nofun⟩
    exact wp_bind (wp_setFrozen hE h''.1 (wp_pure ⟨h''.1, nofun⟩))
  refine wp_flush hE h₂ ?_ fun o₁ o₂ => ?_
  · refine wp_pure ⟨h₂.concat_other rfl, fun _ => ?_⟩
    exact FrozenSince.of_saveOff [] htook rfl fun _ => List.not_mem_nil
  · have h₃ := (h₂.concat_other (e := .rcon c .saveAllFlush o₁) rfl).concat_other
      (e := .rcon c .saveAll o₂) rfl
    refine wp_ite (fun _ => restore _ h₃) fun hok => wp_pure ⟨h₃, fun _ => ?_⟩
    have ho₂ : o₂ = .succeeds := by
      refine Outcome.eq_succeeds ?_
      cases hok₂ : o₂.ok with
      | true => rfl
      | false =>
        rw [hok₂] at hok
        exact absurd rfl hok
    rw [ho₂]
    have hfrozen : FrozenSince c (_ ++ [.rcon c .saveAll .succeeds]) :=
      FrozenSince.of_saveOff (l := s₁.trace) [.rcon c .saveAllFlush o₁] htook rfl
        fun o' hmem => nomatch List.mem_singleton.mp hmem
    simpa only [World.trace_log, List.append_assoc, List.cons_append, List.nil_append] using hfrozen

theorem tarred_of_restoring (l : List Event) (e : Event) (h : Tarred c output l)
    (he : Restoring c e) : Tarred c output (l ++ [e]) := by
  refine h.concat fun items o hmem => ?_
  obtain ⟨a, rfl⟩ | ⟨cmd, o', rfl, -⟩ := he
  · cases hmem
  · cases hmem

theorem finalize_finalized {tarOk restoreFailed : Bool} {s : World} (h : Finalized s.trace)
    (htar : tarOk = true → Tarred c output s.trace) :
    wp (finalize c output tarOk restoreFailed) (fun _ s' => Finalized s'.trace)
      (fun _ s => Finalized s.trace) s := by
  have remove : ∀ (file : String) (s' : World), Finalized s'.trace → wp (do
      rm file
      setFailed
      pure false : Sh Bool) (fun _ s' => Finalized s'.trace) (fun _ s => Finalized s.trace) s' :=
    fun _ _ h' => wp_bind (silent_finalized h' fun _ => wp_bind (wp_modify (wp_pure h')))
  refine wp_ite (fun _ => remove _ _ h) fun hok => wp_bind ?_
  refine silent_finalized h fun w => ?_
  have htarred : Tarred c output s.trace := by
    cases tarOk with
    | true => exact htar rfl
    | false => exact absurd rfl hok
  dsimp only
  cases s.directory.lookup (partialOf output) with
  | none => exact wp_ite (fun _ => wp_bind (wp_modify (wp_pure h))) fun hmv => absurd rfl hmv
  | some file =>
    have hmoved : Finalized (s.trace ++ [.mv c output w.outcome]) := by
      refine h.concat fun c' output' o hmv _ => ?_
      cases hmv
      exact htarred
    refine wp_ite (fun _ => wp_bind (wp_modify (wp_pure hmoved))) fun _ => wp_bind ?_
    refine silent_finalized hmoved fun w' => ?_
    have htouched := hmoved.concat_other (e := .touch (pendingOf output) w'.outcome) rfl
    exact wp_ite (fun _ => remove _ _ htouched) fun _ => wp_pure htouched

theorem archiveItems_finalized {target : Target} {s : World} (h : Finalized s.trace)
    {Q : List String → World → Prop} (hQ : ∀ items, Q items s) :
    wp (archiveItems target) Q (fun _ s => Finalized s.trace) s := by
  refine wp_ite (fun _ => ?_) fun _ => wp_pure (hQ _)
  refine wp_bind (silent_finalized h fun _ => wp_bind (silent_finalized h fun _ => wp_bind ?_))
  refine silent_finalized h fun _ => wp_bind (silent_finalized h fun _ => wp_bind ?_)
  exact silent_finalized h fun _ => wp_pure (hQ _)

theorem archive_finalized {target : Target} {date : String} {running : Bool} {s : World}
    (h : Finalized s.trace)
    (hfrozen : lastState target.container s.trace = some .running →
      FrozenSince target.container s.trace) :
    wp (archive target date running) (fun _ s' => Finalized s'.trace)
      (fun _ s => Finalized s.trace) s := by
  refine wp_bind (archiveItems_finalized h fun items => wp_bind (silent_finalized h fun _ => ?_))
  refine wp_bind (silent_finalized h fun w => ?_)
  have h₁ := h.concat_other
    (e := .tar target.container (outputOf target.name date) items w.outcome) rfl
  have htar : w.outcome.ok = true → Tarred target.container (outputOf target.name date)
      (s.trace ++ [.tar target.container (outputOf target.name date) items w.outcome]) := by
    intro hok
    rw [Outcome.eq_succeeds hok]
    exact tarred_concat_tar hfrozen
  refine wp_ite (fun _ => wp_bind ?_) fun _ => finalize_finalized h₁ htar
  refine (restoreSaves_finalized h₁ (fun l => w.outcome.ok = true →
    Tarred target.container (outputOf target.name date) l) htar ?_).mono ?_ fun _ _ h => h
  · exact fun l e hl he hok => tarred_of_restoring l e (hl hok) he
  rintro r s₂ ⟨h₂, htar₂⟩
  refine wp_ite (fun _ => ?_) fun _ => ?_
  · exact wp_bind (wp_setFrozen interruptible_finalized h₂ (finalize_finalized h₂ htar₂))
  · refine wp_bind (wp_echoCritical interruptible_finalized h₂ (wp_bind (wp_modify ?_)))
    refine finalize_finalized (h₂.concat_other rfl) fun hok => ?_
    exact (htar₂ hok).concat fun _ _ hcrit => nomatch hcrit

theorem backupServer_finalized {target : Target} {date : String} {s : World}
    (h : Finalized s.trace) :
    wp (backupServer target date) (fun _ s' => Finalized s'.trace)
      (fun _ s => Finalized s.trace) s := by
  refine wp_bind (silent_finalized h fun _ => wp_ite (fun _ => wp_pure h) fun _ => wp_bind ?_)
  refine wp_containerState interruptible_finalized h fun answer => ?_
  have h₁ := h.concat_other (e := .state target.container answer) rfl
  have hlast : lastState target.container (s.trace ++ [.state target.container answer]) = answer := by
    rw [lastState_concat]
    exact if_pos rfl
  have hbaseline : answer ≠ some .running → wp (do
      if ← read fun s => hasExistingBackup target.name s.directory then
        pure true
      else
        archive target date false : Sh Bool) (fun _ s' => Finalized s'.trace)
      (fun _ s => Finalized s.trace) (s.log (.state target.container answer)) := by
    intro hanswer
    refine wp_bind (wp_read (wp_ite (fun _ => wp_pure h₁) fun _ => archive_finalized h₁ fun hrun => ?_))
    exact absurd (hlast.symm.trans hrun) hanswer
  cases answer with
  | none => exact wp_bind (wp_modify (wp_pure h₁))
  | some state =>
    cases state with
    | stopped => exact hbaseline (by decide)
    | missing => exact hbaseline (by decide)
    | running =>
      refine wp_bind ((freeze_finalized h₁).mono (fun r s₂ h₂ => ?_) fun _ _ h => h)
      refine wp_ite (fun hr => ?_) fun _ => wp_pure h₂.1
      exact archive_finalized h₂.1 fun _ => h₂.2 hr

theorem backupAll_finalized {date : String} {ts : List Target} {s : World}
    (h : Finalized s.trace) :
    wp (backupAll date ts) (fun _ s' => Finalized s'.trace) (fun _ s => Finalized s.trace) s := by
  induction ts generalizing s with
  | nil => exact wp_pure h
  | cons t ts ih =>
    refine wp_bind ((backupServer_finalized h).mono (fun r s' h' => ?_) fun _ _ h => h)
    exact wp_ite (fun _ => ih h') fun _ => wp_modify h'

theorem pruneAll_finalized {localKeep : ℤ} {ts : List Target} {s : World} (h : Finalized s.trace) :
    wp (pruneAll localKeep ts) (fun _ s' => Finalized s'.trace) (fun _ s => Finalized s.trace)
      s := by
  induction ts generalizing s with
  | nil => exact wp_pure h
  | cons t ts ih =>
    refine wp_bind (wp_bind (silent_finalized h fun w => wp_ite (fun _ => ?_) fun _ => ?_))
    · exact silent_finalized h fun w' => ih (h.concat_other rfl)
    · exact wp_pure (ih h)

theorem cleanup_finalized {code : ℕ} {s : World} (h : Finalized s.trace) :
    wp (cleanup code) (fun _ s' => Finalized s'.trace) (fun _ s => Finalized s.trace) s := by
  have hE := interruptible_finalized
  refine wp_bind (wp_modify (wp_bind (wp_read ?_)))
  generalize hs₁ : ({ s with exiting := true } : World) = s₁
  have h₁ : Finalized s₁.trace := by
    rw [← hs₁]
    exact h
  cases s₁.frozenContainer with
  | none => exact silent_finalized h₁ fun _ => h₁
  | some c =>
    refine wp_bind ((restoreSaves_finalized h₁ (fun _ => True) trivial
      fun _ _ _ _ => trivial).mono (fun r s' h' => ?_) fun _ _ h => h)
    refine wp_ite (fun _ => ?_) fun _ => ?_
    · exact wp_bind (wp_setFrozen hE h'.1 (silent_finalized h'.1 fun _ => h'.1))
    · have hcrit := h'.1.concat_other (e := .critical c) rfl
      exact wp_bind (wp_echoCritical hE h'.1 (silent_finalized hcrit fun _ => hcrit))

/-- Wherever the script ends, what it finalized was tarred in the frozen world. -/
theorem minecraftBackup_finalized (localKeep date : String) (directory : Directory) :
    wp (minecraftBackup localKeep date) (fun _ s' => Finalized s'.trace)
      (fun _ s => Finalized s.trace) (World.boot directory) := by
  have hnil : Finalized [] := fun front _ _ _ _ hl =>
    absurd hl.symm (List.append_ne_nil_of_right_ne_nil front (List.cons_ne_nil _ _))
  refine wp_ite (fun _ => ?_) fun _ => wp_pure hnil
  refine wp_bind (wp_modify (wp_onExit (fun _ s' => Finalized s'.trace) ?_
    fun code s h => cleanup_finalized h))
  have hbody : wp (body (shellInteger localKeep) date) (fun _ s' => Finalized s'.trace)
      (fun _ s => Finalized s.trace) (World.boot directory) := by
    refine wp_bind ((backupAll_finalized hnil).mono (fun _ s₁ h₁ => ?_) fun _ _ h => h)
    refine wp_bind ((pruneAll_finalized h₁).mono (fun _ s₂ h₂ => ?_) fun _ _ h => h)
    exact wp_bind (wp_read (silent_finalized h₂ fun _ => h₂))
  refine hbody.mono (fun _ _ h => h) fun o s h => ?_
  cases o with
  | none => exact h
  | some code => exact h

/-! ## The run of the script -/

/-- Every `save-off` that took effect was answered: by a `save-on` and a flush, by an inspection
that finds the container stopped, or by a `CRITICAL` line and a code that is not zero. -/
def SwitchedOn (code : ℕ) (l : List Event) : Prop :=
  ∀ front c o back, l = front ++ .rcon c .saveOff o :: back → o.took = true →
    SavedAgain c back ∨ lastState c back = some .stopped ∨ .critical c ∈ back ∧ code ≠ 0

/-- A script that exits leaves no world unsaved, where its signals and `save-off` commands are as
`Sheltered` asks; and an archive of a running server is one of a frozen world. -/
theorem minecraftBackup_switchesOn (localKeep date : String) (directory : Directory)
    (env : ℕ → Choice) (code : ℕ)
    (hcode : exitCode (minecraftBackup localKeep date env 0 (World.boot directory)).1 = some code) :
    let l := (minecraftBackup localKeep date env 0 (World.boot directory)).2.2.trace
    Finalized l ∧ (Sheltered l → SwitchedOn code l) := by
  have hrestored := minecraftBackup_restored localKeep date directory env 0
  have hfinal := minecraftBackup_finalized localKeep date directory env 0
  generalize minecraftBackup localKeep date env 0 (World.boot directory) = run at *
  obtain ⟨r, n, s⟩ := run
  have hres : Restored code s := by
    cases r with
    | done code' =>
      cases hcode
      exact hrestored
    | exited code' =>
      cases hcode
      exact hrestored code rfl
    | killed => cases hcode
  refine ⟨?_, fun hs front c o back hl ho => ?_⟩
  · cases r with
    | done code' => exact hfinal
    | exited code' => exact hfinal
    | killed => exact hfinal
  · obtain ⟨hset, htold⟩ := hres hs
    obtain h | h | h := hset c front _ back hl ⟨o, rfl, ho⟩
    · exact .inl h
    · exact .inr (.inl h)
    · refine .inr (.inr ⟨h, htold c ?_⟩)
      rw [hl]
      exact List.mem_append_right front (List.mem_cons_of_mem _ h)

/-! ### Two runs -/

/-- The entry is no signal and no `save-off` that hides its effect. -/
def calm : Event → Bool
  | .signal _ _ _ => false
  | .rcon _ .saveOff .takesEffectAndFails => false
  | _ => true

theorem Sheltered.of_calm (h : l.all calm = true) : Sheltered l := by
  rw [List.all_eq_true] at h
  constructor
  · exact fun c hc => absurd (h _ hc) Bool.false_ne_true
  · rintro front sig frozen exiting back rfl
    exact absurd (h _ (List.mem_append_right front List.mem_cons_self)) Bool.false_ne_true

namespace Sample

/-- The world that chooses `choices` and then succeeds in everything. -/
def choosing (choices : List Choice) (n : ℕ) : Choice := choices.getD n {}

def found : Choice := { present := ["/opt/ivrm/compose/minecraft-paper/data"] }

def inspected : Choice := { printed := some "true" }

/-- `mc-paper` is backed up and there is no other server. -/
def quiet : ℕ → Choice :=
  choosing [found, inspected, {}, {}, {}, {}, {}, {}, { file := some ⟨[31, 139], 1⟩ }, inspected]

/-- An interrupt arrives right after the `save-off` of `mc-paper`. -/
def interrupted : ℕ → Choice :=
  choosing [found, inspected, {}, {}, { signal := some .int }]

theorem quiet_switchesOn :
    SwitchedOn 0 (minecraftBackup "2" "20261024-150000" quiet 0 (World.boot ∅)).2.2.trace :=
  (minecraftBackup_switchesOn "2" "20261024-150000" ∅ quiet 0 (by with_unfolding_all decide)).2
    (Sheltered.of_calm (by with_unfolding_all decide))

/-- The script exits with 130 and leaves the saves of the running server off, with no word of it. -/
theorem interrupted_leaves_saves_off :
    exitCode (minecraftBackup "2" "20261024-150000" interrupted 0 (World.boot ∅)).1 = some 130 ∧
      ¬ SwitchedOn 130
        (minecraftBackup "2" "20261024-150000" interrupted 0 (World.boot ∅)).2.2.trace := by
  refine ⟨by decide, fun h => ?_⟩
  have htrace : (minecraftBackup "2" "20261024-150000" interrupted 0 (World.boot ∅)).2.2.trace =
      [.state "mc-paper" (some .running), .rcon "mc-paper" .saveAllFlush .succeeds,
        .rcon "mc-paper" .saveOff .succeeds, .signal .int none false] := rfl
  obtain ⟨a, b, d, cmd, hback, -⟩ | hstate | hcrit := h
    [.state "mc-paper" (some .running), .rcon "mc-paper" .saveAllFlush .succeeds] "mc-paper"
    .succeeds [.signal .int none false] htrace rfl
  · have hmem : .rcon "mc-paper" .saveOn .succeeds ∈ [Event.signal .int none false] := by
      rw [hback]
      exact List.mem_append_right a List.mem_cons_self
    exact nomatch List.mem_singleton.mp hmem
  · exact nomatch hstate
  · exact nomatch List.mem_singleton.mp hcrit.1

end Sample

end IvrmDashboard.BackupHost

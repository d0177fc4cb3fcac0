import IvrmDashboard.BackupHost.Commands

/-!
# World saves are switched on again

A `save-off` that took effect has to be answered: by a `save-on` and a flush that succeed on the
container, by an inspection that finds it stopped, or by the `CRITICAL` line (`Settled`). On its way
to that the container is named by `FROZEN_CONTAINER`, and the exit trap finishes what the body left
open. This holds in every run in which the `save-off` commands report their effect and no signal
arrives where the trap cannot act on it (`Sheltered`): between the effect of a `save-off` and the
assignment that follows it, or in the trap itself before it has settled the container.

The second result needs no such condition: an archive is finalized only with a `tar` behind it that
ran to its end between the frozen flush and the next `save-on`.
-/

namespace IvrmDashboard.BackupHost

open Shell Script

/-! ## What a record says of a container -/

/-- A `save-off` took effect on `c`. -/
def SaveOff (c : String) (e : Event) : Prop :=
  ∃ o, e = .rcon c .saveOff o ∧ o.took = true

/-- A `save-on` and, after it, a flush succeeded on `c`. -/
def SavedAgain (c : String) (l : List Event) : Prop :=
  ∃ a b d cmd, l = a ++ .rcon c .saveOn .succeeds :: (b ++ .rcon c cmd .succeeds :: d) ∧
    cmd.flushes = true

/-- What the last inspection of `c` answered. -/
def lastState (c : String) (l : List Event) : Option ContainerState :=
  l.foldl (fun last e =>
    match e with
    | .state c' answer => if c' = c then answer else last
    | _ => last) none

def Resolved (c : String) (l : List Event) : Prop :=
  SavedAgain c l ∨ lastState c l = some .stopped ∨ .critical c ∈ l

/-- Every `save-off` of `c` is answered. -/
def Settled (c : String) (l : List Event) : Prop := Since (SaveOff c) (Resolved c) l

/-- No `save-off` takes effect and reports failure, and a signal that arrives while the saves of a
container are off finds it in `FROZEN_CONTAINER` and the exit trap not yet started. -/
structure Sheltered (l : List Event) : Prop where
  reported : ∀ c, .rcon c .saveOff .takesEffectAndFails ∉ l
  covered : ∀ front sig frozen exiting back, l = front ++ .signal sig frozen exiting :: back →
    ∀ c, ¬ Settled c front → frozen = some c ∧ exiting = false

theorem Sheltered.of_concat {l : List Event} {e : Event} (h : Sheltered (l ++ [e])) :
    Sheltered l where
  reported c hc := h.reported c (List.mem_append_left _ hc)
  covered front sig frozen exiting back hl := by
    refine h.covered front sig frozen exiting (back ++ [e]) ?_
    rw [hl, List.append_assoc, List.cons_append]

/-! ### One more entry -/

variable {c : String} {l : List Event} {e : Event}

theorem lastState_concat :
    lastState c (l ++ [e]) =
      match e with
      | .state c' answer => if c' = c then answer else lastState c l
      | _ => lastState c l := by
  rw [lastState, List.foldl_append]
  rfl

/-- The entry is an inspection of `c`. -/
def Inspects (c : String) : Event → Prop
  | .state c' _ => c' = c
  | _ => False

theorem lastState_concat_of_not_inspects (h : ¬ Inspects c e) :
    lastState c (l ++ [e]) = lastState c l := by
  rw [lastState_concat]
  split
  · exact if_neg h
  · rfl

theorem SavedAgain.concat (h : SavedAgain c l) : SavedAgain c (l ++ [e]) := by
  obtain ⟨a, b, d, cmd, rfl, hcmd⟩ := h
  refine ⟨a, b, d ++ [e], cmd, ?_, hcmd⟩
  simp only [List.append_assoc, List.cons_append]

theorem Resolved.concat (h : Resolved c l) (he : ¬ Inspects c e) : Resolved c (l ++ [e]) := by
  obtain h | h | h := h
  · exact .inl h.concat
  · exact .inr (.inl (by rwa [lastState_concat_of_not_inspects he]))
  · exact .inr (.inr (List.mem_append_left _ h))

/-- An entry that neither inspects the container nor switches its saves off. -/
theorem Settled.concat (h : Settled c l) (hoff : ¬ SaveOff c e) (he : ¬ Inspects c e) :
    Settled c (l ++ [e]) :=
  Since.concat h hoff fun _ hb => hb.concat he

theorem settled_concat_stopped : Settled c (l ++ [.state c (some .stopped)]) := by
  refine since_concat_of_forall ?_ fun back => .inr (.inl ?_)
  · rintro ⟨o, ho, -⟩
    cases ho
  · rw [lastState_concat]
    exact if_pos rfl

theorem settled_concat_critical : Settled c (l ++ [.critical c]) := by
  refine since_concat_of_forall ?_ fun back => .inr (.inr ?_)
  · rintro ⟨o, ho, -⟩
    cases ho
  · exact List.mem_append_right _ List.mem_cons_self

theorem not_saveOff_rcon {c' : String} {cmd : RconCommand} {o : Outcome} (h : cmd ≠ .saveOff) :
    ¬ SaveOff c (.rcon c' cmd o) := by
  rintro ⟨o', ho, -⟩
  cases ho
  exact h rfl

theorem not_saveOff_rcon_of_ne {c' : String} {cmd : RconCommand} {o : Outcome} (h : c' ≠ c) :
    ¬ SaveOff c (.rcon c' cmd o) := by
  rintro ⟨o', ho, -⟩
  cases ho
  exact h rfl

theorem not_saveOff_state {c' : String} {a : Option ContainerState} :
    ¬ SaveOff c (.state c' a) := by
  rintro ⟨o, ho, -⟩
  cases ho

/-- A `save-on` that succeeds, and later a flush. -/
theorem settled_of_saveOn_flush (front mid : List Event) (cmd : RconCommand)
    (hmid : ∀ e ∈ mid, ¬ SaveOff c e) (hcmd : cmd.flushes = true) :
    Settled c (front ++ .rcon c .saveOn .succeeds :: mid ++ [.rcon c cmd .succeeds]) := by
  have hoff : cmd ≠ .saveOff := by
    rintro rfl
    exact Bool.false_ne_true hcmd
  refine since_concat.mpr ⟨fun h => absurd h (not_saveOff_rcon hoff), ?_⟩
  -- from here on every `save-off` has the `save-on` behind it
  have hon : Since (SaveOff c) (fun back => ∃ a b, back = a ++ .rcon c .saveOn .succeeds :: b)
      (front ++ .rcon c .saveOn .succeeds :: mid) := by
    induction mid using List.reverseRecOn with
    | nil =>
      refine since_concat_of_forall (not_saveOff_rcon (by decide)) fun back => ⟨back, [], rfl⟩
    | append_singleton mid e ih =>
      rw [← List.cons_append, ← List.append_assoc]
      refine Since.concat (ih fun d hd => hmid d (List.mem_append_left _ hd))
        (hmid e (List.mem_append_right _ List.mem_cons_self)) ?_
      rintro back ⟨a, b, rfl⟩
      exact ⟨a, b ++ [e], by rw [List.append_assoc, List.cons_append]⟩
  refine hon.mono ?_
  rintro back ⟨a, b, rfl⟩
  exact .inl ⟨a, b, [], cmd, by rw [List.append_assoc, List.cons_append], hcmd⟩

/-! ## Where a signal stops the script -/

/-- Every container is settled or in `FROZEN_CONTAINER`. -/
def Covered (s : World) : Prop :=
  ∀ c, Settled c s.trace ∨ s.frozenContainer = some c

/-- What a signal leaves to the exit trap, and what it leaves in it. -/
def Stopped (o : Option ℕ) (s : World) : Prop :=
  Sheltered s.trace → o ≠ some 0 ∧ Covered s ∧ (s.exiting = true → ∀ c, Settled c s.trace)

theorem stopped_signalled (s : World) (sig : Signal) : Stopped sig.code (s.signalled sig) := by
  intro hs
  have hkeep : ∀ c, Settled c s.trace → Settled c (s.signalled sig).trace := by
    intro c h
    refine h.concat ?_ id
    rintro ⟨o, ho, -⟩
    cases ho
  have hcov := hs.covered s.trace sig s.frozenContainer s.exiting [] rfl
  refine ⟨by cases sig <;> decide, fun c => ?_, fun hexit c => ?_⟩
  · by_cases hc : Settled c s.trace
    · exact .inl (hkeep c hc)
    · exact .inr (hcov c hc).1
  · by_contra hc
    have hoff := (hcov c fun h => hc (hkeep c h)).2
    rw [show (s.signalled sig).exiting = s.exiting from rfl, hoff] at hexit
    exact Bool.false_ne_true hexit

theorem interruptible_stopped : Interruptible (fun _ => True) Stopped :=
  ⟨fun s sig _ => stopped_signalled s sig, fun _ _ _ _ => trivial⟩

/-! ## The functions that touch no `save-off` -/

/-- `s'` differs from `s` by entries of `K` in the record, and by files. -/
structure After (K : Event → Prop) (s s' : World) : Prop where
  frozen : s'.frozenContainer = s.frozenContainer
  exiting : s'.exiting = s.exiting
  failed : s'.failed = s.failed
  grown : Grown World.trace K s s'

theorem After.refl {K : Event → Prop} (s : World) : After K s s := ⟨rfl, rfl, rfl, .of_eq rfl⟩

theorem After.log {K : Event → Prop} {s s' : World} (h : After K s s') (he : K e) :
    After K s (s'.log e) :=
  ⟨h.frozen, h.exiting, h.failed, h.grown.trans (.of_concat rfl he)⟩

/-- An entry that leaves every container as it was, but perhaps the one in `FROZEN_CONTAINER`. -/
structure Harmless (frozen : Option String) (e : Event) : Prop where
  noSaveOff : ∀ c, ¬ SaveOff c e
  inspects : ∀ c, Inspects c e → frozen = some c
  noCritical : ∀ c, e ≠ .critical c

theorem harmless_rcon {frozen : Option String} {cmd : RconCommand} {o : Outcome}
    (h : cmd ≠ .saveOff) : Harmless frozen (.rcon c cmd o) :=
  ⟨fun _ => not_saveOff_rcon h, fun _ => False.elim, fun _ he => nomatch he⟩

theorem harmless_state {a : Option ContainerState} : Harmless (some c) (.state c a) :=
  ⟨fun _ => not_saveOff_state, fun _ he => congrArg some he, fun _ he => nomatch he⟩

/-- The state between two commands of the body. -/
structure Ready (s : World) : Prop where
  covered : Sheltered s.trace → Covered s
  told : ∀ c, .critical c ∈ s.trace → s.failed = true

theorem Sheltered.of_grown {K : Event → Prop} {s s' : World} (h : Grown World.trace K s s')
    (hs : Sheltered s'.trace) : Sheltered s.trace := by
  by_contra hn
  exact h.keeps (P := fun l => ¬ Sheltered l) (fun l e hl _ h => hl h.of_concat) hn hs

theorem Ready.after {K : Event → Prop} {s s' : World} (h : Ready s) (ha : After K s s')
    (hK : ∀ e, K e → Harmless s.frozenContainer e) : Ready s' where
  covered hs := by
    have hcov := h.covered (hs.of_grown ha.grown)
    unfold Covered
    rw [ha.frozen]
    refine ha.grown.keeps (P := fun l => ∀ c, Settled c l ∨ s.frozenContainer = some c) ?_ hcov
    intro l e hl he c
    obtain hc | hc := hl c
    · by_cases hi : Inspects c e
      · exact .inr ((hK e he).inspects c hi)
      · exact .inl (hc.concat ((hK e he).noSaveOff c) hi)
    · exact .inr hc
  told c hc := by
    rw [ha.failed]
    apply h.told c
    by_contra hn
    refine ha.grown.keeps (P := fun l => .critical c ∉ l) ?_ hn hc
    intro l e hl he hmem
    obtain hmem | hmem := List.mem_append.mp hmem
    · exact hl hmem
    · exact (hK e he).noCritical c (List.mem_singleton.mp hmem).symm

theorem Ready.setFailed {s : World} (h : Ready s) : Ready { s with failed := true } :=
  ⟨h.covered, fun _ _ => rfl⟩

/-- What `restoreSaves` may record. -/
def Restoring (c : String) (e : Event) : Prop :=
  (∃ a, e = .state c a) ∨ ∃ cmd o, e = .rcon c cmd o ∧ cmd ≠ .saveOff

theorem Restoring.harmless (h : Restoring c e) : Harmless (some c) e := by
  obtain ⟨a, rfl⟩ | ⟨cmd, o, rfl, hcmd⟩ := h
  · exact harmless_state
  · exact harmless_rcon hcmd

section

variable {I : World → Prop} {E : Option ℕ → World → Prop} {s : World}
  (hE : Interruptible I E) (hs : I s)
include hE hs

/-- `restoreSaves` settles the container it succeeds on. -/
theorem restoreSaves_settles :
    wp (restoreSaves c) (fun r s' => After (Restoring c) s s' ∧ (r = true → Settled c s'.trace))
      E s := by
  have hstate : ∀ a, After (Restoring c) s (s.log (.state c a)) :=
    fun a => (After.refl s).log (.inl ⟨a, rfl⟩)
  have hon : ∀ o, After (Restoring c) s
      ((s.log (.state c (some .running))).log (.rcon c .saveOn o)) :=
    fun o => (hstate _).log (.inr ⟨_, o, rfl, by decide⟩)
  have hall : ∀ o, Restoring c (.rcon c .saveAllFlush o) := fun o => .inr ⟨_, o, rfl, by decide⟩
  apply wp_restoreSaves hE hs
  · exact ⟨hstate none, nofun⟩
  · exact ⟨hstate _, nofun⟩
  · exact ⟨hstate _, fun _ => settled_concat_stopped⟩
  · exact fun o _ => ⟨hon o, nofun⟩
  · refine ⟨(hon _).log (hall _), fun _ => ?_⟩
    exact settled_of_saveOn_flush (s.trace ++ [.state c (some .running)]) [] .saveAllFlush
      (List.forall_mem_nil (¬ SaveOff c ·)) rfl
  · refine fun o o' => ⟨((hon _).log (hall o)).log (.inr ⟨_, o', rfl, by decide⟩), fun ho => ?_⟩
    rw [Outcome.eq_succeeds ho]
    have h : Settled c (_ ++ [.rcon c .saveAll .succeeds]) :=
      settled_of_saveOn_flush (s.trace ++ [.state c (some .running)]) [.rcon c .saveAllFlush o]
        .saveAll (List.forall_mem_singleton.mpr (not_saveOff_rcon (by decide))) rfl
    simpa only [World.trace_log, List.append_assoc, List.cons_append, List.nil_append] using h

/-- What a flush may record. -/
theorem flush_after :
    wp (flush c) (fun _ s' => After (fun e => ∃ cmd o, e = .rcon c cmd o ∧ cmd.flushes = true) s s')
      E s := by
  have hfirst : ∀ o, After (fun e => ∃ cmd o, e = .rcon c cmd o ∧ cmd.flushes = true) s
      (s.log (.rcon c .saveAllFlush o)) := fun o => (After.refl s).log ⟨_, o, rfl, rfl⟩
  apply wp_flush hE hs
  · exact hfirst _
  · exact fun o o' => (hfirst o).log ⟨_, o', rfl, rfl⟩

end

/-! ## The body -/

/-- The outcome of a function of the body that leaves `FROZEN_CONTAINER` as it was. -/
def Keeps (f : Option String) (s : World) : Prop := Ready s ∧ s.frozenContainer = f

theorem Ready.log {s : World} (h : Ready s) (he : Harmless s.frozenContainer e) :
    Ready (s.log e) :=
  h.after (K := (· = e)) ((After.refl s).log rfl) fun _ hd => hd ▸ he

theorem flush_ready {s : World} (h : Ready s) :
    wp (flush c) (fun _ => Keeps s.frozenContainer) Stopped s := by
  refine (flush_after interruptible_stopped trivial).mono (fun _ s' ha => ?_) fun _ _ h => h
  refine ⟨h.after ha ?_, ha.frozen⟩
  rintro e ⟨cmd, o, rfl, hcmd⟩
  refine harmless_rcon ?_
  rintro rfl
  exact Bool.false_ne_true hcmd

theorem restoreSaves_ready {s : World} (h : Ready s) (hc : s.frozenContainer = some c) :
    wp (restoreSaves c) (fun r s' => Keeps (some c) s' ∧ (r = true → Settled c s'.trace))
      Stopped s := by
  refine (restoreSaves_settles interruptible_stopped trivial).mono (fun r s' ha => ?_) fun _ _ h => h
  obtain ⟨ha, hset⟩ := ha
  exact ⟨⟨h.after ha fun e he => hc ▸ he.harmless, ha.frozen.trans hc⟩, hset⟩

/-- A settled container may leave `FROZEN_CONTAINER`. -/
theorem Ready.thaw {s : World} (h : Ready s) (hc : s.frozenContainer = some c)
    (hset : Settled c s.trace) : Ready { s with frozenContainer := none } := by
  refine ⟨fun hs d => .inl ?_, h.told⟩
  obtain hd | hd := h.covered hs d
  · exact hd
  · rw [hc] at hd
    cases hd
    exact hset

/-- A signal finds the saves covered, whatever the function does next. -/
theorem setFrozen_none {s : World} (h : Ready s) (hc : s.frozenContainer = some c)
    (hset : Settled c s.trace) : wp (setFrozen none) (fun _ => Keeps none) Stopped s :=
  wp_setFrozen interruptible_stopped trivial ⟨h.thaw hc hset, rfl⟩

theorem freeze_ready {s : World} (h : Ready s) (hc : s.frozenContainer = none) :
    wp (freeze c) (fun r s' => Ready s' ∧ (r = true → s'.frozenContainer = some c)) Stopped s := by
  apply wp_bind
  refine (flush_ready h).mono (fun ok s₁ h₁ => ?_) fun _ _ h => h
  obtain ⟨h₁, hc₁⟩ := h₁
  refine wp_ite (fun _ => ?_) fun _ => ?_
  · exact wp_bind (wp_modify (wp_pure ⟨h₁.setFailed, nofun⟩))
  apply wp_bind
  apply wp_rconExec interruptible_stopped trivial
  intro o
  refine wp_ite (fun ho => ?_) fun ho => ?_
  · -- the `save-off` reports failure, so it took no effect
    refine wp_bind (wp_modify (wp_pure ⟨?_, nofun⟩))
    refine ⟨fun hs d => .inl ?_, fun _ _ => rfl⟩
    obtain hd | hd := h₁.covered hs.of_concat d
    · refine Settled.concat hd ?_ id
      rintro ⟨o', ho', htook⟩
      cases ho'
      cases o with
      | succeeds => exact absurd ho (by decide)
      | fails => exact Bool.false_ne_true htook
      | takesEffectAndFails =>
        exact hs.reported c (List.mem_append_right _ List.mem_cons_self)
    · rw [hc₁, hc] at hd
      cases hd
  apply wp_bind
  refine wp_setFrozen interruptible_stopped trivial ?_
  have h₂ : Ready { s₁.log (.rcon c .saveOff o) with frozenContainer := some c } := by
    refine ⟨fun hs d => ?_, fun d hd => ?_⟩
    · by_cases hdc : c = d
      · exact .inr (congrArg some hdc)
      obtain hd | hd := h₁.covered hs.of_concat d
      · exact .inl (Settled.concat hd (not_saveOff_rcon_of_ne hdc) id)
      · rw [hc₁, hc] at hd
        cases hd
    · obtain hd | hd := List.mem_append.mp hd
      · exact h₁.told d hd
      · cases List.mem_singleton.mp hd
  refine wp_bind (wp_sleep interruptible_stopped trivial (wp_bind ?_))
  refine (flush_ready h₂).mono (fun ok s₃ h₃ => ?_) fun _ _ h => h
  obtain ⟨h₃, hc₃⟩ := h₃
  refine wp_ite (fun _ => ?_) fun _ => wp_pure ⟨h₃, fun _ => hc₃⟩
  refine wp_bind (wp_modify (wp_bind ?_))
  refine (restoreSaves_ready h₃.setFailed hc₃).mono (fun r s₄ h₄ => ?_) fun _ _ h => h
  obtain ⟨⟨h₄, hc₄⟩, hset⟩ := h₄
  refine wp_ite (fun hr => ?_) fun _ => wp_pure ⟨h₄, nofun⟩
  refine wp_bind ((setFrozen_none h₄ hc₄ (hset hr)).mono (fun _ _ h => ?_) fun _ _ h => h)
  exact wp_pure ⟨h.1, nofun⟩

/-- The commands on files leave the containers alone. -/
theorem command_ready {α : Type} {f : Choice → World → α × World} {s : World}
    (hf : ∀ w, Ready (f w s).2 ∧ (f w s).2.frozenContainer = s.frozenContainer) :
    wp (command f) (fun _ => Keeps s.frozenContainer) Stopped s :=
  wp_command (stopped_signalled s) hf

theorem rm_ready {file : String} {s : World} (h : Ready s) :
    wp (rm file) (fun _ => Keeps s.frozenContainer) Stopped s :=
  command_ready fun _ => ⟨⟨h.covered, h.told⟩, rfl⟩

theorem harmless_file {frozen : Option String} (hoff : ∀ c cmd o, e ≠ .rcon c cmd o)
    (hstate : ∀ c a, e ≠ .state c a) (hcrit : ∀ c, e ≠ .critical c) : Harmless frozen e where
  noSaveOff c := fun ⟨o, he, _⟩ => hoff c _ o he
  inspects c hc := by
    cases e with
    | state c' a => exact absurd rfl (hstate c' a)
    | _ => exact hc.elim
  noCritical := hcrit

theorem tar_ready {output : String} {items : List String} {s : World} (h : Ready s) :
    wp (tar c output items) (fun _ => Keeps s.frozenContainer) Stopped s :=
  command_ready fun _ =>
    ⟨Ready.log ⟨h.covered, h.told⟩ (harmless_file nofun nofun nofun), rfl⟩

theorem mv_ready {output : String} {s : World} (h : Ready s) :
    wp (mv c output) (fun _ => Keeps s.frozenContainer) Stopped s := by
  refine command_ready fun w => ?_
  dsimp only
  cases s.directory.lookup (partialOf output) with
  | none => exact ⟨h, rfl⟩
  | some file => exact ⟨Ready.log ⟨h.covered, h.told⟩ (harmless_file nofun nofun nofun), rfl⟩

theorem touch_ready {marker : String} {s : World} (h : Ready s) :
    wp (touch marker) (fun _ => Keeps s.frozenContainer) Stopped s :=
  command_ready fun _ =>
    ⟨Ready.log ⟨h.covered, h.told⟩ (harmless_file nofun nofun nofun), rfl⟩

theorem test_ready {path : String} {s : World} (h : Ready s) :
    wp (test path) (fun _ => Keeps s.frozenContainer) Stopped s :=
  command_ready fun _ => ⟨h, rfl⟩

/-- Sequencing under a `FROZEN_CONTAINER` that stays. -/
theorem Keeps.bind {α β : Type} {m : Sh α} {k : α → Sh β} {f : Option String} {s : World}
    {Q : β → World → Prop} (hm : wp m (fun _ => Keeps f) Stopped s)
    (hk : ∀ a s', Ready s' → s'.frozenContainer = f → wp (k a) Q Stopped s') :
    wp (m >>= k) Q Stopped s :=
  wp_bind (hm.mono (fun a s' h => hk a s' h.1 h.2) fun _ _ h => h)

theorem archiveItems_ready {target : Target} {s : World} (h : Ready s) :
    wp (archiveItems target) (fun _ => Keeps s.frozenContainer) Stopped s := by
  refine wp_ite (fun _ => ?_) fun _ => wp_pure ⟨h, rfl⟩
  refine Keeps.bind (test_ready h) fun _ s₁ h₁ hc₁ => ?_
  refine Keeps.bind (test_ready h₁) fun _ s₂ h₂ hc₂ => ?_
  refine Keeps.bind (test_ready h₂) fun _ s₃ h₃ hc₃ => ?_
  refine Keeps.bind (test_ready h₃) fun _ s₄ h₄ hc₄ => ?_
  refine Keeps.bind (test_ready h₄) fun _ s₅ h₅ hc₅ => ?_
  exact wp_pure ⟨h₅, hc₅.trans (hc₄.trans (hc₃.trans (hc₂.trans hc₁)))⟩

/-- `finalize` succeeds only where the saves could be restored. -/
theorem finalize_ready {output : String} {tarOk restoreFailed : Bool} {s : World} (h : Ready s) :
    wp (finalize c output tarOk restoreFailed)
      (fun r s' => Keeps s.frozenContainer s' ∧ (r = true → restoreFailed = false)) Stopped s := by
  refine wp_ite (fun _ => ?_) fun _ => ?_
  · refine Keeps.bind (rm_ready h) fun _ s₁ h₁ hc₁ => ?_
    exact wp_bind (wp_modify (wp_pure ⟨⟨h₁.setFailed, hc₁⟩, nofun⟩))
  refine Keeps.bind (mv_ready h) fun _ s₁ h₁ hc₁ => wp_ite (fun _ => ?_) fun _ => ?_
  · exact wp_bind (wp_modify (wp_pure ⟨⟨h₁.setFailed, hc₁⟩, nofun⟩))
  refine Keeps.bind (touch_ready h₁) fun _ s₂ h₂ hc₂ => wp_ite (fun _ => ?_) fun _ => ?_
  · refine Keeps.bind (rm_ready h₂) fun _ s₃ h₃ hc₃ => ?_
    refine wp_bind (wp_modify (wp_pure ⟨⟨h₃.setFailed, ?_⟩, nofun⟩))
    exact hc₃.trans (hc₂.trans hc₁)
  · exact wp_pure ⟨⟨h₂, hc₂.trans hc₁⟩, fun hr => (Bool.not_eq_true' _).mp hr⟩

theorem archive_ready {target : Target} {date : String} {running : Bool} {s : World}
    (h : Ready s)
    (hc : s.frozenContainer = if running then some target.container else none) :
    wp (archive target date running)
      (fun r s' => Ready s' ∧ (r = true → s'.frozenContainer = none)) Stopped s := by
  refine Keeps.bind (archiveItems_ready h) fun items s₁ h₁ hc₁ => ?_
  refine Keeps.bind (rm_ready h₁) fun _ s₂ h₂ hc₂ => ?_
  refine Keeps.bind (tar_ready h₂) fun tarOk s₃ h₃ hc₃ => ?_
  have hc' := hc₃.trans (hc₂.trans (hc₁.trans hc))
  refine wp_ite (fun hrun => ?_) fun hrun => ?_
  · rw [if_pos hrun] at hc'
    refine wp_bind ((restoreSaves_ready h₃ hc').mono (fun r s₄ h₄ => ?_) fun _ _ h => h)
    obtain ⟨⟨h₄, hc₄⟩, hset⟩ := h₄
    refine wp_ite (fun hr => ?_) fun _ => ?_
    · refine Keeps.bind (setFrozen_none h₄ hc₄ (hset hr)) fun _ s₅ h₅ hc₅ => ?_
      refine (finalize_ready h₅).mono (fun _ s' h' => ?_) fun _ _ h => h
      exact ⟨h'.1.1, fun _ => h'.1.2.trans hc₅⟩
    · refine wp_bind (wp_echoCritical interruptible_stopped trivial (wp_bind (wp_modify ?_)))
      have h₅ : Ready { s₄.log (.critical target.container) with failed := true } := by
        refine ⟨fun hs d => ?_, fun _ _ => rfl⟩
        obtain hd | hd := h₄.covered hs.of_concat d
        · exact .inl (Settled.concat hd (fun ⟨_, he, _⟩ => nomatch he) id)
        · exact .inr hd
      refine (finalize_ready h₅).mono (fun _ s' h' => ?_) fun _ _ h => h
      exact ⟨h'.1.1, fun hr => absurd (h'.2 hr) (by decide)⟩
  · rw [if_neg hrun] at hc'
    refine (finalize_ready h₃).mono (fun _ s' h' => ?_) fun _ _ h => h
    exact ⟨h'.1.1, fun _ => h'.1.2.trans hc'⟩

/-- No `save-off` has touched the container. -/
def Untouched (c : String) (s : World) : Prop := ∀ e ∈ s.trace, ¬ SaveOff c e

theorem backupServer_ready {target : Target} (date : String) {s : World} (h : Ready s)
    (hc : s.frozenContainer = none) (hu : Untouched target.container s) :
    wp (backupServer target date)
      (fun r s' => Ready s' ∧ (r = true → s'.frozenContainer = none)) Stopped s := by
  apply wp_bind
  refine wp_test interruptible_stopped trivial fun found => wp_ite (fun _ => wp_pure ⟨h, fun _ => hc⟩) ?_
  intro _
  apply wp_bind
  refine wp_containerState interruptible_stopped trivial fun answer => ?_
  have h₁ : Ready (s.log (.state target.container answer)) := by
    refine ⟨fun hs d => .inl ?_, fun d hd => ?_⟩
    · by_cases hd : target.container = d
      · subst hd
        refine since_of_none fun e he => ?_
        obtain he | he := List.mem_append.mp he
        · exact hu e he
        · rw [List.mem_singleton.mp he]
          exact not_saveOff_state
      · obtain hset | hset := h.covered hs.of_concat d
        · exact Settled.concat hset not_saveOff_state hd
        · rw [hc] at hset
          cases hset
    · obtain hd | hd := List.mem_append.mp hd
      · exact h.told d hd
      · cases List.mem_singleton.mp hd
  have hbaseline : wp (do
      if ← read fun s => hasExistingBackup target.name s.directory then
        pure true
      else
        archive target date false : Sh Bool)
      (fun r s' => Ready s' ∧ (r = true → s'.frozenContainer = none)) Stopped
      (s.log (.state target.container answer)) := by
    refine wp_bind (wp_read (wp_ite (fun _ => wp_pure ⟨h₁, fun _ => hc⟩) fun _ => ?_))
    exact archive_ready h₁ hc
  cases answer with
  | none => exact wp_bind (wp_modify (wp_pure ⟨h₁.setFailed, nofun⟩))
  | some state =>
    cases state with
    | stopped => exact hbaseline
    | missing => exact hbaseline
    | running =>
      refine wp_bind ((freeze_ready h₁ hc).mono (fun r s₂ h₂ => ?_) fun _ _ h => h)
      refine wp_ite (fun hr => ?_) fun _ => wp_pure ⟨h₂.1, nofun⟩
      exact archive_ready h₂.1 (h₂.2 hr)

theorem Concerns.not_saveOff {d : String} (h : Concerns c e) (hcd : c ≠ d) : ¬ SaveOff d e := by
  rintro ⟨o, rfl, -⟩
  exact hcd h.symm

theorem Untouched.grown {d : String} {s s' : World} (h : Untouched d s) (hcd : c ≠ d)
    (hg : Grown World.trace (Concerns c) s s') : Untouched d s' := by
  refine hg.keeps (P := fun l => ∀ e ∈ l, ¬ SaveOff d e) ?_ h
  intro l e hl he
  exact List.forall_mem_append.mpr ⟨hl, List.forall_mem_singleton.mpr (he.not_saveOff hcd)⟩

/-- The containers of the servers that are still to come are untouched. -/
theorem backupAll_ready {date : String} {ts : List Target} {s : World} (h : Ready s)
    (hc : s.frozenContainer = none) (hts : (ts.map Target.container).Nodup)
    (hu : ∀ t ∈ ts, Untouched t.container s) :
    wp (backupAll date ts) (fun _ => Ready) Stopped s := by
  induction ts generalizing s with
  | nil => exact wp_pure h
  | cons t ts ih =>
    obtain ⟨ht, hts⟩ := List.nodup_cons.mp hts
    apply wp_bind
    have hserver := backupServer_ready date h hc (hu t List.mem_cons_self)
    refine (hserver.and (concerns_backupServer s)).mono ?_ fun _ _ h => h.1
    rintro r s' ⟨⟨h', hr⟩, hg⟩
    refine wp_ite (fun hok => ?_) fun _ => wp_modify h'.setFailed
    refine ih h' (hr hok) hts fun d hd => ?_
    refine (hu d (List.mem_cons_of_mem t hd)).grown (fun htd => ht ?_) hg
    rw [htd]
    exact List.mem_map_of_mem hd

theorem prune_ready {localKeep : ℤ} {server : String} {s : World} (h : Ready s) :
    wp (prune localKeep server) (fun _ => Ready) Stopped s := by
  apply wp_bind
  refine wp_command (stopped_signalled s) fun w => wp_ite (fun _ => ?_) fun _ => wp_pure h
  refine wp_command (stopped_signalled s) fun w' => ?_
  exact Ready.log ⟨h.covered, h.told⟩ (harmless_file nofun nofun nofun)

theorem pruneAll_ready {localKeep : ℤ} {ts : List Target} {s : World} (h : Ready s) :
    wp (pruneAll localKeep ts) (fun _ => Ready) Stopped s := by
  induction ts generalizing s with
  | nil => exact wp_pure h
  | cons t ts ih => exact wp_bind ((prune_ready h).mono (fun _ _ => ih) fun _ _ h => h)

/-! ## The exit trap -/

/-- Where the body leaves the script. -/
def Leave (code : ℕ) (s : World) : Prop :=
  Sheltered s.trace → Covered s ∧ ∀ c, .critical c ∈ s.trace → code ≠ 0

theorem targets_nodup : (targets.map Target.container).Nodup := by decide

theorem body_leaves {localKeep : ℤ} {date : String} {s : World} (h : Ready s)
    (hc : s.frozenContainer = none) (hu : s.trace = []) :
    wp (body localKeep date) Leave (fun o s => ∀ code, o = some code → Leave code s) s := by
  have hstop : ∀ (o : Option ℕ) (s : World), Stopped o s → ∀ code, o = some code → Leave code s := by
    rintro o s hst code rfl hs
    exact ⟨(hst hs).2.1, fun _ _ hcode => (hst hs).1 (congrArg some hcode)⟩
  apply wp_bind
  refine (backupAll_ready h hc targets_nodup fun t _ e he => ?_).mono ?_ hstop
  · rw [hu] at he
    exact absurd he List.not_mem_nil
  intro _ s₁ h₁
  apply wp_bind
  refine (pruneAll_ready h₁).mono (fun _ s₂ h₂ => ?_) hstop
  refine wp_bind (wp_read (wp_command (fun sig => hstop _ _ (stopped_signalled s₂ sig)) fun _ => ?_))
  refine fun hs => ⟨h₂.covered hs, fun c hcrit => ?_⟩
  have hfailed := h₂.told c hcrit
  rw [show (if s₂.failed = true then 1 else 0 : ℕ) = 1 from if_pos hfailed]
  exact Nat.one_ne_zero

/-- What the script leaves behind. -/
def Restored (code : ℕ) (s : World) : Prop :=
  Sheltered s.trace → (∀ c, Settled c s.trace) ∧ ∀ c, .critical c ∈ s.trace → code ≠ 0

/-- In the trap a signal finds every container settled. -/
theorem interruptible_restored :
    Interruptible (fun s => s.exiting = true)
      (fun o s => ∀ code, o = some code → Restored code s) where
  signal s sig hexit code hcode hs := by
    have hst := stopped_signalled s sig hs
    refine ⟨hst.2.2 hexit, fun _ _ h0 => hst.1 ?_⟩
    rw [hcode, h0]
  log _ _ h _ := h

theorem cleanup_restores {code : ℕ} {s : World} (h : Leave code s) :
    wp (cleanup code) Restored (fun o s => ∀ code, o = some code → Restored code s) s := by
  have hE := interruptible_restored
  refine wp_bind (wp_modify (wp_bind (wp_read ?_)))
  have settled : ∀ {s' : World}, s'.trace = s.trace → s.frozenContainer = none →
      Restored code s' := by
    intro s' hs' hc hs
    rw [hs'] at hs ⊢
    obtain ⟨hcov, htold⟩ := h hs
    refine ⟨fun c => (hcov c).resolve_right fun hf => ?_, htold⟩
    rw [hc] at hf
    cases hf
  cases hc : s.frozenContainer with
  | none => exact wp_exit hE rfl (settled rfl hc)
  | some c =>
    apply wp_bind
    refine (restoreSaves_settles hE rfl).mono ?_ fun _ _ h => h
    rintro r s' ⟨ha, hset⟩
    have others : Sheltered s'.trace → ∀ d, Settled d s'.trace ∨ c = d := by
      intro hs
      refine ha.grown.keeps (P := fun l => ∀ d, Settled d l ∨ c = d) ?_ fun d => ?_
      · intro l e hl he d
        by_cases hcd : c = d
        · exact .inr hcd
        · refine .inl (Settled.concat ((hl d).resolve_right hcd) (he.harmless.noSaveOff d) fun hi => ?_)
          exact hcd (Option.some.inj (he.harmless.inspects d hi))
      · refine ((h (hs.of_grown ha.grown)).1 d).imp_right fun hf => ?_
        rw [hc] at hf
        exact Option.some.inj hf
    have told : Sheltered s'.trace → ∀ d, .critical d ∈ s'.trace → code ≠ 0 := by
      intro hs d
      refine ha.grown.keeps (P := fun l => .critical d ∈ l → code ≠ 0) ?_
        ((h (hs.of_grown ha.grown)).2 d)
      intro l e hl he hmem
      refine hl ((List.mem_append.mp hmem).resolve_right fun hlast => ?_)
      exact he.harmless.noCritical d (List.mem_singleton.mp hlast).symm
    refine wp_ite (fun hr => ?_) fun _ => ?_
    · refine wp_bind (wp_setFrozen hE ha.exiting (wp_exit hE ?_ fun hs => ⟨fun d => ?_, ?_⟩))
      · exact ha.exiting
      · obtain hd | rfl := others hs d
        · exact hd
        · exact hset hr
      · exact told hs
    · refine wp_bind (wp_echoCritical hE ha.exiting (wp_exit hE ?_ fun hs => ⟨fun d => ?_, ?_⟩))
      · exact ha.exiting
      · obtain hd | rfl := others hs.of_concat d
        · exact Settled.concat hd (fun ⟨_, he, _⟩ => nomatch he) id
        · exact settled_concat_critical
      · exact fun _ _ => Nat.one_ne_zero

/-! ## The script -/

/-- The code of a script that was not killed. -/
def exitCode : Ending ℕ → Option ℕ
  | .done code => some code
  | .exited code => some code
  | .killed => none

/-- Before the first command of the script. -/
def World.boot (directory : Directory) : World := { directory := directory }

theorem minecraftBackup_restored (localKeep date : String) (directory : Directory) :
    wp (minecraftBackup localKeep date) Restored (fun o s => ∀ code, o = some code → Restored code s)
      (World.boot directory) := by
  have hnil : ∀ c, Settled c [] := fun c => since_of_none (List.forall_mem_nil (¬ SaveOff c ·))
  refine wp_ite (fun _ => ?_) fun _ => ?_
  · refine wp_bind (wp_modify (wp_onExit Leave ?_ fun code s h => cleanup_restores h))
    refine (body_leaves (s := World.boot directory) ⟨fun _ c => .inl (hnil c), fun c hc => ?_⟩ rfl
      rfl).mono (fun _ _ h => h) fun o s h => ?_
    · exact absurd hc List.not_mem_nil
    · cases o with
      | none => exact fun _ hcode => nomatch hcode
      | some code => exact h code rfl
  · exact wp_pure fun _ => ⟨hnil, fun _ hc => absurd hc List.not_mem_nil⟩

end IvrmDashboard.BackupHost

import IvrmDashboard.BackupHost.Producer

/-!
# What the functions of `minecraft-backup.sh` can do

One rule for each function that talks to a container: the entries it can leave in the record, with
the answer it gives then. A signal may arrive at every command on the way, so a rule asks for an
invariant `I` under which that is fine (`Interruptible`).
-/

namespace IvrmDashboard.BackupHost

open Shell Script

/-- The entry gives an archive its name. -/
def Event.finalizes : Event → Bool
  | .mv _ _ _ => true
  | _ => false

/-- A signal may arrive in every state of `I`, which an entry of the record takes away only if it
finalizes an archive. -/
structure Interruptible (I : World → Prop) (E : Option ℕ → World → Prop) : Prop where
  signal : ∀ s sig, I s → E sig.code (s.signalled sig)
  log : ∀ s e, I s → e.finalizes = false → I (s.log e)

section

variable {I : World → Prop} {E : Option ℕ → World → Prop} {s : World} {c : String}
  (hE : Interruptible I E) (hs : I s)
include hE hs

theorem wp_rconExec {cmd : RconCommand} {Q : Bool → World → Prop}
    (h : ∀ o, Q o.ok (s.log (.rcon c cmd o))) : wp (rconExec c cmd) Q E s :=
  wp_command (hE.signal s · hs) fun w => h w.outcome

theorem wp_setFrozen {container : Option String} {Q : Unit → World → Prop}
    (h : Q () { s with frozenContainer := container }) : wp (setFrozen container) Q E s :=
  wp_command (hE.signal s · hs) fun _ => h

theorem wp_echoCritical {Q : Unit → World → Prop} (h : Q () (s.log (.critical c))) :
    wp (echoCritical c) Q E s :=
  wp_command (hE.signal s · hs) fun _ => h

theorem wp_exit {rc : ℕ} {Q : ℕ → World → Prop} (h : Q rc s) : wp (exit rc) Q E s :=
  wp_command (hE.signal s · hs) fun _ => h

theorem wp_sleep {Q : Unit → World → Prop} (h : Q () s) : wp sleep Q E s :=
  wp_command (hE.signal s · hs) fun _ => h

theorem wp_test {path : String} {Q : Bool → World → Prop} (h : ∀ b, Q b s) :
    wp (test path) Q E s :=
  wp_command (hE.signal s · hs) fun _ => h _

theorem wp_containerState {Q : Option ContainerState → World → Prop}
    (h : ∀ a, Q a (s.log (.state c a))) : wp (containerState c) Q E s := by
  have answered : ∀ a : Option ContainerState, wp (do
      modify (World.log (.state c a))
      pure a : Sh (Option ContainerState)) Q E s :=
    fun a => wp_bind (wp_modify (wp_pure (h a)))
  apply wp_bind
  apply wp_command (hE.signal s · hs)
  intro w
  dsimp only
  split
  · apply wp_bind
    apply wp_command (hE.signal s · hs)
    intro w'
    dsimp only
    split
    · exact wp_bind (wp_pure (answered none))
    · exact wp_bind (wp_pure (answered _))
  · exact wp_bind (wp_pure (answered (some .running)))
  · exact wp_bind (wp_pure (answered (some .stopped)))
  · exact wp_bind (wp_pure (answered none))

theorem wp_flush {Q : Bool → World → Prop}
    (hfirst : Q true (s.log (.rcon c .saveAllFlush .succeeds)))
    (hsecond : ∀ o o', Q o'.ok ((s.log (.rcon c .saveAllFlush o)).log (.rcon c .saveAll o'))) :
    wp (flush c) Q E s := by
  apply wp_bind
  apply wp_rconExec hE hs
  intro o
  cases ho : o.ok with
  | true =>
    rw [Outcome.eq_succeeds ho]
    exact wp_pure hfirst
  | false => exact wp_rconExec hE (hE.log _ _ hs rfl) (hsecond o)

/-- `restore_saves` succeeds on a container that is stopped, or whose saves it switched on and
flushed. -/
theorem wp_restoreSaves {Q : Bool → World → Prop}
    (hnone : Q false (s.log (.state c none)))
    (hmissing : Q false (s.log (.state c (some .missing))))
    (hstopped : Q true (s.log (.state c (some .stopped))))
    (hfailed : ∀ o, o.ok = false →
      Q false ((s.log (.state c (some .running))).log (.rcon c .saveOn o)))
    (hfirst : Q true (((s.log (.state c (some .running))).log (.rcon c .saveOn .succeeds)).log
      (.rcon c .saveAllFlush .succeeds)))
    (hsecond : ∀ o o', Q o'.ok ((((s.log (.state c (some .running))).log
      (.rcon c .saveOn .succeeds)).log (.rcon c .saveAllFlush o)).log (.rcon c .saveAll o'))) :
    wp (restoreSaves c) Q E s := by
  apply wp_bind
  apply wp_containerState hE hs
  intro a
  cases a with
  | none => exact wp_pure hnone
  | some state =>
    cases state with
    | missing => exact wp_pure hmissing
    | stopped => exact wp_pure hstopped
    | running =>
      apply wp_bind
      apply wp_rconExec hE (hE.log _ _ hs rfl)
      intro o
      cases ho : o.ok with
      | false => exact wp_pure (hfailed o ho)
      | true =>
        rw [Outcome.eq_succeeds ho]
        exact wp_flush hE (hE.log _ _ (hE.log _ _ hs rfl) rfl) hfirst hsecond

end

/-! ## The record of a server's backup -/

/-- The entry is about the container `c`, or about none. -/
def Concerns (c : String) : Event → Prop
  | .state c' _ => c' = c
  | .rcon c' _ _ => c' = c
  | .critical c' => c' = c
  | .tar c' _ _ _ => c' = c
  | .mv c' _ _ => c' = c
  | .signal _ _ _ => True
  | .touch _ _ => True
  | _ => False

section

variable {c : String}

theorem concerns_command {α : Type} {f : Choice → World → α × World}
    (h : ∀ w s, Grown World.trace (Concerns c) s (f w s).2) :
    Records World.trace (Concerns c) (command f) :=
  fun s => wp_command (fun _ => .of_concat rfl trivial) fun w => h w s

/-- A command that records nothing. -/
theorem concerns_silent {α : Type} {f : Choice → World → α × World}
    (h : ∀ w s, (f w s).2.trace = s.trace) : Records World.trace (Concerns c) (command f) :=
  concerns_command fun w s => .of_eq (h w s)

theorem concerns_containerState : Records World.trace (Concerns c) (containerState c) := by
  have answered : ∀ a : Option ContainerState, Records World.trace (Concerns c) (do
      modify (World.log (.state c a))
      pure a : Sh (Option ContainerState)) :=
    fun a => .bind (records_modify fun _ => .of_concat rfl rfl) fun _ => records_pure a
  refine .bind (concerns_silent fun _ _ => rfl) fun state => ?_
  split
  · refine .bind (concerns_silent fun _ _ => rfl) fun ids => ?_
    split
    · exact .bind (records_pure _) fun _ => answered _
    · exact .bind (records_pure _) fun _ => answered _
  · exact .bind (records_pure _) fun _ => answered _
  · exact .bind (records_pure _) fun _ => answered _
  · exact .bind (records_pure _) fun _ => answered _

theorem concerns_rconExec {cmd : RconCommand} :
    Records World.trace (Concerns c) (rconExec c cmd) :=
  concerns_command fun _ _ => .of_concat rfl rfl

theorem concerns_flush : Records World.trace (Concerns c) (flush c) :=
  .bind concerns_rconExec fun _ => .ite (records_pure _) concerns_rconExec

theorem concerns_restoreSaves : Records World.trace (Concerns c) (restoreSaves c) := by
  refine .bind concerns_containerState fun answer => ?_
  split
  · exact records_pure _
  · exact records_pure _
  · exact .bind concerns_rconExec fun _ => .ite concerns_flush (records_pure _)
  · exact records_pure _

theorem concerns_setFrozen {container : Option String} :
    Records World.trace (Concerns c) (setFrozen container) :=
  concerns_silent fun _ _ => rfl

theorem concerns_setFailed : Records World.trace (Concerns c) setFailed :=
  records_modify fun _ => .of_eq rfl

theorem concerns_freeze : Records World.trace (Concerns c) (freeze c) := by
  have failed : Records World.trace (Concerns c) (do
      setFailed
      pure false : Sh Bool) := .bind concerns_setFailed fun _ => records_pure _
  refine .bind concerns_flush fun _ => .ite failed ?_
  refine .bind concerns_rconExec fun _ => .ite failed ?_
  refine .bind concerns_setFrozen fun _ => .bind (concerns_silent fun _ _ => rfl) fun _ => ?_
  refine .bind concerns_flush fun _ => .ite (.bind concerns_setFailed fun _ => ?_) (records_pure _)
  refine .bind concerns_restoreSaves fun _ => .ite ?_ (records_pure _)
  exact .bind concerns_setFrozen fun _ => records_pure _

theorem concerns_finalize {output : String} {tarOk restoreFailed : Bool} :
    Records World.trace (Concerns c) (finalize c output tarOk restoreFailed) := by
  have rm : ∀ file, Records World.trace (Concerns c) (do
      rm file
      setFailed
      pure false : Sh Bool) := fun _ =>
    .bind (concerns_silent fun _ _ => rfl) fun _ => .bind concerns_setFailed fun _ => records_pure _
  refine .ite (rm _) (.bind (concerns_command fun w s => ?_) fun _ => .ite ?_ ?_)
  · dsimp only
    cases s.directory.lookup (partialOf output) with
    | none => exact .of_eq rfl
    | some file => exact .of_concat rfl rfl
  · exact .bind concerns_setFailed fun _ => records_pure _
  · exact .bind (concerns_command fun _ _ => .of_concat rfl trivial) fun _ =>
      .ite (rm _) (records_pure _)

theorem concerns_archiveItems {target : Target} :
    Records World.trace (Concerns c) (archiveItems target) := by
  have test : ∀ path, Records World.trace (Concerns c) (test path) :=
    fun _ => concerns_silent fun _ _ => rfl
  refine .ite ?_ (records_pure _)
  exact .bind (test _) fun _ => .bind (test _) fun _ => .bind (test _) fun _ =>
    .bind (test _) fun _ => .bind (test _) fun _ => records_pure _

theorem concerns_archive {target : Target} {date : String} {running : Bool} :
    Records World.trace (Concerns target.container) (archive target date running) := by
  refine .bind concerns_archiveItems fun _ => .bind (concerns_silent fun _ _ => rfl) fun _ => ?_
  refine .bind (concerns_command fun _ _ => .of_concat rfl rfl) fun _ => .ite ?_ concerns_finalize
  refine .bind concerns_restoreSaves fun _ => .ite ?_ ?_
  · exact .bind concerns_setFrozen fun _ => concerns_finalize
  · exact .bind (concerns_command fun _ _ => .of_concat rfl rfl) fun _ =>
      .bind concerns_setFailed fun _ => concerns_finalize

/-- The backup of a server records nothing about another container. -/
theorem concerns_backupServer {target : Target} {date : String} :
    Records World.trace (Concerns target.container) (backupServer target date) := by
  refine .bind (concerns_silent fun _ _ => rfl) fun _ => .ite (records_pure _) ?_
  have baseline : Records World.trace (Concerns target.container) (do
      if ← read fun s => hasExistingBackup target.name s.directory then
        pure true
      else
        archive target date false : Sh Bool) :=
    .bind (records_read _) fun _ => .ite (records_pure _) concerns_archive
  refine .bind concerns_containerState fun answer => ?_
  split
  · exact .bind concerns_setFailed fun _ => records_pure _
  · exact .bind concerns_freeze fun _ => .ite concerns_archive (records_pure _)
  · exact baseline
  · exact baseline

end

end IvrmDashboard.BackupHost

import IvrmDashboard.Foundations.Switch
import IvrmDashboard.Notifications.Scheduled

/-!
# Whether the scheduled signals follow their conditions

Every pass reports what it finds, but the signals drop a report that is older than the last one they
have seen. The times of the reports are those of the evidence, so they do not always advance: a
backup that is reported late, or a limit that is raised, makes the report that should close a signal
older than the one that opened it. After a pass a signal agrees with its condition exactly if it did
before, or the pass has a report for it that is not too old (`levelTriggered_iff`).
-/

namespace IvrmDashboard.Notifications

open Sql Operations Backups

/-! ## Signals as switches -/

namespace Board

/-- The signal as a switch. -/
def switch? (b : Board) (k : String) : Option (Switch Timestamptz) :=
  (b.signal? k).map fun s => ⟨s.active, s.lastSeenAt⟩

/-- The signal is active. -/
def signalActive (b : Board) (k : String) : Bool := (b.signal? k).any (·.active)

theorem signalActive_eq (b : Board) (k : String) : b.signalActive k = Switch.isOn (b.switch? k) := by
  rw [signalActive, switch?, Switch.isOn, Option.any_map]

theorem switch?_congr {b b' : Board} (h : b'.signals = b.signals) (k : String) :
    b'.switch? k = b.switch? k := by
  rw [switch?, switch?, signal?, signal?, h]

theorem switch?_write (s : Signal) (b : Board) (k : String) :
    (b.write s).switch? k =
      if k = s.signalKey then some ⟨s.active, s.lastSeenAt⟩ else b.switch? k := by
  rw [switch?, signal?_write]
  split
  next => rfl
  next => rfl

theorem switch?_suppressRows {p : OutboxRow → Bool} {reason : String} (b : Board) (k : String) :
    (b.suppressRows p reason).switch? k = b.switch? k :=
  switch?_congr rfl k

end Board

theorem Inserted.switch? {e : Env} {n : Notice} {b b' : Board} (h : Inserted e n b b') (k : String) :
    b'.switch? k = b.switch? k := by
  cases h with
  | fresh key hkey hnew hchecked => exact Board.switch?_congr rfl k
  | swallowed key hkey r hr hrkey => exact Board.switch?_congr rfl k

theorem reopen_switch (s : Signal) (o : Observation) (level : Level) (re : Bool) :
    (s.reopen o level re).active = true ∧ (s.reopen o level re).lastSeenAt = o.occurredAt := by
  unfold Signal.reopen
  split
  next => exact ⟨rfl, rfl⟩
  next => exact ⟨rfl, rfl⟩

/-- A report moves the switch of its signal and no other. -/
theorem Applied.switch? {e : Env} {o : Observation} {b b' : Board} {res : SignalResult}
    (h : Applied .any e o b res b') (k : String) :
    b'.switch? k = if k = o.signalKey then Switch.see (b.switch? k) (o.active, o.occurredAt)
      else b.switch? k := by
  by_cases hk : k = o.signalKey
  · rw [if_pos hk, hk]
    cases h with
    | absent h ha => simp [Board.switch?, h, ha, Switch.see]
    | stale h hlate => simp [Board.switch?, h, hlate, Switch.see]
    | inactive h hseen ha hs =>
      simp [Board.switch?, h, ha, hs, Switch.see]
    | opened h ha hk hins =>
      rw [hins.switch?, Board.switch?_write]
      simp [Board.switch?, h, ha, Switch.see, Observation.opening]
    | reopened h hseen ha hs hk hins =>
      have hkey := (Board.signal?_eq_some h).2
      rw [hins.switch?, Board.switch?_write, reopen_signalKey _ _ _ _ hkey]
      rw [(reopen_switch _ _ _ _).1, (reopen_switch _ _ _ _).2]
      simp [Board.switch?, h, ha, Switch.see, not_lt.2 hseen]
    | seen h hseen ha hs hrank =>
      have hkey := (Board.signal?_eq_some h).2
      rw [Board.switch?_write]
      simp [Board.switch?, h, ha, hs, Switch.see, not_lt.2 hseen, Signal.see, hkey]
    | escalated h hseen ha hs hrank hins hlevel =>
      have hkey := (Board.signal?_eq_some h).2
      rw [hins.switch?, Board.switch?_write]
      simp [Board.switch?, h, ha, hs, Switch.see, not_lt.2 hseen, Signal.see, hkey]
    | deescalated h hseen ha hs hrank hchecked hlevel =>
      have hkey := (Board.signal?_eq_some h).2
      rw [Board.switch?_write]
      simp [Board.switch?, h, ha, hs, Switch.see, not_lt.2 hseen, Signal.see, hkey]
    | recovered h hseen ha hs hchecked hins =>
      have hkey := (Board.signal?_eq_some h).2
      rw [hins.switch?, Board.switch?_write]
      simp [Board.switch?, h, ha, hs, Switch.see, not_lt.2 hseen, Signal.recover, hkey]
  · rw [if_neg hk]
    cases h with
    | absent h ha => rfl
    | stale h hlate => rfl
    | inactive h hseen ha hs => rfl
    | opened h ha hk' hins =>
      rw [hins.switch?, Board.switch?_write]
      exact if_neg hk
    | reopened h hseen ha hs hk' hins =>
      rw [hins.switch?, Board.switch?_write,
        reopen_signalKey _ _ _ _ (Board.signal?_eq_some h).2]
      exact if_neg hk
    | seen h hseen ha hs hrank =>
      rw [Board.switch?_write]
      exact if_neg ((Board.signal?_eq_some h).2 ▸ hk)
    | escalated h hseen ha hs hrank hins hlevel =>
      rw [hins.switch?, Board.switch?_write]
      exact if_neg ((Board.signal?_eq_some h).2 ▸ hk)
    | deescalated h hseen ha hs hrank hchecked hlevel =>
      rw [Board.switch?_write, Board.switch?_suppressRows]
      exact if_neg ((Board.signal?_eq_some h).2 ▸ hk)
    | recovered h hseen ha hs hchecked hins =>
      rw [hins.switch?, Board.switch?_write, Board.switch?_suppressRows]
      exact if_neg ((Board.signal?_eq_some h).2 ▸ hk)

/-! ## Passes -/

/-- What the arguments of a report say to the switch of a key. -/
def SignalParams.tells (k : String) (p : SignalParams) : Option (Bool × Timestamptz) :=
  if p.signalKey = some k then do
    let active ← p.active
    let occurredAt ← p.occurredAt
    return (active, occurredAt)
  else none

theorem applyScheduled_switch? {e : Env} {b b' : Board} {p : SignalParams}
    (h : applyScheduled e b p = .ok b') (k : String) :
    b'.switch? k = ((p.tells k).toList).foldl Switch.see (b.switch? k) := by
  obtain ⟨⟨res, b''⟩, hb, rfl⟩ := map_eq_ok.1 h
  obtain ⟨o, hreports, happly⟩ := applyNotificationSignal_eq_ok hb
  have happlied := Variant.applySignal_eq_ok (K := .any) notificationVariant_enqueues
    (fun _ _ _ _ => trivial) happly
  cases hreports with
  | notification ho =>
    obtain ⟨hkey, -, -, -, -, hactive, hocc, -⟩ := SignalParams.observation?_eq_some ho
    rw [happlied.switch? k, SignalParams.tells, hkey, hactive, hocc]
    by_cases hk : k = o.signalKey
    · simp [hk]
    · rw [if_neg hk, if_neg fun h => hk (Option.some.inj h).symm]
      rfl

theorem foldlM_applyScheduled_switch? {e : Env} {b b' : Board} {ps : List SignalParams}
    (h : ps.foldlM (applyScheduled e) b = .ok b') (k : String) :
    b'.switch? k = (ps.filterMap (·.tells k)).foldl Switch.see (b.switch? k) := by
  induction ps generalizing b with
  | nil =>
    obtain rfl := pure_eq_ok.1 h
    rfl
  | cons p ps ih =>
    rw [List.foldlM_cons] at h
    obtain ⟨b₁, hb₁, h⟩ := bind_eq_ok.1 h
    rw [ih h, applyScheduled_switch? hb₁ k, List.filterMap_cons]
    cases p.tells k with
    | none => rfl
    | some r => rfl

/-! ## What a pass says to one signal -/

/-- The times of the reports about the heartbeat of a host. -/
def heartbeatTimes (now receivedAt : ℤ) : List ℤ :=
  if heartbeatOverdue now receivedAt then
    (receivedAt + 45 * second) ::
      if heartbeatLost now receivedAt then [receivedAt + 180 * second] else []
  else [receivedAt]

/-- The times of the reports about a promise of a policy. -/
def slaTimes (now : ℤ) (p : BackupPolicy) (s : Success) : Sla → List ℤ
  | .backupAge =>
    if backupLate now p s then
      (s.completedAt + p.warningAfterSeconds * second) ::
        if backupLost now p s then [s.completedAt + p.criticalAfterSeconds * second] else []
    else [s.completedAt]
  | .remoteSync =>
    if remoteSyncLate now p s then [s.completedAt + p.remoteSyncWarningSeconds * second]
    else [s.remoteSyncedAt.getD s.completedAt]
  | .retention => if retentionOver now s then s.retentionExpiresAt.toList else [s.completedAt]
  | .restoreTest =>
    if restoreTestLate now p s then
      [s.restoreTestedAt.getD s.completedAt + p.restoreTestWarningSeconds * second]
    else [s.restoreTestedAt.getD s.completedAt]

/-- What reports of one kind at several times say to their switch. -/
def sayings (active : Bool) (times : List ℤ) : List (Bool × Timestamptz) :=
  (times.map Timestamptz.ofInstant).map fun t => (active, t)

theorem tells_heartbeatSignal (h : MonitoredHost) (active : Bool) (severity : Level) (t : ℤ)
    (reason k : String) : (heartbeatSignal h active severity t reason).tells k =
      if (Origin.heartbeat h.id).signalKey = k then some (active, .ofInstant t) else none := by
  simp only [SignalParams.tells, heartbeatSignal, Option.some.injEq]
  rfl

theorem tells_slaSignal (h : MonitoredHost) (p : BackupPolicy) (x : Sla) (active : Bool)
    (severity : Level) (t : ℤ) (reason k : String) :
    (slaSignal h p x active severity t reason).tells k =
      if slaSignalKey p x = k then some (active, .ofInstant t) else none := by
  simp only [SignalParams.tells, slaSignal, backupSignal, Option.some.injEq]
  rfl

theorem heartbeatSignals_tells (now : ℤ) (h : MonitoredHost) (receivedAt : ℤ) :
    (heartbeatSignals now h receivedAt).filterMap (·.tells (Origin.heartbeat h.id).signalKey) =
      sayings (heartbeatOverdue now receivedAt) (heartbeatTimes now receivedAt) := by
  unfold heartbeatSignals heartbeatTimes sayings
  cases heartbeatOverdue now receivedAt <;> cases heartbeatLost now receivedAt <;>
    simp [tells_heartbeatSignal]

theorem heartbeatSignals_silent {now : ℤ} {h : MonitoredHost} {receivedAt : ℤ} {k : String}
    (hk : (Origin.heartbeat h.id).signalKey ≠ k) :
    (heartbeatSignals now h receivedAt).filterMap (·.tells k) = [] := by
  unfold heartbeatSignals
  split
  next => split <;> simp [tells_heartbeatSignal, hk]
  next => simp [tells_heartbeatSignal, hk]

theorem slaSignals_tells (now : ℤ) (h : MonitoredHost) (p : BackupPolicy) (s : Success) (x : Sla) :
    (slaSignals now h p s x).filterMap (·.tells (slaSignalKey p x)) =
      sayings (x.broken now p s) (slaTimes now p s x) := by
  unfold sayings
  cases x with
  | backupAge =>
    simp only [slaSignals, Sla.broken, slaTimes]
    cases backupLate now p s <;> cases backupLost now p s <;> simp [tells_slaSignal]
  | remoteSync =>
    simp only [slaSignals, Sla.broken, slaTimes]
    cases remoteSyncLate now p s <;> simp [tells_slaSignal]
  | retention =>
    obtain ⟨id, runId, completedAt, size, sha, destination, synced, tested, expires⟩ := s
    simp only [slaSignals, Sla.broken, slaTimes, retentionOver]
    cases expires with
    | none => simp [tells_slaSignal]
    | some t => by_cases ht : t ≤ now <;> simp [tells_slaSignal, ht]
  | restoreTest =>
    obtain ⟨id, runId, completedAt, size, sha, destination, synced, tested, expires⟩ := s
    simp only [slaSignals, Sla.broken, slaTimes, restoreTestLate]
    cases tested with
    | none =>
      by_cases ht : completedAt + p.restoreTestWarningSeconds * second < now <;>
        simp [tells_slaSignal, ht]
    | some t =>
      by_cases ht : t + p.restoreTestWarningSeconds * second < now <;> simp [tells_slaSignal, ht]

theorem slaSignals_silent {now : ℤ} {h : MonitoredHost} {p : BackupPolicy} {s : Success} {x : Sla}
    {k : String} (hk : slaSignalKey p x ≠ k) :
    (slaSignals now h p s x).filterMap (·.tells k) = [] := by
  refine List.filterMap_eq_nil_iff.2 fun q hq => ?_
  -- every report of the promise is under its key
  have hkey : ∃ active severity t reason, q = slaSignal h p x active severity t reason := by
    cases x with
    | backupAge =>
      simp only [slaSignals] at hq
      split at hq
      next =>
        rcases List.mem_cons.1 hq with rfl | hq
        · exact ⟨_, _, _, _, rfl⟩
        · split at hq
          next => exact ⟨_, _, _, _, List.mem_singleton.1 hq⟩
          next => cases hq
      next => exact ⟨_, _, _, _, List.mem_singleton.1 hq⟩
    | remoteSync =>
      simp only [slaSignals] at hq
      split at hq <;> exact ⟨_, _, _, _, List.mem_singleton.1 hq⟩
    | retention =>
      simp only [slaSignals] at hq
      split at hq
      next => split at hq <;> exact ⟨_, _, _, _, List.mem_singleton.1 hq⟩
      next => exact ⟨_, _, _, _, List.mem_singleton.1 hq⟩
    | restoreTest =>
      simp only [slaSignals] at hq
      split at hq <;> split at hq <;> exact ⟨_, _, _, _, List.mem_singleton.1 hq⟩
  obtain ⟨active, severity, t, reason, rfl⟩ := hkey
  rw [tells_slaSignal, if_neg hk]

theorem slaTimes_ne_nil (now : ℤ) (p : BackupPolicy) (s : Success) (x : Sla) :
    slaTimes now p s x ≠ [] := by
  cases x with
  | retention =>
    obtain ⟨id, runId, completedAt, size, sha, destination, synced, tested, expires⟩ := s
    simp only [slaTimes, retentionOver]
    cases expires with
    | none => simp
    | some t => by_cases ht : t ≤ now <;> simp [ht]
  | _ =>
    simp only [slaTimes]
    split <;> simp

/-! ## Keys of the tables -/

theorem colon_notMem_of_nameOk {s : String} (h : nameOk s = true) : ':' ∉ s.toList := by
  intro hc
  simp only [nameOk, Bool.and_eq_true, List.all_eq_true] at h
  exact absurd (h.2 ':' hc) (by decide)

/-- The unique keys of the hosts and the policies, and the names of the scopes. -/
structure MonitorWorld.Keyed (w : MonitorWorld) : Prop where
  hosts : (w.settings.hosts.map (·.id)).Nodup
  policies : (w.settings.policies.map policyScope).Nodup
  named : ∀ p ∈ w.settings.policies, (policyScope p).ok = true

namespace MonitorWorld

variable {w w' : MonitorWorld}

theorem Keyed.frame (h : w.Keyed)
    (hhosts : w'.settings.hosts.map (·.id) = w.settings.hosts.map (·.id))
    (hpolicies : w'.settings.policies.map policyScope = w.settings.policies.map policyScope) :
    w'.Keyed := by
  refine ⟨hhosts ▸ h.hosts, hpolicies ▸ h.policies, ?_⟩
  intro p hp
  have hmem : policyScope p ∈ w.settings.policies.map policyScope :=
    hpolicies ▸ List.mem_map_of_mem hp
  obtain ⟨q, hq, heq⟩ := List.mem_map.1 hmem
  exact heq ▸ h.named q hq

theorem Keyed.insertHost {h : MonitoredHost} (hw : w.Keyed) (hok : w.insertHost h = .ok w') :
    w'.Keyed := by
  obtain ⟨_, hid, hok⟩ := bind_eq_ok.1 hok
  obtain ⟨-, -, hok⟩ := bind_eq_ok.1 hok
  obtain rfl := pure_eq_ok.1 hok
  refine ⟨?_, hw.policies, hw.named⟩
  have hnew : ∀ g ∈ w.settings.hosts, g.id ≠ h.id := by
    intro g hg heq
    rw [raiseIf_eq_ok, List.any_eq_false] at hid
    exact hid g hg (decide_eq_true heq)
  show ((w.settings.hosts ++ [h]).map (·.id)).Nodup
  rw [List.map_append, List.nodup_append]
  refine ⟨hw.hosts, List.nodup_singleton _, ?_⟩
  intro a ha b hb
  obtain ⟨g, hg, rfl⟩ := List.mem_map.1 ha
  rw [List.mem_singleton.1 hb]
  exact hnew g hg

theorem Keyed.insertPolicy {x : BackupScope} {c : PolicyConfig} (hw : w.Keyed)
    (hok : w.insertPolicy x c = .ok w') : w'.Keyed := by
  obtain ⟨_, hchecks, hok⟩ := bind_eq_ok.1 hok
  obtain ⟨-, -, hok⟩ := bind_eq_ok.1 hok
  obtain ⟨_, hunique, hok⟩ := bind_eq_ok.1 hok
  obtain rfl := pure_eq_ok.1 hok
  rw [raiseIf_eq_ok, Option.isSome_eq_false_iff, Option.isNone_iff_eq_none] at hunique
  have hnew : ∀ p ∈ w.settings.policies, policyScope p ≠ x := by
    intro p hp heq
    exact List.find?_eq_none.1 hunique p hp (decide_eq_true heq)
  have hscope : policyScope (c.policy w.nextPolicyId x) = x := rfl
  refine ⟨hw.hosts, ?_, ?_⟩
  · show ((w.settings.policies ++ [c.policy w.nextPolicyId x]).map policyScope).Nodup
    rw [List.map_append, List.nodup_append]
    refine ⟨hw.policies, List.nodup_singleton _, ?_⟩
    intro a ha b hb
    obtain ⟨p, hp, rfl⟩ := List.mem_map.1 ha
    rw [List.mem_singleton.1 hb, hscope]
    exact hnew p hp
  · intro p hp
    rcases List.mem_append.1 hp with hp | hp
    · exact hw.named p hp
    · rw [List.mem_singleton.1 hp, hscope]
      rw [checkAll_eq_ok] at hchecks
      exact hchecks _ List.mem_cons_self

theorem Keyed.upsertPolicy {r : BackupRun} (hw : w.Keyed) (hok : w.upsertPolicy r = .ok w') :
    w'.Keyed := by
  unfold MonitorWorld.upsertPolicy at hok
  dsimp only at hok
  split at hok
  next => exact hw.insertPolicy hok
  next =>
    obtain rfl := Except.ok.inj hok
    exact hw.frame rfl (map_updateWhere fun _ => rfl)

theorem upsertRun_settings {r row : BackupRun} (hok : w.upsertRun r = .ok (row, w')) :
    w'.settings = w.settings := by
  obtain ⟨-, -, hok⟩ := bind_eq_ok.1 hok
  split at hok
  next =>
    obtain ⟨-, rfl⟩ := Prod.mk.inj (pure_eq_ok.1 hok)
    rfl
  next =>
    obtain ⟨-, -, hok⟩ := bind_eq_ok.1 hok
    obtain ⟨-, rfl⟩ := Prod.mk.inj (pure_eq_ok.1 hok)
    rfl

theorem Keyed.reportRun {now : ℤ} {r : BackupRun} (hw : w.Keyed)
    (hok : w.reportRun now r = .ok w') : w'.Keyed := by
  obtain ⟨w₁, h₁, hok⟩ := bind_eq_ok.1 hok
  obtain ⟨⟨row, w₂⟩, h₂, hok⟩ := bind_eq_ok.1 hok
  have hkeyed : w₂.Keyed := by
    have hsettings := upsertRun_settings h₂
    exact (hw.upsertPolicy h₁).frame (by rw [hsettings]) (by rw [hsettings])
  dsimp only at hok
  split at hok
  next =>
    obtain rfl := pure_eq_ok.1 hok
    exact hkeyed
  next =>
    obtain ⟨board, -, hok⟩ := bind_eq_ok.1 hok
    obtain rfl := pure_eq_ok.1 hok
    exact hkeyed.frame rfl rfl

theorem Keyed.updatePolicy {id : ℕ} {c : PolicyConfig} (hw : w.Keyed)
    (hok : w.updatePolicy id c = .ok w') : w'.Keyed := by
  obtain ⟨-, -, hok⟩ := bind_eq_ok.1 hok
  split at hok
  next =>
    obtain rfl := pure_eq_ok.1 hok
    exact hw
  next =>
    obtain ⟨board, -, hok⟩ := bind_eq_ok.1 hok
    obtain rfl := pure_eq_ok.1 hok
    exact hw.frame rfl (map_updateWhere fun _ => rfl)

theorem Keyed.deletePolicy {id : ℕ} (hw : w.Keyed) (hok : w.deletePolicy id = .ok w') :
    w'.Keyed := by
  unfold MonitorWorld.deletePolicy at hok
  split at hok
  next =>
    obtain rfl := Except.ok.inj hok
    exact hw
  next =>
    obtain ⟨board, -, hok⟩ := bind_eq_ok.1 hok
    obtain rfl := pure_eq_ok.1 hok
    refine ⟨hw.hosts, ?_, ?_⟩
    · exact hw.policies.sublist (List.filter_sublist.map policyScope)
    · exact fun p hp => hw.named p (List.mem_filter.1 hp).1

theorem reconcile_eq_ok {now : ℤ} {n : ℕ}
    (hok : reconcileNotificationScheduledSignals now w = .ok (n, w')) :
    ∃ board, (w.scheduledSignals now).foldlM (applyScheduled (w.env now)) w.board = .ok board ∧
      w' = { w with board } := by
  obtain ⟨board, hboard, hok⟩ := bind_eq_ok.1 hok
  exact ⟨board, hboard, (Prod.mk.inj (pure_eq_ok.1 hok)).2.symm⟩

theorem Keyed.apply {c : MonitorCall} (hw : w.Keyed) (hok : w.apply c = .ok w') : w'.Keyed := by
  obtain ⟨now, event⟩ := c
  cases event with
  | insertHost h => exact hw.insertHost hok
  | updateHost id enabled displayName =>
    obtain ⟨board, -, hok⟩ := bind_eq_ok.1 (show w.updateHost id enabled displayName = _ from hok)
    obtain rfl := pure_eq_ok.1 hok
    exact hw.frame (map_updateWhere fun _ => rfl) rfl
  | heartbeat hostId =>
    obtain ⟨-, -, hok⟩ := bind_eq_ok.1 hok
    obtain rfl := pure_eq_ok.1 hok
    exact hw.frame rfl rfl
  | reportRun r => exact hw.reportRun hok
  | insertPolicy x k => exact hw.insertPolicy hok
  | updatePolicy id k => exact hw.updatePolicy hok
  | deletePolicy id => exact hw.deletePolicy hok
  | reconcile =>
    obtain ⟨⟨n, w''⟩, hrec, rfl⟩ := map_eq_ok.1 hok
    obtain ⟨board, -, rfl⟩ := reconcile_eq_ok hrec
    exact hw.frame rfl rfl
  | outside board expectations suppressions channels =>
    obtain rfl := Except.ok.inj hok
    exact hw.frame rfl rfl

theorem keyed_run (calls : List MonitorCall) : (initial.run calls).Keyed := by
  refine Runs.run_invariant (fun w c hw => ?_) ⟨List.nodup_nil, List.nodup_nil, nofun⟩ calls
  unfold step
  cases happly : w.apply c with
  | ok w' => exact hw.apply happly
  | error e => exact hw

end MonitorWorld

/-! ## A pass over the tables -/

namespace MonitorWorld

variable {w w' : MonitorWorld} {now : ℤ}

theorem hostSignals_silent {h : MonitoredHost} {k : String}
    (hk : (Origin.heartbeat h.id).signalKey ≠ k) :
    (w.hostSignals now h).filterMap (·.tells k) = [] := by
  unfold hostSignals
  split
  next => rfl
  next => exact heartbeatSignals_silent hk

theorem policySignals_silent {p : BackupPolicy} {k : String} (hk : ∀ x, slaSignalKey p x ≠ k) :
    (w.policySignals now p).filterMap (·.tells k) = [] := by
  unfold policySignals
  split
  next =>
    simp only [List.filterMap_append, slaSignals_silent (hk _), List.append_nil]
  next => rfl

/-- What the pass says to the heartbeat signal of an enabled host. -/
theorem tells_heartbeat (hw : w.Keyed) {h : MonitoredHost} (hh : h ∈ w.settings.hosts)
    (hen : h.enabled = true) :
    (w.scheduledSignals now).filterMap (·.tells (Origin.heartbeat h.id).signalKey) =
      (w.hostSignals now h).filterMap (·.tells (Origin.heartbeat h.id).signalKey) := by
  have hkeys : ((w.settings.hosts.filter (·.enabled)).map (·.id)).Nodup :=
    hw.hosts.sublist (List.filter_sublist.map _)
  have hmem : h ∈ w.settings.hosts.filter (·.enabled) := List.mem_filter.2 ⟨hh, hen⟩
  rw [scheduledSignals, List.filterMap_append, List.filterMap_flatMap, List.filterMap_flatMap,
    flatMap_eq_of_unique hkeys hmem, List.flatMap_eq_nil_iff.2, List.append_nil]
  · intro p _
    exact policySignals_silent fun x => Ne.symm Origin.heartbeat_signalKey_ne_backup
  · intro g _ hne
    exact hostSignals_silent fun heq => hne (Origin.heartbeat_signalKey_inj heq)

/-- The key of a promise names the policy and the promise. -/
theorem Keyed.slaSignalKey_inj (hw : w.Keyed) {p q : BackupPolicy} {x y : Sla}
    (hp : p ∈ w.settings.policies) (hq : q ∈ w.settings.policies)
    (h : slaSignalKey p x = slaSignalKey q y) : policyScope p = policyScope q ∧ x = y := by
  have names : ∀ r ∈ w.settings.policies,
      ':' ∉ r.backupTarget.toList ∧ ':' ∉ r.gameMode.toList := by
    intro r hr
    have hok := hw.named r hr
    simp only [BackupScope.ok, Bool.and_eq_true] at hok
    exact ⟨colon_notMem_of_nameOk hok.1.1, colon_notMem_of_nameOk hok.1.2⟩
  obtain ⟨hu, ht, hm, hy, hkind⟩ := Origin.backup_signalKey_inj (names p hp).1 (names p hp).2
    (names q hq).1 (names q hq).2 h
  refine ⟨by simp only [policyScope, hu, ht, hm, hy], ?_⟩
  cases x <;> cases y <;> first | rfl | cases hkind

/-- What the pass says to the signal of a promise of an enabled policy. -/
theorem tells_sla (hw : w.Keyed) {p : BackupPolicy} (hp : p ∈ w.settings.policies)
    (hen : p.enabled = true) (x : Sla) :
    (w.scheduledSignals now).filterMap (·.tells (slaSignalKey p x)) =
      (w.policySignals now p).filterMap (·.tells (slaSignalKey p x)) := by
  have hkeys : ((w.settings.policies.filter (·.enabled)).map policyScope).Nodup :=
    hw.policies.sublist (List.filter_sublist.map _)
  have hmem : p ∈ w.settings.policies.filter (·.enabled) := List.mem_filter.2 ⟨hp, hen⟩
  rw [scheduledSignals, List.filterMap_append, List.filterMap_flatMap, List.filterMap_flatMap,
    flatMap_eq_of_unique hkeys hmem, List.flatMap_eq_nil_iff.2, List.nil_append]
  · intro h _
    exact hostSignals_silent Origin.heartbeat_signalKey_ne_backup
  · intro q hq hne
    refine policySignals_silent fun y heq => hne ?_
    exact (hw.slaSignalKey_inj (List.mem_filter.1 hq).1 hp heq).1

theorem policySignals_tells (hw : w.Keyed) {p : BackupPolicy} (hp : p ∈ w.settings.policies)
    {s : Success} (hs : latestSuccess w.runs p = some s) (x : Sla) :
    (w.policySignals now p).filterMap (·.tells (slaSignalKey p x)) =
      if (w.hostOf p).isSome then sayings (x.broken now p s) (slaTimes now p s x) else [] := by
  unfold policySignals
  rw [hs]
  cases w.hostOf p with
  | none => rfl
  | some h =>
    have silent : ∀ y, y ≠ x →
        (slaSignals now h p s y).filterMap (·.tells (slaSignalKey p x)) = [] := by
      intro y hne
      exact slaSignals_silent fun heq => hne (hw.slaSignalKey_inj hp hp heq).2
    simp only [Option.isSome_some, if_true, List.filterMap_append, ← slaSignals_tells now h p s x]
    cases x with
    | backupAge =>
      rw [silent .remoteSync (by decide), silent .retention (by decide),
        silent .restoreTest (by decide)]
      simp only [List.append_nil]
    | remoteSync =>
      rw [silent .backupAge (by decide), silent .retention (by decide),
        silent .restoreTest (by decide)]
      simp only [List.append_nil, List.nil_append]
    | retention =>
      rw [silent .backupAge (by decide), silent .remoteSync (by decide),
        silent .restoreTest (by decide)]
      simp only [List.append_nil, List.nil_append]
    | restoreTest =>
      rw [silent .backupAge (by decide), silent .remoteSync (by decide),
        silent .retention (by decide)]
      simp only [List.nil_append]

end MonitorWorld

/-- When what a pass says leaves a signal as it says. -/
theorem isOn_sayings {s : Option (Switch Timestamptz)} {active : Bool} {times : List ℤ} :
    Switch.isOn ((sayings active times).foldl Switch.see s) = active ↔
      Switch.isOn s = active ∨ ∃ t ∈ times, Switch.Fresh s (.ofInstant t) := by
  rw [sayings, Switch.isOn_foldl_see]
  simp only [List.mem_map, exists_exists_and_eq_and]

/-! ## The law -/

namespace MonitorWorld

/-- Every scheduled signal agrees with its condition at the time `now`. -/
structure LevelTriggered (w : MonitorWorld) (now : ℤ) : Prop where
  heartbeat : ∀ h ∈ w.settings.hosts, h.enabled = true → ∀ receivedAt,
    latestHeartbeat w.heartbeats h.id = some receivedAt →
    w.board.signalActive (Origin.heartbeat h.id).signalKey = heartbeatOverdue now receivedAt
  sla : ∀ p ∈ w.settings.policies, p.enabled = true → ∀ s, latestSuccess w.runs p = some s →
    ∀ x : Sla, w.board.signalActive (slaSignalKey p x) = x.broken now p s

/-- The signal has no row, or its row has seen nothing later than the time. -/
def accepts (w : MonitorWorld) (k : String) (t : ℤ) : Prop :=
  ∀ s ∈ w.board.signal? k, s.lastSeenAt ≤ .ofInstant t

/-- Every scheduled signal agrees with its condition already, or the pass has a report for it whose
evidence is not older than what the signal has seen. -/
structure EvidenceInOrder (w : MonitorWorld) (now : ℤ) : Prop where
  heartbeat : ∀ h ∈ w.settings.hosts, h.enabled = true → ∀ receivedAt,
    latestHeartbeat w.heartbeats h.id = some receivedAt →
    w.board.signalActive (Origin.heartbeat h.id).signalKey = heartbeatOverdue now receivedAt ∨
      ∃ t ∈ heartbeatTimes now receivedAt, w.accepts (Origin.heartbeat h.id).signalKey t
  sla : ∀ p ∈ w.settings.policies, p.enabled = true → ∀ s, latestSuccess w.runs p = some s →
    ∀ x : Sla, w.board.signalActive (slaSignalKey p x) = x.broken now p s ∨
      (w.hostOf p).isSome = true ∧ ∃ t ∈ slaTimes now p s x, w.accepts (slaSignalKey p x) t

variable {w w' : MonitorWorld} {now : ℤ}

theorem fresh_iff_accepts {k : String} {t : ℤ} :
    Switch.Fresh (w.board.switch? k) (.ofInstant t) ↔ w.accepts k t := by
  rw [accepts, Board.switch?]
  cases w.board.signal? k with
  | none => simp [Switch.Fresh]
  | some s => simp [Switch.Fresh]

theorem heartbeat_after (hw : w.Keyed) {board : Board}
    (hrec : (w.scheduledSignals now).foldlM (applyScheduled (w.env now)) w.board = .ok board)
    {h : MonitoredHost} (hh : h ∈ w.settings.hosts) (hen : h.enabled = true) {receivedAt : ℤ}
    (hlatest : latestHeartbeat w.heartbeats h.id = some receivedAt) :
    board.signalActive (Origin.heartbeat h.id).signalKey = heartbeatOverdue now receivedAt ↔
      w.board.signalActive (Origin.heartbeat h.id).signalKey = heartbeatOverdue now receivedAt ∨
        ∃ t ∈ heartbeatTimes now receivedAt, w.accepts (Origin.heartbeat h.id).signalKey t := by
  have htells : (w.hostSignals now h).filterMap (·.tells (Origin.heartbeat h.id).signalKey) =
      sayings (heartbeatOverdue now receivedAt) (heartbeatTimes now receivedAt) := by
    rw [hostSignals, hlatest]
    exact heartbeatSignals_tells now h receivedAt
  rw [Board.signalActive_eq, Board.signalActive_eq, foldlM_applyScheduled_switch? hrec,
    tells_heartbeat hw hh hen, htells, isOn_sayings]
  simp only [fresh_iff_accepts]

theorem sla_after (hw : w.Keyed) {board : Board}
    (hrec : (w.scheduledSignals now).foldlM (applyScheduled (w.env now)) w.board = .ok board)
    {p : BackupPolicy} (hp : p ∈ w.settings.policies) (hen : p.enabled = true) {s : Success}
    (hs : latestSuccess w.runs p = some s) (x : Sla) :
    board.signalActive (slaSignalKey p x) = x.broken now p s ↔
      w.board.signalActive (slaSignalKey p x) = x.broken now p s ∨
        (w.hostOf p).isSome = true ∧ ∃ t ∈ slaTimes now p s x, w.accepts (slaSignalKey p x) t := by
  rw [Board.signalActive_eq, Board.signalActive_eq, foldlM_applyScheduled_switch? hrec,
    tells_sla hw hp hen, policySignals_tells hw hp hs]
  cases (w.hostOf p).isSome with
  | true =>
    rw [if_pos rfl, isOn_sayings]
    simp only [fresh_iff_accepts, true_and]
  | false => simp

/-- **After a pass the signals agree with their conditions exactly if the evidence was in order.**
This is so in every state that any history of hosts, heartbeats, backups and policies leads to. -/
theorem levelTriggered_iff (calls : List MonitorCall) {now : ℤ} {n : ℕ} {w' : MonitorWorld}
    (hok : reconcileNotificationScheduledSignals now (initial.run calls) = .ok (n, w')) :
    w'.LevelTriggered now ↔ (initial.run calls).EvidenceInOrder now := by
  have hw := keyed_run calls
  obtain ⟨board, hrec, rfl⟩ := reconcile_eq_ok hok
  constructor
  · intro h
    refine ⟨?_, ?_⟩
    · intro g hg hen receivedAt hlatest
      exact (heartbeat_after hw hrec hg hen hlatest).1 (h.heartbeat g hg hen receivedAt hlatest)
    · intro p hp hen s hs x
      exact (sla_after hw hrec hp hen hs x).1 (h.sla p hp hen s hs x)
  · intro h
    refine ⟨?_, ?_⟩
    · intro g hg hen receivedAt hlatest
      exact (heartbeat_after hw hrec hg hen hlatest).2 (h.heartbeat g hg hen receivedAt hlatest)
    · intro p hp hen s hs x
      exact (sla_after hw hrec hp hen hs x).2 (h.sla p hp hen s hs x)

/-! ## A backup that is reported late -/

/-- The backup of the 24th hour is reported in the 27th, after the pass of the 26th hour has found
that the backup of the first hour is too old. -/
def lateReport : List MonitorCall :=
  [⟨0, .insertHost sampleHost⟩, ⟨hour, .reportRun (sampleRun ⟨1⟩ hour)⟩, ⟨26 * hour, .reconcile⟩,
    ⟨27 * hour, .reportRun (sampleRun ⟨2⟩ (24 * hour))⟩]

/-- A backup signal of an enabled policy disagrees with its condition. -/
def disagrees (now : ℤ) (w : MonitorWorld) : Bool :=
  w.settings.policies.any fun p => p.enabled && (latestSuccess w.runs p).any fun s =>
    w.board.signalActive (slaSignalKey p .backupAge) ≠ backupLate now p s

theorem not_levelTriggered_of_disagrees (h : disagrees now w = true) : ¬ w.LevelTriggered now := by
  intro hlevel
  obtain ⟨p, hp, h⟩ := List.any_eq_true.1 h
  rw [Bool.and_eq_true] at h
  obtain ⟨s, hs, hne⟩ := (Option.any_eq_true _ _).1 h.2
  exact of_decide_eq_true hne (hlevel.sla p hp h.1 s hs .backupAge)

/-- The result of a pass. -/
def passed (now : ℤ) (w : MonitorWorld) : Option (ℕ × MonitorWorld) :=
  match reconcileNotificationScheduledSignals now w with
  | .ok r => some r
  | .error _ => none

theorem reconcile_of_passed {r : ℕ × MonitorWorld} (h : passed now w = some r) :
    reconcileNotificationScheduledSignals now w = .ok r := by
  unfold passed at h
  split at h
  next r' hr =>
    rw [hr, Option.some.inj h]
  next => cases h

theorem lateReport_disagrees :
    (passed (28 * hour) (initial.run lateReport)).any (disagrees (28 * hour) ·.2) = true := by
  decide +kernel

/-- The pass of the 28th hour leaves the signal of an age that is in order active. -/
theorem late_report_keeps_signal : ∃ n w',
    reconcileNotificationScheduledSignals (28 * hour) (initial.run lateReport) = .ok (n, w') ∧
      ¬ w'.LevelTriggered (28 * hour) := by
  obtain ⟨⟨n, w'⟩, hpassed, hdis⟩ := (Option.any_eq_true _ _).1 lateReport_disagrees
  exact ⟨n, w', reconcile_of_passed hpassed, not_levelTriggered_of_disagrees hdis⟩

theorem late_report_levelTriggered_iff : ∃ n w',
    reconcileNotificationScheduledSignals (28 * hour) (initial.run lateReport) = .ok (n, w') ∧
      (w'.LevelTriggered (28 * hour) ↔ (initial.run lateReport).EvidenceInOrder (28 * hour)) := by
  obtain ⟨⟨n, w'⟩, hpassed, -⟩ := (Option.any_eq_true _ _).1 lateReport_disagrees
  have hok := reconcile_of_passed hpassed
  exact ⟨n, w', hok, levelTriggered_iff lateReport hok⟩

end MonitorWorld

end IvrmDashboard.Notifications

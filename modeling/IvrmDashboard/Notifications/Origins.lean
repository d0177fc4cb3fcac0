import Mathlib.Logic.Function.Basic
import IvrmDashboard.Notifications.Calls

/-!
# What the signals are about

The functions that apply a signal take its key and its entity apart, and the tables do not relate
the two. Their callers build both from one thing (`Origin`): a host, a container, a backup target, a
service or a cloud target. So the key determines what the suppressions and the retirements look at
(`footprint_eq_of_signalKey`).
-/

namespace IvrmDashboard.Notifications

open Sql Operations

/-! ## Origins -/

/-- The signals of a container. -/
inductive ContainerSignal
  | stateChanged
  | healthChanged
  | exitCodeChanged
  deriving DecidableEq

def ContainerSignal.text : ContainerSignal → String
  | stateChanged => "state_changed"
  | healthChanged => "health_changed"
  | exitCodeChanged => "exit_code_changed"

/-- The signals of a backup target. -/
inductive BackupSignal
  | runFailure
  | checksum
  | backupAge
  | remoteSync
  | retention
  | restoreTest
  deriving DecidableEq

def BackupSignal.text : BackupSignal → String
  | runFailure => "run_failure"
  | checksum => "checksum"
  | backupAge => "backup_age"
  | remoteSync => "remote_sync"
  | retention => "retention"
  | restoreTest => "restore_test"

/-- What a signal is about. -/
inductive Origin
  | heartbeat (hostId : Uuid)
  | container (hostId : Uuid) (containerName : String) (kind : ContainerSignal)
  | backup (hostId : Uuid) (backupTarget gameMode backupType : String) (kind : BackupSignal)
  | burn (serviceId : String)
  | cloud (targetId : String)
  deriving DecidableEq

/-- What the suppressions and the retirements look at. -/
structure Footprint where
  hostId : Option Uuid
  entityType : Source
  entityKey : String
  containerName : Option String
  deriving DecidableEq

/-- The name counts for containers only. -/
def Identity.footprint (i : Identity) : Footprint where
  hostId := i.hostId
  entityType := i.entityType
  entityKey := i.entityKey
  containerName := if i.entityType = .container then some i.entityName else none

/-- `v_entity_key` of a container -/
def containerEntityKey (hostId : Uuid) (containerName : String) : String :=
  hostId.text ++ ":" ++ containerName

/-- `v_entity_key` of a backup target -/
def backupEntityKey (hostId : Uuid) (backupTarget gameMode backupType : String) : String :=
  hostId.text ++ ":" ++ backupTarget ++ ":" ++ gameMode ++ ":" ++ backupType

namespace Origin

/-- `v_signal_key` -/
def signalKey : Origin → String
  | heartbeat hostId => "host:" ++ hostId.text ++ ":heartbeat"
  | container hostId containerName kind =>
    "container:" ++ containerEntityKey hostId containerName ++ ":" ++ kind.text
  | backup hostId backupTarget gameMode backupType kind =>
    "backup:" ++ backupEntityKey hostId backupTarget gameMode backupType ++ ":" ++ kind.text
  | burn serviceId => burnSignalKey serviceId
  | cloud targetId => "cloud:state:" ++ targetId

/-- The host and the entity the callers pass along with the key. -/
def footprint : Origin → Footprint
  | heartbeat hostId => ⟨some hostId, .host, hostId.text, none⟩
  | container hostId containerName _ =>
    ⟨some hostId, .container, containerEntityKey hostId containerName, some containerName⟩
  | backup hostId backupTarget gameMode backupType _ =>
    ⟨some hostId, .backup, backupEntityKey hostId backupTarget gameMode backupType, none⟩
  | burn serviceId => ⟨none, .reliability, serviceId, none⟩
  | cloud targetId => ⟨none, .cloud, targetId, none⟩

end Origin

/-! ## Keys -/

/-- A text is cut at its first colon in one way. -/
theorem cut_at_first_colon {a b s t : List Char} (ha : ':' ∉ a) (hb : ':' ∉ b)
    (h : a ++ ':' :: s = b ++ ':' :: t) : a = b ∧ s = t := by
  rcases List.append_eq_append_iff.1 h with ⟨c, rfl, hc⟩ | ⟨c, rfl, hc⟩
  · cases c with
    | nil => exact ⟨(List.append_nil a).symm, (List.cons.inj hc).2⟩
    | cons x c =>
      rw [← (List.cons.inj hc).1] at hb
      simp at hb
  · cases c with
    | nil => exact ⟨List.append_nil b, (List.cons.inj hc).2.symm⟩
    | cons x c =>
      rw [← (List.cons.inj hc).1] at ha
      simp at ha

theorem ContainerSignal.colon_notMem (kind : ContainerSignal) : ':' ∉ kind.text.toList := by
  cases kind <;> decide

theorem BackupSignal.colon_notMem (kind : BackupSignal) : ':' ∉ kind.text.toList := by
  cases kind <;> decide

/-- The kind of a signal is the last part of its key. -/
theorem entityKey_eq {a b s t : String} (hs : ':' ∉ s.toList) (ht : ':' ∉ t.toList)
    (h : a ++ ":" ++ s = b ++ ":" ++ t) : a = b := by
  have hlist := congrArg String.toList h
  simp only [String.toList_append, List.append_assoc] at hlist
  exact String.toList_injective (Text.cut_at_last_colon hs ht hlist).1

/-- The host of an entity is the first part of its key. -/
theorem hostId_eq_of_entityKey {u v : Uuid} {s t : String} (h : u.text ++ s = v.text ++ t) :
    u = v ∧ s = t := by
  have hlen : ∀ w : Uuid, w.text.toList.length = 36 := by
    intro w
    rw [String.length_toList, Uuid.length_text]
  have hlist := congrArg String.toList h
  rw [String.toList_append, String.toList_append] at hlist
  obtain ⟨hu, hs⟩ := List.append_inj hlist ((hlen u).trans (hlen v).symm)
  exact ⟨Uuid.text_inj (String.toList_injective hu), String.toList_injective hs⟩

namespace Origin

/-- The first part of the key. -/
def family : Origin → String
  | heartbeat _ => "host"
  | container _ _ _ => "container"
  | backup _ _ _ _ _ => "backup"
  | burn _ => "reliability"
  | cloud _ => "cloud"

/-- The rest of the key. -/
def label : Origin → String
  | heartbeat hostId => hostId.text ++ ":heartbeat"
  | container hostId containerName kind =>
    containerEntityKey hostId containerName ++ ":" ++ kind.text
  | backup hostId backupTarget gameMode backupType kind =>
    backupEntityKey hostId backupTarget gameMode backupType ++ ":" ++ kind.text
  | burn serviceId => "slo_burn_rate:" ++ serviceId
  | cloud targetId => "state:" ++ targetId

theorem signalKey_eq (x : Origin) :
    x.signalKey.toList = x.family.toList ++ ':' :: x.label.toList := by
  unfold signalKey family label burnSignalKey
  cases x <;> simp

theorem colon_notMem_family (x : Origin) : ':' ∉ x.family.toList := by
  cases x <;> simp [family]

theorem family_label_eq {x y : Origin} (h : x.signalKey = y.signalKey) :
    x.family = y.family ∧ x.label = y.label := by
  have hlist := congrArg String.toList h
  rw [signalKey_eq, signalKey_eq] at hlist
  obtain ⟨hfamily, hlabel⟩ :=
    cut_at_first_colon (colon_notMem_family x) (colon_notMem_family y) hlist
  exact ⟨String.toList_injective hfamily, String.toList_injective hlabel⟩

/-- The key determines what the suppressions and the retirements look at. -/
theorem footprint_eq_of_signalKey {x y : Origin} (h : x.signalKey = y.signalKey) :
    x.footprint = y.footprint := by
  obtain ⟨hfamily, hlabel⟩ := family_label_eq h
  unfold label at hlabel
  cases x <;> cases y <;> simp only [family, String.reduceEq] at hfamily hlabel
  case heartbeat.heartbeat u v =>
    obtain ⟨rfl, -⟩ := hostId_eq_of_entityKey hlabel
    rfl
  case container.container u m kind v n kind' =>
    have hkey := entityKey_eq kind.colon_notMem kind'.colon_notMem hlabel
    simp only [containerEntityKey, String.append_assoc] at hkey
    obtain ⟨rfl, hname⟩ := hostId_eq_of_entityKey hkey
    rw [String.append_right_inj] at hname
    rw [hname]
    rfl
  case backup.backup u t m y kind v t' m' y' kind' =>
    have hkey := entityKey_eq kind.colon_notMem kind'.colon_notMem hlabel
    obtain ⟨rfl, -⟩ : u = v ∧ _ := by
      simp only [backupEntityKey, String.append_assoc] at hkey
      exact hostId_eq_of_entityKey hkey
    simp only [footprint, hkey]
  case burn.burn s s' =>
    rw [(String.append_right_inj _).1 hlabel]
  case cloud.cloud t t' =>
    rw [(String.append_right_inj _).1 hlabel]

/-- The key of a heartbeat names its host. -/
theorem heartbeat_signalKey_inj {u v : Uuid}
    (h : (heartbeat u).signalKey = (heartbeat v).signalKey) : u = v := by
  obtain ⟨-, hlabel⟩ := family_label_eq h
  exact (hostId_eq_of_entityKey hlabel).1

theorem heartbeat_signalKey_ne_backup {u v : Uuid} {t m y : String} {kind : BackupSignal} :
    (heartbeat u).signalKey ≠ (backup v t m y kind).signalKey := by
  intro h
  have hfamily := (family_label_eq h).1
  simp [family] at hfamily

/-- The key of a backup signal names its scope and its kind, when the names have no colon. -/
theorem backup_signalKey_inj {u v : Uuid} {t m y t' m' y' : String} {kind kind' : BackupSignal}
    (ht : ':' ∉ t.toList) (hm : ':' ∉ m.toList) (ht' : ':' ∉ t'.toList) (hm' : ':' ∉ m'.toList)
    (h : (backup u t m y kind).signalKey = (backup v t' m' y' kind').signalKey) :
    u = v ∧ t = t' ∧ m = m' ∧ y = y' ∧ kind = kind' := by
  obtain ⟨-, hlabel⟩ := family_label_eq h
  have hentity := entityKey_eq kind.colon_notMem kind'.colon_notMem hlabel
  have hkind : kind.text = kind'.text := by
    simp only [label, hentity] at hlabel
    exact (String.append_right_inj _).1 hlabel
  simp only [backupEntityKey, String.append_assoc] at hentity
  obtain ⟨rfl, hrest⟩ := hostId_eq_of_entityKey hentity
  have hlist := congrArg String.toList ((String.append_right_inj _).1 hrest)
  simp only [String.toList_append] at hlist
  obtain ⟨htt, hlist⟩ := cut_at_first_colon ht ht' hlist
  obtain ⟨hmm, hyy⟩ := cut_at_first_colon hm hm' hlist
  refine ⟨rfl, String.toList_injective htt, String.toList_injective hmm,
    String.toList_injective hyy, ?_⟩
  cases kind <;> cases kind' <;> first | rfl | exact absurd hkind (by decide)

end Origin

/-- What the suppressions and the retirements look at in the signal of a key. -/
noncomputable def footprintOf : String → Footprint :=
  Function.extend Origin.signalKey Origin.footprint fun _ => ⟨none, .host, "", none⟩

@[simp] theorem footprintOf_signalKey (x : Origin) : footprintOf x.signalKey = x.footprint :=
  Function.FactorsThrough.extend_apply (fun _ _ => Origin.footprint_eq_of_signalKey) _ x

/-! ## Reports of the callers -/

/-- The report is about the origin. -/
structure Observation.About (o : Observation) (x : Origin) : Prop where
  key : o.signalKey = x.signalKey
  footprint : o.identity.footprint = x.footprint

/-- Whatever the calls report is about an origin. -/
def Reported (calls : List Call) : Prop :=
  ∀ c ∈ calls, ∀ o, c.request.Reports o → ∃ x : Origin, o.About x

theorem Reported.append_left {front back : List Call} (h : Reported (front ++ back)) :
    Reported front :=
  fun c hc => h c (List.mem_append_left _ hc)

theorem Reported.append_right {front back : List Call} (h : Reported (front ++ back)) :
    Reported back :=
  fun c hc => h c (List.mem_append_right _ hc)

/-- The burn rate reports name their service. -/
theorem burnObservation_about (serviceId : String) (active : Bool) (severity : Option Level)
    (occurredAt : Timestamptz) (reason : String) :
    (burnObservation serviceId active severity occurredAt reason).About (.burn serviceId) :=
  ⟨rfl, rfl⟩

/-- What a report takes from the arguments of the call. -/
theorem SignalParams.observation?_eq_some {p : SignalParams} {ok : Identity → Bool}
    {o : Observation} (h : p.observation? ok = some o) :
    p.signalKey = some o.signalKey ∧ p.hostId = o.identity.hostId ∧
      p.entityType.bind Source.ofText? = some o.identity.entityType ∧
      p.entityKey = some o.identity.entityKey ∧ p.entityName = some o.identity.entityName ∧
      p.active = some o.active ∧ p.occurredAt = some o.occurredAt ∧ ok o.identity = true := by
  have arg {α β : Type} {x : Option α} {f : α → Option β} {y : β} (h : (x >>= f) = some y) :
      ∃ a, x = some a ∧ f a = some y := Option.bind_eq_some_iff.1 h
  obtain ⟨signalKey, hkey, h⟩ := arg h
  obtain ⟨sourceType, -, h⟩ := arg h
  obtain ⟨serverId, -, h⟩ := arg h
  obtain ⟨entityType, htype, h⟩ := arg h
  obtain ⟨entityKey, hentity, h⟩ := arg h
  obtain ⟨entityName, hname, h⟩ := arg h
  obtain ⟨signalType, -, h⟩ := arg h
  obtain ⟨active, hactive, h⟩ := arg h
  obtain ⟨severity, -, h⟩ := arg h
  obtain ⟨occurredAt, hocc, h⟩ := arg h
  obtain ⟨reason, -, h⟩ := arg h
  obtain ⟨title, -, h⟩ := arg h
  obtain ⟨detailHref, -, h⟩ := arg h
  dsimp only at h
  split at h
  next hok =>
    obtain rfl := Option.some.inj h
    exact ⟨(Option.filter_eq_some_iff.1 hkey).1, rfl, htype,
      (Option.filter_eq_some_iff.1 hentity).1, (Option.filter_eq_some_iff.1 hname).1, hactive, hocc,
      hok⟩
  next => cases h

end IvrmDashboard.Notifications

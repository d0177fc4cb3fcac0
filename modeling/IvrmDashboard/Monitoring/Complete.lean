import Mathlib.Data.List.Find
import IvrmDashboard.Monitoring.Snapshot

/-!
# When the snapshot is complete

The two lists the snapshot is made of are cut off after so many rows of all hosts and containers
together. So a host or a container that has been silent is pushed out by the rows of the others: the
host loses its values and the container disappears. The snapshot shows everything exactly as long as
the latest row of each is among the rows that are fetched (`snapshot_complete_iff`).
-/

namespace IvrmDashboard.Monitoring

open Sql FirstPerKey

section

variable {F : Type} {db : Database F} {now : ℤ}

/-! ## What a complete snapshot shows -/

/-- The host is enabled. -/
def Database.Enabled (db : Database F) (hostId : Uuid) : Prop := ∃ h ∈ enabledHosts db, h.id = hostId

/-- A heartbeat of the host that none of its heartbeats is later than. -/
def IsLatestHeartbeat (db : Database F) (r : HeartbeatRow F) : Prop :=
  r ∈ db.heartbeats ∧ ∀ other ∈ db.heartbeats, other.hostId = r.hostId →
    other.receivedAt ≤ r.receivedAt

/-- A sample of the container that none of its samples is later than. -/
def IsLatestSample (db : Database F) (r : ContainerSampleRow F) : Prop :=
  r ∈ db.samples ∧ ∀ other ∈ db.samples, other.hostId = r.hostId →
    other.containerName = r.containerName → other.receivedAt ≤ r.receivedAt

/-- The heartbeat a host is shown with: a latest one, or none if it never sent any. -/
def ShownWith (db : Database F) (hostId : Uuid) : Option (HeartbeatRow F) → Prop
  | some r => r.hostId = hostId ∧ IsLatestHeartbeat db r
  | none => ∀ r ∈ db.heartbeats, r.hostId ≠ hostId

/-- **The snapshot is complete**: every enabled host has the values of its latest heartbeat, every
container of an enabled host that has a sample has the values of its latest one, and where that is
old the container is stale or offline. -/
structure Complete (now : ℤ) (db : Database F) (snapshot : MonitoringSnapshot F) : Prop where
  hosts : ∀ h ∈ enabledHosts db, ∃ r, ShownWith db h.id r ∧ hostOverview now h r ∈ snapshot.hosts
  containers : ∀ c ∈ db.samples, db.Enabled c.hostId →
    ∃ r, r.hostId = c.hostId ∧ r.containerName = c.containerName ∧ IsLatestSample db r ∧
      containerOverview now db r ∈ snapshot.containers ∧
      ((∀ age ∈ ageSeconds r.receivedAt now, onlineThresholdSeconds < age) →
        (containerOverview now db r).status ∈ [Status.stale, .offline])

/-- The rows that are fetched reach back to the latest heartbeat of every enabled host and to the
latest sample of each of its containers. -/
structure Database.Reaches (db : Database F) : Prop where
  hosts : ∀ h ∈ enabledHosts db, (∃ r ∈ db.heartbeats, r.hostId = h.id) →
    ahead (·.hostId) (orderedHeartbeats db) h.id < heartbeatFetchLimit
  containers : ∀ c ∈ db.samples, db.Enabled c.hostId →
    ahead (·.key) (orderedSamples db) c.key < containerFetchLimit

/-! ## Keys -/

theorem entityKey_inj {a b : Uuid} {s t : String} (h : entityKey a s = entityKey b t) :
    a = b ∧ s = t := by
  have hlist := congrArg String.toList h
  simp only [entityKey, String.toList_append, List.append_assoc] at hlist
  obtain ⟨hid, hname⟩ := List.append_inj hlist
    (by rw [String.length_toList, String.length_toList, Uuid.length_text, Uuid.length_text])
  exact ⟨Uuid.text_inj (String.toList_injective hid),
    String.toList_injective ((List.append_inj hname rfl).2)⟩

theorem key_eq_iff {a b : ContainerSampleRow F} :
    a.key = b.key ↔ a.hostId = b.hostId ∧ a.containerName = b.containerName := by
  constructor
  · exact entityKey_inj
  · rintro ⟨hid, hname⟩
    rw [ContainerSampleRow.key, ContainerSampleRow.key, hid, hname]

/-! ## The latest rows -/

/-- What is found first in the order of the query is a latest row. -/
theorem latest_of_find? {α : Type} {time : α → ℤ} {p : α → Bool} {rows : List α} {r : α}
    (h : (orderBy (fun a b => decide (time b ≤ time a)) rows).find? p = some r) :
    r ∈ rows ∧ p r = true ∧ ∀ other ∈ rows, p other = true → time other ≤ time r := by
  have hmem := (mem_orderBy _).1 (List.mem_of_find?_eq_some h)
  refine ⟨hmem, List.find?_some h, fun other hother hp => ?_⟩
  obtain ⟨-, front, back, hsplit, hfront⟩ := List.find?_eq_some_iff_append.1 h
  have : Std.Total fun a b => decide (time b ≤ time a) = true :=
    ⟨fun a b => by simpa using Int.le_total (time b) (time a)⟩
  have : IsTrans α fun a b => decide (time b ≤ time a) = true :=
    ⟨fun a b c hab hbc => by simp only [decide_eq_true_eq] at *; omega⟩
  have hsorted : (orderBy (fun a b => decide (time b ≤ time a)) rows).Pairwise
      fun a b => decide (time b ≤ time a) = true := List.pairwise_insertionSort _ rows
  have hlisted := (mem_orderBy (fun a b => decide (time b ≤ time a))).2 hother
  rw [hsplit] at hsorted hlisted
  rcases List.mem_append.1 hlisted with hin | hin
  · have := hfront other hin
    rw [hp] at this
    cases this
  · rcases List.mem_cons.1 hin with rfl | hin
    · exact le_refl _
    · have hpair := (List.pairwise_append.1 hsorted).2.1
      exact of_decide_eq_true ((List.pairwise_cons.1 hpair).1 other hin)

/-- A look-up in the map over the fetched heartbeats. -/
theorem latestByHost_eq (db : Database F) (id : Uuid) :
    latestByHost db id = ((orderedHeartbeats db).take heartbeatFetchLimit).find? (·.hostId = id) :=
  find?_firstPerKey _ id

theorem isLatestHeartbeat_of_find? {id : Uuid} {r : HeartbeatRow F}
    (h : (orderedHeartbeats db).find? (·.hostId = id) = some r) :
    r.hostId = id ∧ IsLatestHeartbeat db r := by
  obtain ⟨hmem, hid, hle⟩ := latest_of_find? h
  have hid := of_decide_eq_true hid
  exact ⟨hid, hmem, fun other hother hsame => hle other hother (decide_eq_true (hsame.trans hid))⟩

theorem isLatestSample_of_find? {c r : ContainerSampleRow F}
    (h : (orderedSamples db).find? (·.key = c.key) = some r) :
    r.hostId = c.hostId ∧ r.containerName = c.containerName ∧ IsLatestSample db r := by
  obtain ⟨hmem, hkey, hle⟩ := latest_of_find? h
  have hkey := of_decide_eq_true hkey
  obtain ⟨hid, hname⟩ := key_eq_iff.1 hkey
  refine ⟨hid, hname, hmem, fun other hother hotherId hotherName => hle other hother ?_⟩
  rw [← hkey]
  exact decide_eq_true (key_eq_iff.2 ⟨hotherId, hotherName⟩)

/-- Where a heartbeat is stored the ordered list has one. -/
theorem exists_find?_orderBy {α : Type} (le : α → α → Bool) {rows : List α} {p : α → Bool} {a : α}
    (ha : a ∈ rows) (hp : p a = true) : ∃ r, (orderBy le rows).find? p = some r :=
  Option.isSome_iff_exists.1 (List.find?_isSome.2 ⟨a, (mem_orderBy le).2 ha, hp⟩)

/-- The name of a host is known exactly when it is enabled. -/
theorem hostNameOf_isSome {id : Uuid} : (hostNameOf db id).isSome = true ↔ db.Enabled id := by
  simp [hostNameOf, Database.Enabled]

/-- **The containers in the map.** -/
theorem mem_latestContainers {r : ContainerSampleRow F} : r ∈ latestContainers db ↔
    db.Enabled r.hostId ∧ (orderedSamples db).find? (·.key = r.key) = some r ∧
      ahead (·.key) (orderedSamples db) r.key < containerFetchLimit := by
  -- the key of a row determines whether its host is known
  have hcongr : ∀ x ∈ (orderedSamples db).take containerFetchLimit,
      decide ((hostNameOf db x.hostId).isSome = true ∧ decide (x.key = r.key) = true) =
        ((hostNameOf db r.hostId).isSome && decide (x.key = r.key)) := by
    intro x _
    by_cases hkey : x.key = r.key
    · simp [hkey, (key_eq_iff.1 hkey).1]
    · simp [hkey]
  rw [latestContainers, mem_firstPerKey, List.find?_filter, List.find?_congr hcongr,
    ← find?_take_eq_some, ← hostNameOf_isSome]
  cases (hostNameOf db r.hostId).isSome with
  | true => simp
  | false =>
    refine iff_of_false (fun h => ?_) (fun h => Bool.false_ne_true h.1)
    exact absurd (List.find?_some h) (by simp)

/-! ## Hosts and containers -/

/-- **A host is shown with its latest heartbeat as long as it is fetched.** -/
theorem shownWith_iff {h : HostRow} : ShownWith db h.id (latestByHost db h.id) ↔
    ((∃ r ∈ db.heartbeats, r.hostId = h.id) →
      ahead (·.hostId) (orderedHeartbeats db) h.id < heartbeatFetchLimit) := by
  rw [latestByHost_eq]
  constructor
  · rintro hshown ⟨r, hr, hid⟩
    cases hfind : ((orderedHeartbeats db).take heartbeatFetchLimit).find? (·.hostId = h.id) with
    | some a => exact (find?_take_eq_some.1 hfind).2
    | none =>
      rw [hfind] at hshown
      exact absurd hid (hshown r hr)
  · intro hreaches
    cases hfind : ((orderedHeartbeats db).take heartbeatFetchLimit).find? (·.hostId = h.id) with
    | some a => exact isLatestHeartbeat_of_find? (find?_take_eq_some.1 hfind).1
    | none =>
      intro r hr hid
      obtain ⟨a, ha⟩ : ∃ a, (orderedHeartbeats db).find? (·.hostId = h.id) = some a :=
        exists_find?_orderBy _ hr (decide_eq_true hid)
      rw [find?_take_eq_some.2 ⟨ha, hreaches ⟨r, hr, hid⟩⟩] at hfind
      cases hfind

/-- A container whose latest sample is old. -/
theorem status_of_old {c : ContainerSampleRow F}
    (h : ∀ age ∈ ageSeconds c.receivedAt now, onlineThresholdSeconds < age) :
    (containerOverview now db c).status ∈ [Status.stale, .offline] := by
  have hage : onlineThresholdSeconds <
      (ageSeconds c.receivedAt now).getD (staleThresholdSeconds + 1) := by
    cases hage : ageSeconds c.receivedAt now with
    | none => decide
    | some age => exact h age hage
  simp only [containerOverview, determineContainerStatus, if_pos hage]
  split <;> simp

variable [Collations]

theorem mem_hosts {o : HostOverview F} : o ∈ (getMonitoringSnapshot now db).hosts ↔
    ∃ h ∈ enabledHosts db, hostOverview now h (latestByHost db h.id) = o := by
  simp [getMonitoringSnapshot]

theorem mem_containers {o : ContainerOverview F} :
    o ∈ (getMonitoringSnapshot now db).containers ↔
      ∃ r ∈ latestContainers db, containerOverview now db r = o := by
  simp [getMonitoringSnapshot]

/-- An enabled host that is shown with a heartbeat has it in the map. -/
theorem latestByHost_of_mem {h : HostRow} {r : Option (HeartbeatRow F)} (hh : h ∈ enabledHosts db)
    (hmem : hostOverview now h r ∈ (getMonitoringSnapshot now db).hosts) :
    r.isSome = (latestByHost db h.id).isSome := by
  obtain ⟨g, hg, heq⟩ := mem_hosts.1 hmem
  have hid : g.id = h.id := congrArg HostOverview.id heq
  have hgh : g = h := List.inj_on_of_nodup_map db.hostIds (List.mem_filter.1 hg).1
    (List.mem_filter.1 hh).1 hid
  have hreceived : (latestByHost db g.id).map (·.receivedAt) = r.map (·.receivedAt) :=
    congrArg HostOverview.receivedAt heq
  rw [← hgh]
  have := congrArg Option.isSome hreceived
  rw [Option.isSome_map, Option.isSome_map] at this
  exact this.symm

/-- **The snapshot is complete exactly when the fetched rows reach far enough.** -/
theorem snapshot_complete_iff (now : ℤ) (db : Database F) :
    Complete now db (getMonitoringSnapshot now db) ↔ db.Reaches := by
  constructor
  · intro hcomplete
    constructor
    · rintro h hh ⟨r, hr, hid⟩
      obtain ⟨shown, hshown, hmem⟩ := hcomplete.hosts h hh
      have hsome := latestByHost_of_mem hh hmem
      rw [latestByHost_eq] at hsome
      cases shown with
      | none => exact absurd hid (hshown r hr)
      | some a =>
        obtain ⟨b, hb⟩ := Option.isSome_iff_exists.1 hsome.symm
        exact (find?_take_eq_some.1 hb).2
    · intro c hc henabled
      obtain ⟨r, hid, hname, -, hmem, -⟩ := hcomplete.containers c hc henabled
      obtain ⟨a, ha, heq⟩ := mem_containers.1 hmem
      have haid : a.hostId = r.hostId := congrArg ContainerOverview.hostId heq
      have haname : a.containerName = r.containerName := congrArg ContainerOverview.name heq
      have hkey : a.key = c.key := key_eq_iff.2 ⟨haid.trans hid, haname.trans hname⟩
      rw [← hkey]
      exact (mem_latestContainers.1 ha).2.2
  · intro hreaches
    constructor
    · intro h hh
      exact ⟨latestByHost db h.id, shownWith_iff.2 (hreaches.hosts h hh), mem_hosts.2 ⟨h, hh, rfl⟩⟩
    · intro c hc henabled
      obtain ⟨r, hr⟩ : ∃ r, (orderedSamples db).find? (·.key = c.key) = some r :=
        exists_find?_orderBy _ hc (decide_eq_true rfl)
      obtain ⟨hid, hname, hlatest⟩ := isLatestSample_of_find? hr
      have hkey : r.key = c.key := key_eq_iff.2 ⟨hid, hname⟩
      have hmem : r ∈ latestContainers db := by
        refine mem_latestContainers.2 ⟨hid ▸ henabled, ?_, ?_⟩
        · rw [hkey]
          exact hr
        · rw [hkey]
          exact hreaches.containers c hc henabled
      exact ⟨r, hid, hname, hlatest, mem_containers.2 ⟨r, hmem, rfl⟩, status_of_old⟩

end

/-! ## A silent host -/

namespace Sample

/-- Names in the order of their characters. -/
scoped instance : Collations := ⟨fun a b => decide (a ≤ b), fun a b => decide (a ≤ b)⟩

def silentHost : HostRow := ⟨⟨1⟩, "aws-app-01", "AWS", "aws", "production", true⟩

def busyHost : HostRow := ⟨⟨2⟩, "oci-minecraft-01", "OCI", "oci", "production", true⟩

/-- A heartbeat of a host with one container. -/
def heartbeat (receivedAt : ℤ) (h : HostRow) : HeartbeatRow ℤ :=
  ⟨h.id, "1.0.0", receivedAt, receivedAt, 4, 8, 4, 100, 50, 0, 0, 0, 3600⟩

/-- The sample that comes with it. -/
def running (receivedAt : ℤ) (h : HostRow) (containerName : String) : ContainerSampleRow ℤ :=
  ⟨h.id, containerName, .running, .healthy, 0, false, none, none, none, none, none, none, none,
    none, none, receivedAt⟩

/-- When the silent host was last heard of. -/
def silentSince : ℤ := 1786582800000000

/-- The times of the `n` reports of the busy host since then, one every 15 seconds, backwards. -/
def reportTimes (n : ℕ) : List ℤ :=
  (List.range n).map fun i : ℕ => silentSince + 15000000 * ((n : ℤ) - i)

def lastSample : ContainerSampleRow ℤ := running silentSince silentHost "caddy"

def laterSamples (n : ℕ) : List (ContainerSampleRow ℤ) :=
  (reportTimes n).map (running · busyHost "mc-main")

def database (n : ℕ) : Database ℤ where
  hosts := [silentHost, busyHost]
  heartbeats := (reportTimes n).map (heartbeat · busyHost) ++ [heartbeat silentSince silentHost]
  samples := laterSamples n ++ [lastSample]
  expectations := []
  hostIds := by decide

theorem reportTimes_pairwise (n : ℕ) : (reportTimes n).Pairwise fun s t => t ≤ s := by
  rw [reportTimes, List.pairwise_map]
  refine List.pairwise_lt_range.imp ?_
  intro i j hij
  omega

theorem silentSince_le (n : ℕ) : ∀ t ∈ reportTimes n, silentSince ≤ t := by
  intro t ht
  obtain ⟨i, hi, rfl⟩ := List.mem_map.1 ht
  have := List.mem_range.1 hi
  omega

/-- The samples are stored in the order of the query. -/
theorem orderedSamples_database (n : ℕ) :
    orderedSamples (database n) = laterSamples n ++ [lastSample] := by
  apply List.Pairwise.insertionSort_eq
  refine List.pairwise_append.2 ⟨?_, List.pairwise_singleton _ _, ?_⟩
  · rw [laterSamples, List.pairwise_map]
    exact (reportTimes_pairwise n).imp fun h => decide_eq_true h
  · intro c hc d hd
    obtain ⟨t, ht, rfl⟩ := List.mem_map.1 hc
    rw [List.mem_singleton.1 hd]
    exact decide_eq_true (silentSince_le n t ht)

/-- All samples of the busy host come before the last one of the silent host. -/
theorem le_ahead_lastSample (n : ℕ) :
    n ≤ ahead (·.key) (orderedSamples (database n)) lastSample.key := by
  have hlater : ∀ c ∈ laterSamples n, decide (c.key ≠ lastSample.key) = true := by
    intro c hc
    obtain ⟨t, ht, rfl⟩ := List.mem_map.1 hc
    refine decide_eq_true fun hkey => ?_
    have hid : busyHost.id ≠ silentHost.id := by decide
    exact hid (key_eq_iff.1 hkey).1
  have hlength : (laterSamples n).length = n := by simp [laterSamples, reportTimes]
  rw [ahead, orderedSamples_database, List.takeWhile_append_of_pos hlater, List.length_append,
    hlength]
  exact Nat.le_add_right _ _

end Sample

open Sample in
/-- **A container disappears** when the samples of other hosts push it out: here after eight hours
and twenty minutes of silence. -/
theorem silent_container_disappears :
    lastSample ∈ (database 2000).samples ∧ (database 2000).Enabled lastSample.hostId ∧
      (∀ o ∈ (getMonitoringSnapshot 1786612815000 (database 2000)).containers,
        o.hostId = lastSample.hostId → o.name ≠ lastSample.containerName) ∧
      ¬ Complete 1786612815000 (database 2000)
        (getMonitoringSnapshot 1786612815000 (database 2000)) := by
  have hmem (n : ℕ) : lastSample ∈ (database n).samples :=
    List.mem_append_right _ (List.mem_singleton_self _)
  have henabled (n : ℕ) : (database n).Enabled lastSample.hostId :=
    ⟨silentHost, List.mem_filter.2 ⟨List.mem_cons_self, rfl⟩, rfl⟩
  have hgone (n : ℕ) (hn : containerFetchLimit ≤ n) (now : ℤ) :
      ∀ o ∈ (getMonitoringSnapshot now (database n)).containers,
        o.hostId = lastSample.hostId → o.name ≠ lastSample.containerName := by
    intro o ho hid hname
    obtain ⟨r, hr, rfl⟩ := mem_containers.1 ho
    have hkey : r.key = lastSample.key := key_eq_iff.2 ⟨hid, hname⟩
    have hlt := (mem_latestContainers.1 hr).2.2
    rw [hkey] at hlt
    exact absurd hlt (Nat.not_lt.2 (le_trans hn (le_ahead_lastSample n)))
  refine ⟨hmem _, henabled _, hgone _ (le_refl _) _, fun hcomplete => ?_⟩
  obtain ⟨r, hid, hname, -, hshown, -⟩ := hcomplete.containers lastSample (hmem _) (henabled _)
  exact hgone _ (le_refl _) _ _ hshown hid hname

end IvrmDashboard.Monitoring

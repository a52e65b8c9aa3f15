import RpcPool.Config.Check
import RpcPool.Manager.Scenario
import RpcPool.Proofs.Sections

/-!
# Managers from configurations

A configuration is checked when it is read, and once more, in its own way, when a manager is built
from it: the manager refuses a timeout of zero, a connection without a URI, and a URI it already
knows. What the check lets pass, the manager takes, and nothing of it is lost on the way.

Results:
1. `checkEntries_iff`, `check_iff`: what the check accepts.
2. `registerAll_eq`: entries with distinct URIs are all registered, in order, each as an instance of
   its own.
3. `ofConfig_accepted`: a configuration that passes the check gives a manager with its settings, its
   connections and its poll loop.
-/

namespace RpcPool

namespace Config

/-- An entry can be registered as it stands. -/
structure Entry.Complete (e : Entry) : Prop where
  named : ¬ e.uri.toList.all Text.isBlank = true
  paired : e.username.isSome = e.password.isSome
  timed : e.timeoutMs ≠ some 0

theorem Entry.Complete.uri_ne {e : Entry} (h : e.Complete) : e.uri ≠ "" := by
  intro blank
  exact h.named (by rw [blank]; rfl)

/-- The check of entries demands that each is complete and that no URI comes twice. -/
theorem checkEntries_iff {seen : List String} {entries : List Entry} :
    checkEntries seen entries = .ok () ↔
      (∀ e ∈ entries, e.Complete) ∧ (entries.map (·.uri)).Nodup ∧ ∀ e ∈ entries, e.uri ∉ seen := by
  induction entries generalizing seen with
  | nil => simp [checkEntries]
  | cons e rest ih =>
    have complete : e.Complete ↔ ¬ e.uri.toList.all Text.isBlank = true ∧
        e.username.isSome = e.password.isSome ∧ e.timeoutMs ≠ some 0 :=
      ⟨fun h => ⟨h.named, h.paired, h.timed⟩, fun h => ⟨h.1, h.2.1, h.2.2⟩⟩
    by_cases blank : e.uri.toList.all Text.isBlank = true
    · simp [checkEntries, blank, complete]
    by_cases known : e.uri ∈ seen
    · simp [checkEntries, blank, known]
    by_cases paired : e.username.isSome = e.password.isSome
    swap
    · simp [checkEntries, blank, known, paired, complete]
    by_cases timed : e.timeoutMs = some 0
    · simp [checkEntries, blank, known, paired, timed, complete]
    have hcheck : checkEntries seen (e :: rest) = checkEntries (e.uri :: seen) rest := by
      simp [checkEntries, blank, known, paired, timed]
    rw [hcheck, ih, List.forall_mem_cons, List.forall_mem_cons, List.map_cons, List.nodup_cons]
    constructor
    · rintro ⟨hrest, distinct, unseen⟩
      simp only [List.mem_cons, not_or] at unseen
      have new : e.uri ∉ rest.map (·.uri) := fun hmem => by
        obtain ⟨d, hd, uris⟩ := List.mem_map.mp hmem
        exact (unseen d hd).1 uris
      exact ⟨⟨⟨blank, paired, timed⟩, hrest⟩, ⟨new, distinct⟩, known, fun d hd => (unseen d hd).2⟩
    · rintro ⟨⟨-, hrest⟩, ⟨new, distinct⟩, -, unseen⟩
      refine ⟨hrest, distinct, fun d hd => ?_⟩
      have hne : d.uri ≠ e.uri := fun uris => new (List.mem_map.mpr ⟨d, hd, uris⟩)
      simpa [hne] using unseen d hd

/-- What the check of a configuration demands. -/
theorem check_iff {c : Config} :
    c.check = .ok () ↔ c.timeoutMs ≠ 0 ∧ c.polling.periodMs ≠ 0 ∧
      (∀ e ∈ c.connections, e.Complete) ∧ (c.connections.map (·.uri)).Nodup := by
  unfold check
  by_cases timeout : c.timeoutMs = 0
  · simp [timeout]
  by_cases period : c.polling.periodMs = 0
  · simp [timeout, period]
  rw [if_neg timeout, if_neg period, checkEntries_iff]
  simp [timeout, period]

/-- A connection has everything that its entry has. -/
structure Entry.Registers (e : Entry) (c : Connection) : Prop where
  uri : c.uri = e.uri
  username : c.endpoint.credentials.map (·.username) = e.username
  password : c.endpoint.credentials.map (·.password) = e.password
  priority : c.priority = e.priority
  timeoutMs : c.endpoint.timeoutMs = e.timeoutMs
  attributes : c.endpoint.attributes = e.attributes

/-- Credentials are only lost if one part of them is missing. -/
theorem Entry.Complete.registers {e : Entry} (h : e.Complete) (id : InstanceId) :
    e.Registers ⟨id, e.endpoint⟩ := by
  have paired := h.paired
  refine ⟨rfl, ?_, ?_, rfl, rfl, rfl⟩ <;>
  · cases user : e.username <;> cases pass : e.password <;>
      simp_all [Entry.endpoint]

/-- The connections that are made of entries, numbered one after the other. -/
def enrolled (first : InstanceId) : List Entry → List Connection
  | [] => []
  | e :: rest => ⟨first, e.endpoint⟩ :: enrolled (first + 1) rest

theorem enrolled_id (first : InstanceId) (entries : List Entry) :
    (enrolled first entries).map (·.id) = List.range' first entries.length := by
  induction entries generalizing first with
  | nil => rfl
  | cons e rest ih => rw [enrolled, List.map_cons, ih, List.length_cons, List.range'_succ]

theorem enrolled_registers {entries : List Entry} (complete : ∀ e ∈ entries, e.Complete)
    (first : InstanceId) : List.Forall₂ Entry.Registers entries (enrolled first entries) := by
  induction entries generalizing first with
  | nil => exact .nil
  | cons e rest ih =>
    obtain ⟨he, hrest⟩ := List.forall_mem_cons.mp complete
    exact .cons (he.registers first) (ih hrest (first + 1))

end Config

namespace Manager

open Config

variable {s : Manager} {config : Config} {network : Network} {hasRuntime : Bool}

/-- Entries whose URIs are distinct and unknown are registered in order, behind the connections that
are registered already. -/
theorem registerAll_eq {entries : List Config.Entry} (complete : ∀ e ∈ entries, e.Complete)
    (distinct : (entries.map (·.uri)).Nodup)
    (unknown : ∀ e ∈ entries, e.uri ∉ s.pool.registry.connections.map (·.uri)) :
    s.registerAll entries = .ok
      { s with
        made := s.made ++ entries.map (·.endpoint)
        pool.registry.connections :=
          s.pool.registry.connections ++ enrolled s.made.length entries } := by
  induction entries generalizing s with
  | nil => simp [registerAll, enrolled]
  | cons e rest ih =>
    obtain ⟨he, hrest⟩ := List.forall_mem_cons.mp complete
    obtain ⟨hnew, hlater⟩ := List.nodup_cons.mp distinct
    obtain ⟨hunknown, hothers⟩ := List.forall_mem_cons.mp unknown
    have hadd : s.pool.registry.add ⟨s.made.length, e.endpoint⟩ = .ok
        { s.pool.registry with
          connections := s.pool.registry.connections ++ [⟨s.made.length, e.endpoint⟩] } := by
      have hhas : ¬ s.pool.registry.has e.endpoint.uri = true := mt Registry.has_iff.mp hunknown
      have hne : e.endpoint.uri ≠ "" := he.uri_ne
      rw [Registry.add, if_neg hne, if_neg hhas]
    have hstep : s.registerAll (e :: rest) =
        ((s.instantiate e.endpoint).1.setRegistry { s.pool.registry with
          connections := s.pool.registry.connections ++
            [⟨s.made.length, e.endpoint⟩] }).registerAll rest := by
      rw [registerAll]
      simp only [instantiate, hadd]
    rw [hstep, ih hrest hlater]
    · simp [instantiate, setRegistry, enrolled]
    · intro d hd
      have hne : d.uri ≠ e.uri := fun uris => hnew (List.mem_map.mpr ⟨d, hd, uris⟩)
      simpa [instantiate, setRegistry, Config.Entry.endpoint, hne] using hothers d hd

/-- A registry with the settings and the connections of a configuration, none of them current. -/
structure Stocked (config : Config) (r : Registry) : Prop where
  timeoutMs : r.timeoutMs = config.timeoutMs
  autoSwitch : r.autoSwitch = config.autoSwitch
  current : r.current = none
  registered : List.Forall₂ Config.Entry.Registers config.connections r.connections
  distinct : (r.connections.map (·.id)).Nodup

/-- A manager as a configuration describes it. Its loop leaves out the registered connections whose
URIs the configuration excludes. -/
structure Configured (config : Config) (s : Manager) : Prop extends
    Stocked config s.pool.registry where
  polling : s.isPolling = config.polling.enabled
  loop : config.polling.enabled = true → ∃ id l, s.poller = some id ∧ s.loops = [(id, l)] ∧
    l.stopped = false ∧ l.options.periodMs = config.polling.periodMs ∧
    l.options.pollType = config.polling.pollType ∧
    l.options.excluded = s.pool.registry.connections.filter fun c => c.uri ∈ config.polling.excluded
  unlooped : config.polling.enabled = false → s.loops = []

/-- With a scheduler, the first poll loop starts. -/
theorem startPolling_first (scheduled : s.hasRuntime = true) (first : s.poller = none)
    (none_yet : s.loops = []) (o : PollOptions) :
    ∃ t, s.startPolling o = .ok t ∧ t.pool = s.pool ∧ t.poller = some s.nextId ∧
      t.loops = [(s.nextId, ⟨o, false, 0, s.now, s.now⟩)] := by
  unfold startPolling
  rw [if_pos scheduled, first, none_yet]
  refine ⟨_, rfl, ?_⟩
  obtain ⟨ready, hwake⟩ := wake_eq
    { s.record (.pollingStarted o.periodMs o.pollType) with
      nextId := s.nextId + 1
      started := s.started + 1
      loops := upsert s.nextId ⟨o, false, 0, s.now, s.now⟩ []
      poller := some s.nextId } (.loop s.nextId)
  rw [hwake]
  exact ⟨rfl, rfl, rfl⟩

/-- A configuration that passes the check gives a manager as it describes it, with a scheduler for
its poll loop if it has one. -/
theorem ofConfig_accepted (accepted : config.check = .ok ())
    (scheduled : config.polling.enabled = true → hasRuntime = true) :
    ∃ s, ofConfig config network hasRuntime = .ok s ∧ s.Configured config := by
  obtain ⟨timeout_ne, -, complete, distinct⟩ := check_iff.mp accepted
  let made := idle network hasRuntime
  let set := made.setRegistry
    { made.pool.registry with timeoutMs := config.timeoutMs, autoSwitch := config.autoSwitch }
  obtain ⟨loaded, hloaded, hall⟩ : ∃ t, t =
      { set with
        made := config.connections.map (·.endpoint)
        pool.registry.connections := enrolled 0 config.connections } ∧
      set.registerAll config.connections = .ok t :=
    ⟨_, rfl, registerAll_eq complete distinct fun _ _ => List.not_mem_nil⟩
  have hconfig : ofConfig config network hasRuntime =
      if config.polling.enabled then
        loaded.startPolling (config.polling.options loaded.pool.registry.connections)
      else .ok loaded := by
    dsimp only [set, made] at hall
    rw [ofConfig, if_neg timeout_ne]
    dsimp only
    rw [hall]
  have stocked : Stocked config loaded.pool.registry := by
    rw [hloaded]
    refine ⟨rfl, rfl, rfl, enrolled_registers complete 0, ?_⟩
    show ((enrolled 0 config.connections).map (·.id)).Nodup
    rw [enrolled_id]
    exact List.nodup_range'
  have none_yet : loaded.loops = [] := by rw [hloaded]; rfl
  have first : loaded.poller = none := by rw [hloaded]; rfl
  rw [hconfig]
  cases enabled : config.polling.enabled with
  | false =>
    exact ⟨loaded, rfl, stocked, by rw [isPolling, first, enabled]; rfl,
      fun on => absurd (enabled.symm.trans on) (by decide), fun _ => none_yet⟩
  | true =>
    have runtime : loaded.hasRuntime = true := by rw [hloaded]; exact scheduled enabled
    obtain ⟨t, hstart, hpool, hpoller, hloops⟩ := loaded.startPolling_first runtime first none_yet
      (config.polling.options loaded.pool.registry.connections)
    refine ⟨t, hstart, hpool ▸ stocked, by rw [isPolling, hpoller, enabled]; rfl, fun _ => ?_,
      fun off => absurd (enabled.symm.trans off) (by decide)⟩
    refine ⟨_, _, hpoller, hloops, rfl, rfl, rfl, ?_⟩
    rw [hpool]
    exact List.filter_congr fun c _ => by rw [List.contains_eq_mem]

/-- Two endpoints, the second with a timeout of its own and left out by the loop, which also leaves
out one that does not exist. -/
def paired : Config where
  timeoutMs := 700
  autoSwitch := false
  polling := { enabled := true, periodMs := 50, pollType := .all, excluded := ["b", "c"] }
  connections :=
    [{ uri := "a", username := some "user", password := some "secret", priority := 1 },
      { uri := "b", timeoutMs := some 90 }]

theorem paired_accepted :
    paired.check = .ok () ∧ (paired.polling.enabled = true → true = true) ∧
      ∃ s, ofConfig paired ⟨[]⟩ true = .ok s ∧ s.Configured paired :=
  have accepted : paired.check = .ok () := by decide
  ⟨accepted, fun _ => rfl, ofConfig_accepted accepted fun _ => rfl⟩

end Manager

end RpcPool

import RpcPool.Proofs.Pool

/-!
# What the outcomes of probes leave

The health of a connection is the fold of all outcomes that its probes have had. Of these only the
last three can still be seen: their latencies are the window, and the last of them has set everything
else. So the parts of a health cannot come apart, however long a connection is probed.

Results:
1. `foldl_observe`: the health after some outcomes is read off the last three.
2. `Observed.coherent`: in every such health the window, the last response time, both observations
   and being connected agree with each other.
3. `healthOf_observeAll`: the outcomes of other connections make no difference.
4. `healthOf_recent`: all this of a connection in a pool, and when one more outcome is news.
-/

namespace RpcPool

namespace Health

/-- What an outcome shows: whether the endpoint is online, and whether it took the credentials. -/
def verdict : Probe.Outcome → Observation × Observation
  | .ok r => (.yes, if r.authenticated then .yes else .no)
  | .error _ => (.no, .unknown)

/-- The time of an answer in milliseconds. -/
def answerTime : Probe.Outcome → Option UInt64
  | .ok r => some r.elapsed.toMillis
  | .error _ => none

/-- The health that shows some outcomes, given newest first, in its window, and the newest of them
in everything else. -/
def ofRecent : List Probe.Outcome → Health
  | [] => .unprobed
  | newest :: older =>
    ⟨(verdict newest).1, (verdict newest).2, answerTime newest, ⟨(newest :: older).map sample⟩⟩

/-- The parts of a health agree with each other. -/
structure Coherent (h : Health) : Prop where
  /-- Connected means that the newest sample is a latency. -/
  connected_iff : h.connected = true ↔ ∃ ms, h.window.samples.head? = some (some ms)
  /-- A newest sample that is a latency is the last response time. -/
  latency : ∀ ms, h.window.samples.head? = some (some ms) → h.lastResponse = some ms
  timed_iff : h.lastResponse.isSome = true ↔ h.online = .yes
  known_iff : h.authenticated ≠ .unknown ↔ h.online = .yes

/-! ## One outcome -/

theorem observe_eq (h : Health) (outcome : Probe.Outcome) :
    h.observe outcome = ⟨(verdict outcome).1, (verdict outcome).2, answerTime outcome,
      h.window.record (sample outcome)⟩ := by
  cases outcome with
  | error f => rfl
  | ok r => cases ha : r.authenticated <;> simp [Health.observe, verdict, answerTime, sample, ha]

theorem status_observe (h : Health) (outcome : Probe.Outcome) :
    (h.observe outcome).status = verdict outcome := by
  rw [observe_eq]
  rfl

theorem head_record (w : Window) (s : Option UInt64) : (w.record s).samples.head? = some s := rfl

theorem Coherent.unprobed : Coherent .unprobed := by
  constructor
  · simp [Health.unprobed, Health.connected, Window.empty]
  · simp [Health.unprobed, Window.empty]
  · simp [Health.unprobed]
  · simp [Health.unprobed]

/-- One outcome brings the parts of any health into agreement. -/
theorem Coherent.observe (h : Health) (outcome : Probe.Outcome) : (h.observe outcome).Coherent := by
  rw [observe_eq]
  cases outcome with
  | error f => constructor <;> simp [Health.connected, verdict, answerTime, sample, head_record]
  | ok r =>
    cases ha : r.authenticated with
    | false => constructor <;> simp [Health.connected, verdict, answerTime, sample, head_record, ha]
    | true => constructor <;> simp [Health.connected, verdict, answerTime, sample, head_record, ha]

/-! ## Any number of outcomes -/

theorem Observed.coherent {h : Health} (ho : h.Observed) : h.Coherent := by
  rcases ho.last with rfl | ⟨before, outcome, rfl⟩
  · exact Coherent.unprobed
  · exact Coherent.observe before outcome

/-- The health after some outcomes is read off the last three. -/
theorem foldl_observe (outcomes : List Probe.Outcome) :
    outcomes.foldl Health.observe .unprobed = ofRecent (outcomes.reverse.take Window.capacity) := by
  rcases List.eq_nil_or_concat outcomes with rfl | ⟨init, outcome, rfl⟩
  · rfl
  · have window : (init.foldl Health.observe .unprobed).window.record (sample outcome) =
        ⟨(outcome :: init.reverse.take 2).map sample⟩ := by
      rw [Window.record, samples_foldl]
      simp [Window.capacity, List.take_take, List.map_take, List.map_reverse]
    rw [List.concat_eq_append, List.foldl_append, List.reverse_append]
    show Health.observe _ outcome = ofRecent (outcome :: init.reverse.take 2)
    rw [observe_eq, window]
    rfl

/-- What a health shows of the last outcome. -/
theorem status_ofRecent (recent : List Probe.Outcome) :
    (ofRecent recent).status = (recent.head?.map verdict).getD (.unknown, .unknown) := by
  cases recent with
  | nil => rfl
  | cons newest older => rfl

theorem samples_ofRecent (recent : List Probe.Outcome) :
    (ofRecent recent).window.samples = recent.map sample := by
  cases recent with
  | nil => rfl
  | cons newest older => rfl

theorem verdict_ne (outcome : Probe.Outcome) : verdict outcome ≠ (.unknown, .unknown) := by
  cases outcome with
  | error f => simp [verdict]
  | ok r => simp [verdict]

end Health

namespace Pool

variable {p : Pool} {c : Connection}

/-- Takes note of outcomes of probes, of whichever connections, one after the other. -/
def observeAll (p : Pool) (reports : List (Connection × Probe.Outcome)) : Pool :=
  reports.foldl (fun p report => p.observe report.1 report.2) p

/-- The outcomes of one connection among others. -/
def outcomesOf (c : Connection) (reports : List (Connection × Probe.Outcome)) :
    List Probe.Outcome :=
  (reports.filter fun report => report.1.same c).map (·.2)

/-- Connections are probed without regard to each other. -/
theorem healthOf_observeAll (p : Pool) (c : Connection)
    (reports : List (Connection × Probe.Outcome)) :
    (p.observeAll reports).healthOf c =
      (outcomesOf c reports).foldl Health.observe (p.healthOf c) := by
  induction reports generalizing p with
  | nil => rfl
  | cons report rest ih =>
    show ((p.observe report.1 report.2).observeAll rest).healthOf c = _
    rw [ih]
    by_cases own : c.id = report.1.id
    · have same : report.1.same c = true := by simp [Connection.same, own]
      rw [healthOf_observe_self p report.2 own, outcomesOf, outcomesOf,
        List.filter_cons_of_pos (by simpa using same)]
      rfl
    · have other : ¬ report.1.same c = true := by simpa [Connection.same] using Ne.symm own
      rw [healthOf_observe_ne p report.2 own, outcomesOf, outcomesOf,
        List.filter_cons_of_neg (by simpa using other)]

/-- An outcome is news for the listeners of a connection exactly if it shows something else than the
one before it, or is the first. -/
theorem wouldChange_iff (p : Pool) (c : Connection) (outcome : Probe.Outcome) :
    p.wouldChange c outcome = true ↔ (p.healthOf c).status ≠ Health.verdict outcome := by
  rw [wouldChange, bne_iff_ne, Health.status_observe]

/-- An outcome is news exactly if the observed state is another one after it. -/
theorem wouldChange_iff_changes (p : Pool) (c : Connection) (outcome : Probe.Outcome) :
    p.wouldChange c outcome = true ↔
      ((p.observe c outcome).healthOf c).status ≠ (p.healthOf c).status := by
  rw [wouldChange_iff, healthOf_observe_self p outcome rfl, Health.status_observe]
  exact ne_comm

theorem observeAll_concat (p : Pool) (reports : List (Connection × Probe.Outcome)) (c : Connection)
    (outcome : Probe.Outcome) :
    p.observeAll (reports ++ [(c, outcome)]) = (p.observeAll reports).observe c outcome := by
  rw [observeAll, List.foldl_append]
  rfl

/-- The health of a connection that was new before any number of probes, of it and of others. It is
read off its last three outcomes: their latencies are the window, newest first, and what the last one
shows is the observed state. Its parts agree with each other. One more outcome is reported as a
change exactly if the observed state is another one afterwards, that is if it shows something else
than the last outcome, or is the first one. -/
theorem healthOf_recent (new : p.healthOf c = .unprobed)
    (reports : List (Connection × Probe.Outcome)) :
    let h := (p.observeAll reports).healthOf c
    let outcomes := outcomesOf c reports
    h = Health.ofRecent (outcomes.reverse.take 3) ∧
    h.window.samples = (outcomes.reverse.take 3).map Health.sample ∧
    h.status = (outcomes.getLast?.map Health.verdict).getD (.unknown, .unknown) ∧
    (h.connected = true ↔ ∃ ms, h.window.samples.head? = some (some ms)) ∧
    (∀ ms, h.window.samples.head? = some (some ms) → h.lastResponse = some ms) ∧
    (h.lastResponse.isSome = true ↔ h.online = .yes) ∧
    (h.authenticated ≠ .unknown ↔ h.online = .yes) ∧
    ∀ outcome,
      ((p.observeAll reports).wouldChange c outcome = true ↔
        ((p.observeAll (reports ++ [(c, outcome)])).healthOf c).status ≠ h.status) ∧
      ((p.observeAll reports).wouldChange c outcome = true ↔
        outcomes.getLast?.map Health.verdict ≠ some (Health.verdict outcome)) := by
  intro h outcomes
  have folded : h = outcomes.foldl Health.observe .unprobed := by
    rw [← new]
    exact healthOf_observeAll p c reports
  have recent : h = Health.ofRecent (outcomes.reverse.take 3) :=
    folded.trans (Health.foldl_observe outcomes)
  have coherent : h.Coherent := Health.Observed.coherent ⟨outcomes, folded⟩
  have samples : h.window.samples = (outcomes.reverse.take 3).map Health.sample := by
    rw [recent, Health.samples_ofRecent]
  have status : h.status = (outcomes.getLast?.map Health.verdict).getD (.unknown, .unknown) := by
    rw [recent, Health.status_ofRecent, List.head?_take, List.head?_reverse]
    rfl
  refine ⟨recent, samples, status, coherent.connected_iff, coherent.latency, coherent.timed_iff,
    coherent.known_iff, fun outcome => ⟨?_, ?_⟩⟩
  · rw [observeAll_concat]
    exact wouldChange_iff_changes _ c outcome
  · rw [wouldChange_iff]
    show h.status ≠ _ ↔ _
    rw [status]
    cases last : outcomes.getLast?.map Health.verdict with
    | none =>
      have first := (Health.verdict_ne outcome).symm
      simpa using first
    | some shown => simp

/-- Four outcomes of one connection, of which the first can no longer be seen, and two of another
one in between. -/
def wavering : List (Connection × Probe.Outcome) :=
  let a : Connection := ⟨0, { uri := "A" }⟩
  let b : Connection := ⟨1, { uri := "B" }⟩
  [(a, .ok ⟨true, .ofMillis 30⟩), (b, .error (.timeout 5000)), (a, .ok ⟨false, .ofMillis 7⟩),
    (a, .error (.request "Connection refused")), (b, .ok ⟨true, .ofMillis 2⟩),
    (a, .ok ⟨true, .ofMillis 9⟩)]

/-- It is connected again. That the credentials are taken once more is no news, that they are not
is. -/
theorem wavering_recent :
    Pool.empty.healthOf ⟨0, { uri := "A" }⟩ = .unprobed ∧
      (Pool.empty.observeAll wavering).healthOf ⟨0, { uri := "A" }⟩ =
        ⟨.yes, .yes, some 9, ⟨[some 9, none, none]⟩⟩ ∧
      ((Pool.empty.observeAll wavering).healthOf ⟨0, { uri := "A" }⟩).connected = true ∧
      (Pool.empty.observeAll wavering).wouldChange ⟨0, { uri := "A" }⟩
        (.ok ⟨true, .ofMillis 40⟩) = false ∧
      (Pool.empty.observeAll wavering).wouldChange ⟨0, { uri := "A" }⟩
        (.ok ⟨false, .ofMillis 40⟩) = true := by
  have new : Pool.empty.healthOf ⟨0, { uri := "A" }⟩ = .unprobed := rfl
  obtain ⟨recent, samples, _, connected, _, _, _, news⟩ := healthOf_recent new wavering
  refine ⟨new, recent.trans (by decide +kernel), connected.mpr ⟨9, ?_⟩, ?_, ?_⟩
  · rw [samples]
    decide +kernel
  · exact Bool.eq_false_iff.mpr fun change => (news _).2.mp change (by decide +kernel)
  · exact (news _).2.mpr (by decide +kernel)

end Pool

end RpcPool

import RpcPool.Proofs.Health
import RpcPool.Proofs.Selection

/-!
# The foremost connection

Which connection an improvement looks at, and when it is taken, said without groups, loops and window
arithmetic.

Results:
1. `fastest_of_foldl`: the loop over one group ends with its earliest fastest member.
2. `fastestConnected_observed`: what that loop returns of any list, and when it returns nothing.
3. `foremost_iff`: the candidate of a list is the one foremost member it has.
4. `outruns_iff`: one window is consistently better than another if both hold three latencies and
   each one of the first is the smaller.
5. `replacement_foremost`: the whole rule by which a connection replaces the current one.
-/

namespace RpcPool

/-- Both windows hold three latencies, and in each slot the first one holds the smaller. -/
def Window.Outruns (mine theirs : Window) : Prop :=
  ∃ a b c x y z : UInt64, mine.samples = [some a, some b, some c] ∧
    theirs.samples = [some x, some y, some z] ∧ a < x ∧ b < y ∧ c < z

namespace Selection

/-- Of the connected members of a list `d` has taken the least time for its last answer, and it is the
first of those that took as little. -/
def Fastest (health : InstanceId → Health) (cs : List Connection) (d : Connection) : Prop :=
  (health d.id).connected = true ∧
  ∃ before after ms, cs = before ++ d :: after ∧ (health d.id).lastResponse = some ms ∧
    (∀ c ∈ before, (health c.id).connected = true →
      ∃ theirs, (health c.id).lastResponse = some theirs ∧ ms < theirs) ∧
    (∀ c ∈ after, (health c.id).connected = true →
      ∃ theirs, (health c.id).lastResponse = some theirs ∧ ms ≤ theirs)

/-- No connected member of a list has higher precedence than `d`, and `d` is the fastest one of its
own priority. -/
structure Foremost (health : InstanceId → Health) (cs : List Connection) (d : Connection) : Prop where
  highest : ∀ c ∈ cs, (health c.id).connected = true → c.priority ≤ d.priority
  fastest : Fastest health (cs.filter fun c => c.priority == d.priority) d

/-- A connected connection `c` gives way to another one of strictly higher precedence, and to another
one of equal priority that was faster over three samples. -/
def GivesWay (health : InstanceId → Health) (c d : Connection) : Prop :=
  c.priority < d.priority ∨
    (d.id ≠ c.id ∧ d.priority = c.priority ∧
      (health d.id).window.Outruns (health c.id).window)

variable {health : InstanceId → Health} {cs : List Connection} {c d k : Connection}

/-! ## One group -/

theorem latency_of_connected (up : (health c.id).connected = true) :
    latency health c = (health c.id).lastResponse :=
  if_pos up

theorem Timed.time (timed : Timed health cs) (hc : c ∈ cs) (up : (health c.id).connected = true) :
    ∃ ms, (health c.id).lastResponse = some ms ∧ latency health c = some ms := by
  obtain ⟨ms, hms⟩ := Option.isSome_iff_exists.mp (timed c hc up)
  exact ⟨ms, hms, (latency_of_connected up).trans hms⟩

theorem Fastest.mem (h : Fastest health cs d) : d ∈ cs := by
  obtain ⟨_, before, after, _, rfl, _⟩ := h
  exact List.mem_append_right _ List.mem_cons_self

/-- No connected member has taken less time than the fastest. -/
theorem Fastest.le (h : Fastest health cs d) {ms : UInt64}
    (hd : (health d.id).lastResponse = some ms) (hc : c ∈ cs)
    (up : (health c.id).connected = true) :
    ∃ theirs, (health c.id).lastResponse = some theirs ∧ ms ≤ theirs := by
  obtain ⟨_, before, after, least, rfl, hleast, hbefore, hafter⟩ := h
  obtain rfl : least = ms := Option.some.inj (hleast.symm.trans hd)
  rcases List.mem_append.mp hc with hc | hc
  · obtain ⟨theirs, ht, hlt⟩ := hbefore c hc up
    exact ⟨theirs, ht, UInt64.le_of_lt hlt⟩
  · rcases List.mem_cons.mp hc with rfl | hc
    · exact ⟨least, hleast, UInt64.le_refl _⟩
    · exact hafter c hc up

/-- The fastest stays the fastest if the next member is not connected or takes at least as long. -/
theorem Fastest.keeps (h : Fastest health cs d) {ms : UInt64}
    (hd : (health d.id).lastResponse = some ms)
    (hc : (health c.id).connected = true →
      ∃ theirs, (health c.id).lastResponse = some theirs ∧ ms ≤ theirs) :
    Fastest health (cs ++ [c]) d := by
  obtain ⟨up, before, after, least, rfl, hleast, hbefore, hafter⟩ := h
  obtain rfl : least = ms := Option.some.inj (hleast.symm.trans hd)
  refine ⟨up, before, after ++ [c], least, by simp, hleast, hbefore, ?_⟩
  intro k hk hup
  rcases List.mem_append.mp hk with hk | hk
  · exact hafter k hk hup
  · obtain rfl := List.mem_singleton.mp hk
    exact hc hup

/-- The next member is the fastest if it took less time than every connected one before it. -/
theorem fastest_last {ms : UInt64} (up : (health c.id).connected = true)
    (hc : (health c.id).lastResponse = some ms)
    (hbefore : ∀ k ∈ cs, (health k.id).connected = true →
      ∃ theirs, (health k.id).lastResponse = some theirs ∧ ms < theirs) :
    Fastest health (cs ++ [c]) c :=
  ⟨up, cs, [], ms, rfl, hc, hbefore, fun _ hk => absurd hk List.not_mem_nil⟩

/-- The running best with its time is at every moment the fastest of what the loop has seen. -/
theorem fastest_of_foldl (timed : Timed health cs) {ms : UInt64}
    (h : cs.foldl (faster health) none = some (d, ms)) :
    (health d.id).lastResponse = some ms ∧ Fastest health cs d := by
  -- on the list from its end: the loop has seen all but the last element
  induction cs using List.reverseRecOn generalizing d ms with
  | nil => cases h
  | append_singleton seen c ih =>
    have hseen : Timed health seen := fun k hk => timed k (List.mem_append_left _ hk)
    have hstep : faster health (seen.foldl (faster health) none) c = some (d, ms) := by
      rw [List.foldl_append] at h
      exact h
    generalize hbest : seen.foldl (faster health) none = best at hstep
    unfold faster at hstep
    split at hstep
    · next hc =>
      -- the next member does not compete
      obtain ⟨hd, hfast⟩ := ih hseen (hbest.trans hstep)
      refine ⟨hd, hfast.keeps hd fun up => ?_⟩
      obtain ⟨t, _, ht⟩ := timed.time (List.mem_append_right _ List.mem_cons_self) up
      exact absurd (hc.symm.trans ht) (by simp)
    · next hc =>
      -- it is the first that competes
      cases hstep
      have up := latency_eq_some hc
      refine ⟨(latency_of_connected up).symm.trans hc, fastest_last up
        ((latency_of_connected up).symm.trans hc) fun k hk hup => ?_⟩
      obtain ⟨t, _, ht⟩ := hseen.time hk hup
      have hsome : (seen.foldl (faster health) none).isSome = true :=
        foldl_faster_isSome (Or.inr ⟨k, hk, by rw [ht]; rfl⟩)
      exact absurd (hbest ▸ hsome) (by simp)
    · next t b least hc =>
      obtain ⟨hb, hfast⟩ := ih hseen hbest
      have up := latency_eq_some hc
      have htime : (health c.id).lastResponse = some t := (latency_of_connected up).symm.trans hc
      split at hstep
      · next hle =>
        cases hstep
        exact ⟨hb, hfast.keeps hb fun _ => ⟨t, htime, hle⟩⟩
      · next hlt =>
        cases hstep
        refine ⟨htime, fastest_last up htime fun k hk hup => ?_⟩
        obtain ⟨theirs, ht, hle⟩ := hfast.le hb hk hup
        exact ⟨theirs, ht, UInt64.lt_of_lt_of_le (UInt64.not_le.mp hlt) hle⟩

theorem fastestConnected_fastest (timed : Timed health cs)
    (h : fastestConnected health cs = some d) : Fastest health cs d := by
  obtain ⟨⟨b, ms⟩, hb, rfl⟩ := Option.map_eq_some_iff.mp h
  exact (fastest_of_foldl timed hb).2

/-- A list has one fastest member at most. -/
theorem Fastest.unique (hd : Fastest health cs d) (hk : Fastest health cs k) : d = k := by
  obtain ⟨dup, before, after, ms, hcs, hms, hbefore, hafter⟩ := hd
  obtain ⟨kup, before', after', ms', hcs', hms', hbefore', hafter'⟩ := hk
  -- the one that stands first takes at most the time of the other one, which takes less
  rcases List.append_eq_append_iff.mp (hcs.symm.trans hcs') with ⟨gap, hgap, hrest⟩ | ⟨gap, hgap, hrest⟩
  · cases gap with
    | nil => exact (List.cons.inj hrest).1
    | cons x gap =>
      obtain ⟨rfl, rfl⟩ := List.cons.inj hrest
      obtain ⟨t, ht, hlt⟩ := hbefore' d (by rw [hgap]; simp) dup
      obtain ⟨t', ht', hle⟩ := hafter k (by simp) kup
      cases hms.symm.trans ht
      cases hms'.symm.trans ht'
      exact absurd hlt (UInt64.not_lt.mpr hle)
  · cases gap with
    | nil => exact (List.cons.inj hrest).1.symm
    | cons x gap =>
      obtain ⟨rfl, rfl⟩ := List.cons.inj hrest
      obtain ⟨t, ht, hlt⟩ := hbefore k (by rw [hgap]; simp) kup
      obtain ⟨t', ht', hle⟩ := hafter' d (by simp) dup
      cases hms'.symm.trans ht
      cases hms.symm.trans ht'
      exact absurd hlt (UInt64.not_lt.mpr hle)

/-- A list has none exactly if no member is connected. -/
theorem fastestConnected_eq_none (timed : Timed health cs) :
    fastestConnected health cs = none ↔ ∀ c ∈ cs, (health c.id).connected = false := by
  constructor
  · intro h c hc
    by_contra hup
    have hsome := fastestConnected_isSome timed hc (by simpa using hup)
    exact absurd (h ▸ hsome) (by simp)
  · intro hdown
    cases hd : fastestConnected health cs with
    | none => rfl
    | some d =>
      obtain ⟨hd, up⟩ := fastestConnected_eq_some hd
      exact absurd ((hdown d hd).symm.trans up) (by simp)

/-- The fastest connected connection of a list is the fastest member it has. -/
theorem fastest_iff (timed : Timed health cs) :
    Fastest health cs d ↔ fastestConnected health cs = some d := by
  constructor
  · intro h
    cases hk : fastestConnected health cs with
    | none =>
      have hdown := (fastestConnected_eq_none timed).mp hk d h.mem
      exact absurd (h.1.symm.trans hdown) (by simp)
    | some k => rw [h.unique (fastestConnected_fastest timed hk)]
  · intro h
    exact fastestConnected_fastest timed h

/-- After any probes, what the fastest of a list is: of the connected members the first one with the
least last response time. There is none exactly if no member is connected, and then there is no first
connected one either. -/
theorem fastestConnected_observed (observed : ∀ c ∈ cs, (health c.id).Observed) :
    (∀ d, fastestConnected health cs = some d ↔ Fastest health cs d) ∧
    (fastestConnected health cs = none ↔ ∀ c ∈ cs, (health c.id).connected = false) ∧
    (fastestConnected health cs = none ↔ firstConnected health cs = none) := by
  have timed : Timed health cs := fun c hc up => (observed c hc).lastResponse_of_connected up
  have hnone := fastestConnected_eq_none timed
  exact ⟨fun d => (fastest_iff timed).symm, hnone, hnone.trans firstConnected_eq_none.symm⟩

/-- A slow connection, two quick ones of its priority, and a quicker one of lower precedence. -/
def contenders : List Connection :=
  [⟨0, { uri := "A", priority := 2 }⟩, ⟨1, { uri := "B", priority := 2 }⟩,
    ⟨2, { uri := "C", priority := 2 }⟩, ⟨3, { uri := "D", priority := 1 }⟩]

/-- Each contender after three probes of one length. -/
def contending (id : InstanceId) : Health :=
  let ms := match id with
    | 0 => 20
    | 3 => 1
    | _ => 5
  (List.replicate 3 (.ok ⟨true, .ofMillis ms⟩)).foldl Health.observe .unprobed

/-- Two of the contenders of one priority tie, and the one that stands first is the fastest. -/
theorem first_quick_contender_fastest :
    Fastest contending (contenders.take 3) contenders[1] ∧
      firstConnected contending (contenders.take 3) ≠ none := by
  have observed : ∀ c ∈ contenders.take 3, (contending c.id).Observed := fun c _ => ⟨_, rfl⟩
  obtain ⟨hfastest, _, hnone⟩ := fastestConnected_observed observed
  have hd : fastestConnected contending (contenders.take 3) = some contenders[1] := by
    decide +kernel
  refine ⟨(hfastest _).mp hd, fun hfirst => ?_⟩
  exact absurd ((hnone.mpr hfirst).symm.trans hd) (by simp)

/-! ## The candidate -/

theorem Foremost.connected (h : Foremost health cs d) : (health d.id).connected = true := h.fastest.1

theorem Foremost.mem (h : Foremost health cs d) : d ∈ cs := (List.mem_filter.mp h.fastest.mem).1

/-- A list has one foremost member at most. -/
theorem Foremost.unique (hd : Foremost health cs d) (hk : Foremost health cs k) : d = k := by
  have hpriority : d.priority = k.priority :=
    UInt32.le_antisymm (hk.highest d hd.mem hd.connected) (hd.highest k hk.mem hk.connected)
  have hfast := hd.fastest
  rw [hpriority] at hfast
  exact hfast.unique hk.fastest

theorem candidate_foremost (timed : Timed health cs) (h : candidate health cs = some d) :
    Foremost health cs d := by
  refine ⟨fun c hc up => candidate_max timed h hc up, ?_⟩
  unfold candidate groups at h
  rw [List.findSome?_map] at h
  obtain ⟨p, _, hd⟩ := List.exists_of_findSome?_eq_some h
  have hp : d.priority = p := eq_of_beq (List.mem_filter.mp (fastestConnected_eq_some hd).1).2
  rw [hp]
  exact fastestConnected_fastest (fun c hc => timed c (List.mem_filter.mp hc).1) hd

/-- The candidate of a list is the foremost member it has. -/
theorem foremost_iff (timed : Timed health cs) :
    Foremost health cs d ↔ candidate health cs = some d := by
  constructor
  · intro h
    cases hk : candidate health cs with
    | none =>
      have hdown := (candidate_eq_none timed).mp hk d h.mem
      exact absurd (h.connected.symm.trans hdown) (by simp)
    | some k => rw [h.unique (candidate_foremost timed hk)]
  · intro h
    exact candidate_foremost timed h

end Selection

/-! ## Windows -/

namespace Window

theorem outruns_iff {mine theirs : Window} (hmine : mine.size ≤ capacity)
    (htheirs : theirs.size ≤ capacity) :
    mine.consistentlyBetter theirs = true ↔ mine.Outruns theirs := by
  rw [consistentlyBetter_iff]
  constructor
  · intro h
    obtain ⟨c, z, hc, hz, hcz⟩ := h 2 (by decide)
    obtain ⟨p, q, r, hs⟩ :=
      List.length_eq_three.mp (Nat.le_antisymm hmine (List.getElem?_eq_some_iff.mp hc).1)
    obtain ⟨p', q', r', hs'⟩ :=
      List.length_eq_three.mp (Nat.le_antisymm htheirs (List.getElem?_eq_some_iff.mp hz).1)
    obtain ⟨a, x, ha, hx, hax⟩ := h 0 (by decide)
    obtain ⟨b, y, hb, hy, hby⟩ := h 1 (by decide)
    rw [hs] at ha hb hc
    rw [hs'] at hx hy hz
    cases ha; cases hb; cases hc; cases hx; cases hy; cases hz
    exact ⟨a, b, c, x, y, z, hs, hs', hax, hby, hcz⟩
  · rintro ⟨a, b, c, x, y, z, hs, hs', hax, hby, hcz⟩ i hi
    rw [hs, hs']
    match i, hi with
    | 0, _ => exact ⟨a, x, rfl, rfl, hax⟩
    | 1, _ => exact ⟨b, y, rfl, rfl, hby⟩
    | 2, _ => exact ⟨c, z, rfl, rfl, hcz⟩

end Window

/-- The window of a health that probes have led to holds three samples at most. -/
theorem Health.Observed.window_size {h : Health} (ho : h.Observed) :
    h.window.size ≤ Window.capacity := by
  rcases ho.last with rfl | ⟨before, outcome, rfl⟩
  · exact Nat.zero_le _
  · rw [Health.window_observe]
    exact Window.size_record_le _ _

namespace Selection

variable {health : InstanceId → Health} {cs : List Connection} {c d k : Connection}

/-! ## The whole rule -/

/-- Against a connection of no higher precedence, a connection displaces it if it ranks higher or has
outrun it. -/
theorem displaces_iff (hc : (health c.id).Observed) (hd : (health d.id).Observed)
    (hle : c.priority ≤ d.priority) :
    displaces health d c = true ↔ c.priority < d.priority ∨
      (d.priority = c.priority ∧ (health d.id).window.Outruns (health c.id).window) := by
  unfold displaces
  rw [Bool.or_eq_true, Window.outruns_iff hd.window_size hc.window_size, bne_iff_ne]
  by_cases heq : d.priority = c.priority
  · simp [heq]
  · have hlt : c.priority < d.priority := UInt32.lt_of_le_of_ne hle (Ne.symm heq)
    simp [heq, hlt]

theorem replacement_of_none {current : Option Connection} (h : candidate health cs = none) :
    replacement health cs current = none := by
  unfold replacement
  rw [h]

/-- A current connection that is absent or not connected gives way to any candidate. -/
theorem replacement_of_down {current : Option Connection} (h : candidate health cs = some d)
    (hdown : ∀ c, current = some c → (health c.id).connected = false) :
    replacement health cs current = some d := by
  unfold replacement
  rw [h]
  cases current with
  | none => rfl
  | some c => simp [hdown c rfl]

/-- A connected current connection stays unless the candidate is another instance that displaces
it. -/
theorem replacement_of_up (h : candidate health cs = some d) (up : (health c.id).connected = true) :
    replacement health cs (some c) =
      if d.id ≠ c.id ∧ displaces health d c = true then some d else none := by
  unfold replacement
  rw [h]
  by_cases hsame : d.id = c.id
  · simp [up, Connection.same, hsame]
  · simp [up, Connection.same, hsame]

/-- Of two members of a list the one gives way to the other if it is another instance that displaces
it. -/
theorem givesWay_iff (observed : ∀ c ∈ cs, (health c.id).Observed)
    (instances : ∀ c ∈ cs, ∀ k ∈ cs, c.id = k.id → c = k) (hc : c ∈ cs) (hd : d ∈ cs)
    (hle : c.priority ≤ d.priority) :
    GivesWay health c d ↔ d.id ≠ c.id ∧ displaces health d c = true := by
  rw [displaces_iff (observed c hc) (observed d hd) hle]
  constructor
  · rintro (hlt | ⟨hne, heq, hfast⟩)
    · refine ⟨fun hid => ?_, Or.inl hlt⟩
      rw [instances d hd c hc hid] at hlt
      exact UInt32.lt_irrefl _ hlt
    · exact ⟨hne, Or.inr ⟨heq, hfast⟩⟩
  · rintro ⟨hne, hlt | ⟨heq, hfast⟩⟩
    · exact Or.inl hlt
    · exact Or.inr ⟨hne, heq, hfast⟩

/-- What replaces the current connection. As soon as any member of the list is connected there is a
foremost one. It is taken if the current connection is absent or not connected, and against a
connected current connection exactly when that one gives way to it; without a foremost member nothing
is taken. So a connected current connection never loses to one of lower precedence. -/
theorem replacement_foremost {current : Option Connection}
    (observed : ∀ c ∈ cs, (health c.id).Observed)
    (instances : ∀ c ∈ cs, ∀ k ∈ cs, c.id = k.id → c = k)
    (hcurrent : ∀ c, current = some c → c ∈ cs) :
    ((∃ d, Foremost health cs d) ↔ ∃ c ∈ cs, (health c.id).connected = true) ∧
    ((¬ ∃ d, Foremost health cs d) → replacement health cs current = none) ∧
    (∀ d, Foremost health cs d →
      ((∀ c, current = some c → (health c.id).connected = false) →
        replacement health cs current = some d) ∧
      (∀ c, current = some c → (health c.id).connected = true →
        (GivesWay health c d → replacement health cs current = some d) ∧
        (¬ GivesWay health c d → replacement health cs current = none))) ∧
    (∀ c d, current = some c → (health c.id).connected = true →
      replacement health cs current = some d → c.priority ≤ d.priority) := by
  have timed : Timed health cs := fun c hc up => (observed c hc).lastResponse_of_connected up
  refine ⟨⟨?_, ?_⟩, ?_, ?_, ?_⟩
  · rintro ⟨d, hd⟩
    exact ⟨d, hd.mem, hd.connected⟩
  · rintro ⟨c, hc, up⟩
    cases hd : candidate health cs with
    | none => exact absurd (up.symm.trans ((candidate_eq_none timed).mp hd c hc)) (by simp)
    | some d => exact ⟨d, candidate_foremost timed hd⟩
  · intro hnone
    cases hd : candidate health cs with
    | none => exact replacement_of_none hd
    | some d => exact absurd ⟨d, candidate_foremost timed hd⟩ hnone
  · intro d hd
    have hcand : candidate health cs = some d := (foremost_iff timed).mp hd
    refine ⟨fun hdown => replacement_of_down hcand hdown, ?_⟩
    rintro c rfl up
    have hc := hcurrent c rfl
    rw [givesWay_iff observed instances hc hd.mem (hd.highest c hc up), replacement_of_up hcand up]
    exact ⟨fun h => if_pos h, fun h => if_neg h⟩
  · rintro c d rfl up h
    exact candidate_max timed (replacement_candidate h) (hcurrent c rfl) up

/-- The first of the two quick connections takes the place of the slow one. -/
theorem quick_contender_replaces :
    replacement contending contenders (some contenders[0]) = some contenders[1] := by
  have observed : ∀ c ∈ contenders, (contending c.id).Observed := fun c _ => ⟨_, rfl⟩
  have instances : ∀ c ∈ contenders, ∀ k ∈ contenders, c.id = k.id → c = k := by decide
  have timed : Timed contending contenders := by
    intro c hc up
    exact (observed c hc).lastResponse_of_connected up
  have hforemost : Foremost contending contenders contenders[1] :=
    (foremost_iff timed).mpr (by decide +kernel)
  have hslower : GivesWay contending contenders[0] contenders[1] :=
    Or.inr ⟨by decide, rfl, 5, 5, 5, 20, 20, 20, by decide +kernel⟩
  have hmember : ∀ c, some contenders[0] = some c → c ∈ contenders := by
    intro c hc
    exact Option.some.inj hc ▸ List.mem_cons_self
  obtain ⟨_, _, hreplaces, _⟩ := replacement_foremost observed instances hmember
  exact ((hreplaces contenders[1] hforemost).2 contenders[0] rfl (by decide +kernel)).1 hslower

end Selection

end RpcPool

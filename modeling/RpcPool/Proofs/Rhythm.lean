import RpcPool.Proofs.Polled

/-!
# The rhythm of a poll loop

When the iterations of a loop begin is told by the states of a run, and when they end by its
history. However long they take, whether they fail, and whatever else goes on meanwhile, they follow
one another in the order of their numbers. One that is late moves the rhythm, so that none is caught
up on.

Results:
1. `nextTick_spaced`: whether a tick is on time or late, the next one is about a period later.
2. `Conduct.passage`: all that an occurrence can come to for one loop: an iteration begins, ends, or
   both.
3. `diary_spaced`: so the iterations of a run are in order, by induction on the run.
4. `Spaced.no_burst`: as many periods pass as there are iterations, but for the tolerance.
5. `iterations_in_rhythm`: a loop keeps its rhythm from its start on, in every run.
-/

namespace RpcPool

/-- What can be told of a loop: an iteration begins or ends, with its number and the time. -/
inductive Beat
  | begins (number time : Nat)
  | ends (number time : Nat)
  deriving DecidableEq, Repr

/-- When an iteration begins. -/
def Beat.start? : Beat → Option Nat
  | .begins _ time => some time
  | .ends .. => none

/-- The times at which iterations begin, in order. -/
def begunAt (beats : List Beat) : List Nat := beats.filterMap Beat.start?

/-- Iterations in order, from number `n` on. None begins before the one before it has ended, nor
before a period has passed since that began, but for the tolerance; the first begins at `earliest`
at the earliest. The last may be under way. -/
inductive Spaced (period : Nat) : (n earliest : Nat) → List Beat → Prop
  | rests {n earliest : Nat} : Spaced period n earliest []
  | begun {n earliest start : Nat} : earliest ≤ start →
      Spaced period n earliest [.begins n start]
  | ended {n earliest start stop : Nat} {rest : List Beat} : earliest ≤ start → start ≤ stop →
      Spaced period (n + 1) (max stop (start + period - tickTolerance)) rest →
      Spaced period n earliest (.begins n start :: .ends n stop :: rest)

/-! ## Ticks -/

/-- Whether a tick is on time or late, about a period passes until the next. -/
theorem nextTick_spaced (period due now : Nat) :
    now + period ≤ nextTick period due now + tickTolerance := by
  unfold nextTick
  split
  · exact Nat.le_add_right _ _
  · omega

/-- A loop takes the tick that is due. -/
def PollLoop.tick (l : PollLoop) (now : Nat) : PollLoop :=
  { l with
    iterations := l.iterations + 1
    due := nextTick l.options.period l.due now
    began := now }

/-! ## Iterations in order -/

namespace Spaced

variable {period n earliest : Nat} {beats : List Beat}

/-- With every iteration another period passes, but for the tolerance. -/
theorem le_start (h : Spaced period n earliest beats) {j start : Nat}
    (hj : (begunAt beats)[j]? = some start) :
    earliest + j * period ≤ start + j * tickTolerance := by
  induction h generalizing j with
  | rests => exact absurd hj (by simp [begunAt])
  | @begun n earliest first hfirst =>
    cases j with
    | zero =>
      cases hj
      omega
    | succ j => exact absurd hj (by simp [begunAt, Beat.start?])
  | @ended n earliest first stop rest hfirst _ _ ih =>
    cases j with
    | zero =>
      cases hj
      omega
    | succ j =>
      have hrest := ih (j := j) hj
      rw [Nat.succ_mul, Nat.succ_mul]
      omega

/-- Any number of iterations in a row takes as many periods, but for the tolerance. -/
theorem no_burst (h : Spaced period n earliest beats) {i j first last : Nat}
    (hi : (begunAt beats)[i]? = some first) (hj : (begunAt beats)[i + j]? = some last) :
    first + j * period ≤ last + j * tickTolerance := by
  induction h generalizing i with
  | rests => exact absurd hi (by simp [begunAt])
  | @begun n earliest start _ =>
    cases i with
    | zero =>
      cases hi
      exact le_start (.begun (Nat.le_refl _)) (by simpa using hj)
    | succ i => exact absurd hi (by simp [begunAt, Beat.start?])
  | @ended n earliest start stop rest _ hstop hrest ih =>
    cases i with
    | zero =>
      cases hi
      exact le_start (.ended (Nat.le_refl _) hstop hrest) (by simpa using hj)
    | succ i =>
      rw [Nat.add_right_comm] at hj
      exact ih hi hj

end Spaced

namespace Manager

open Relation

variable {r s t a b : Manager} {f : FlightId} {id : LoopId} {l : PollLoop} {busy : Bool}

/-! ## What can be told of a loop -/

/-- How many iterations a loop has begun. -/
def begunBy (s : Manager) (id : LoopId) : Nat :=
  ((s.loops.lookup id).map (·.iterations)).getD 0

/-- Whether a loop goes through an iteration. -/
def iterating (s : Manager) (id : LoopId) : Bool :=
  s.flights.any fun e => (s.flights.lookup e.1).map (·.owner) == some (.loop id)

/-- What can be told of a loop between two states: an iteration has begun if there are more, and
has ended if none is under way any more. Its end is what the history says. -/
def beats (id : LoopId) (s t : Manager) : List Beat :=
  let begun := decide (s.begunBy id < t.begunBy id)
  (if begun then [.begins (t.begunBy id) t.now] else []) ++
    if (s.iterating id || begun) && !t.iterating id then
      (finished (since s t)).map fun e => .ends e.1 e.2
    else []

/-- What can be told of a loop in a run. -/
def diary (s : Manager) (id : LoopId) : List Occurrence → List Beat
  | [] => []
  | o :: rest => beats id s (s.occur o) ++ (s.occur o).diary id rest

/-- A run on a clock that does not go back. -/
def Onward (s : Manager) : List Occurrence → Prop
  | [] => True
  | o :: rest => s.now ≤ (s.occur o).now ∧ (s.occur o).Onward rest

instance decidableOnward (s : Manager) : (run : List Occurrence) → Decidable (s.Onward run)
  | [] => .isTrue trivial
  | o :: rest =>
    have := decidableOnward (s.occur o) rest
    inferInstanceAs (Decidable (s.now ≤ (s.occur o).now ∧ (s.occur o).Onward rest))

theorem iterating_iff : s.iterating id = true ↔ ∃ f, s.Iterates f id := by
  unfold iterating
  rw [List.any_eq_true]
  constructor
  · rintro ⟨e, -, he⟩
    exact ⟨e.1, eq_of_beq he⟩
  · rintro ⟨f, hf⟩
    obtain ⟨work, hwork⟩ := answersTo_iff.mp hf
    exact ⟨_, mem_of_lookup hwork, beq_iff_eq.mpr hf⟩

theorem not_iterating_iff : s.iterating id = false ↔ ∀ f, ¬ s.Iterates f id := by
  rw [← Bool.not_eq_true, iterating_iff, not_exists]

/-- A loop is on this course, and goes through an iteration or is between two. -/
structure OnCourse (s : Manager) (id : LoopId) (l : PollLoop) (busy : Bool) : Prop where
  loop : ∃ l', s.loops.lookup id = some l' ∧ l'.course = l.course
  busy : s.iterating id = busy

theorem OnCourse.begunBy (h : OnCourse s id l busy) : s.begunBy id = l.iterations := by
  obtain ⟨l', hl', hcourse⟩ := h.loop
  unfold Manager.begunBy
  rw [hl']
  exact (PollLoop.course_eq_iff.mp hcourse).2.1

theorem Rests.iterating (h : Rests id s t) : t.iterating id = s.iterating id := by
  rw [Bool.eq_iff_iff, iterating_iff, iterating_iff]
  exact exists_congr h.iterates

theorem Rests.onCourse (h : Rests id s t) (hs : OnCourse s id l busy) : OnCourse t id l busy := by
  obtain ⟨l', hl', hcourse⟩ := hs.loop
  obtain ⟨l'', hl'', hcourse'⟩ := h.stays.lookup hl'
  exact ⟨⟨l'', hl'', hcourse'.trans hcourse⟩, h.iterating.trans hs.busy⟩

/-! ## Occurrences -/

/-- A loop that begins an iteration was between two. -/
theorem Ticks.onCourse (h : Ticks id a b) (ha : a.Looping) (hnow : a.now = s.now)
    (hs : OnCourse a id l busy) :
    busy = false ∧ l.due ≤ s.now ∧ OnCourse b id (l.tick s.now) true := by
  obtain ⟨l₁, hl₁, hcourse⟩ := hs.loop
  cases h with
  | @mk l' hready hl' _ hdue =>
    cases hl₁.symm.trans hl'
    obtain ⟨hoptions, hcount, hsame, -⟩ := PollLoop.course_eq_iff.mp hcourse
    refine ⟨hs.busy.symm.trans (not_iterating_iff.mpr (ha.ready hready).2.2), ?_, ?_⟩
    · exact hsame ▸ hnow ▸ hdue
    · refine ⟨⟨_, iteration_loops_self, PollLoop.course_eq_iff.mpr ⟨hoptions, ?_, ?_, hnow⟩⟩,
        iterating_iff.mpr ⟨a.nextId, iteration_iterates.mpr (.inl ⟨rfl, rfl⟩)⟩⟩
      · exact congrArg (· + 1) hcount
      · show nextTick l₁.options.period l₁.due a.now = _
        rw [hoptions, hsame, hnow]
        rfl

/-- With deeds, a loop begins one iteration at most. -/
theorem Deeds.onCourse (h : Deeds s t) (hs : s.Looping) (hon : OnCourse s id l busy) :
    OnCourse t id l busy ∨
      busy = false ∧ l.due ≤ s.now ∧ OnCourse t id (l.tick s.now) true := by
  induction h with
  | refl => exact .inl hon
  | @tail b c hbefore hdeed ih =>
    have hb := hs.deeds hbefore
    rcases ih with hon | ⟨hidle, hdue, hbusy⟩
    · obtain ⟨_, hl, -⟩ := hon.loop
      rcases hdeed.rests_or_ticks hb (hb.loop_lt hl) with hrests | hticks
      · exact .inl (hrests.onCourse hon)
      · exact .inr (hticks.onCourse hb (Deeds.now hbefore hs) hon)
    · -- it goes through that iteration since
      have hbound : b.Bound id := .inr (iterating_iff.mp hbusy.busy)
      exact .inr ⟨hidle, hdue, (hdeed.rests hb hbound).onCourse hbusy⟩

/-- The end of an operation that is no iteration of a loop does not concern the loop. -/
theorem land_rests (ha : a.Looping) {owner : Owner} {work : Work}
    (hf : a.flights.lookup f = some ⟨owner, work⟩) (hne : owner ≠ .loop id) (reply : Reply) :
    Rests id a (a.land f owner reply) := by
  refine ⟨land_stays ha.few f owner reply id, fun g => ?_⟩
  refine (answersTo_without (land_flights a f owner reply)).trans ?_
  refine and_iff_right_of_imp fun hg => ?_
  rintro rfl
  obtain ⟨work', hwork⟩ := answersTo_iff.mp hg
  cases hf.symm.trans hwork
  exact hne rfl

/-- The end of an iteration is noted, once. -/
theorem land_ends (ha : a.Looping) {work : Work} (hf : a.flights.lookup f = some ⟨.loop id, work⟩)
    (reply : Reply) (hon : OnCourse a id l busy) :
    busy = true ∧ OnCourse (a.land f (.loop id) reply) id l false ∧
      finished (since a (a.land f (.loop id) reply)) = [(l.iterations, a.now)] := by
  have hiterates : a.Iterates f id := answersTo_iff.mpr ⟨work, hf⟩
  obtain ⟨-, -, honly⟩ := ha.within hiterates
  obtain ⟨l₁, hl₁, hcourse⟩ := hon.loop
  obtain ⟨l₂, hl₂, hcourse'⟩ := (land_stays ha.few f (.loop id) reply id).lookup hl₁
  refine ⟨hon.busy.symm.trans (iterating_iff.mpr ⟨f, hiterates⟩),
    ⟨⟨l₂, hl₂, hcourse'.trans hcourse⟩, not_iterating_iff.mpr fun g hg => ?_⟩, ?_⟩
  · obtain ⟨hne, hg⟩ := (answersTo_without (land_flights a f (.loop id) reply)).mp hg
    exact hne ((honly g).mp hg)
  · rw [since_of_cons (land_loop_trace ha.few hl₁ f reply), finished, List.filterMap_cons,
      report_iteration, (PollLoop.course_eq_iff.mp hcourse).2.1]
    rfl

/-- What an occurrence comes to for a loop on its course. -/
inductive Passage (s : Manager) (id : LoopId) (l : PollLoop) : Bool → Manager → Prop
  | rests {busy : Bool} {t : Manager} : OnCourse t id l busy → Passage s id l busy t
  | begins {t : Manager} : l.due ≤ s.now → t.now = s.now → OnCourse t id (l.tick s.now) true →
      Passage s id l false t
  | ends {t : Manager} : OnCourse t id l false → finished (since s t) = [(l.iterations, s.now)] →
      Passage s id l true t
  /-- An iteration that finds nothing to wait for ends where it begins. -/
  | flits {t : Manager} : l.due ≤ s.now → t.now = s.now → OnCourse t id (l.tick s.now) false →
      finished (since s t) = [(l.iterations + 1, s.now)] → Passage s id l false t
  | quits {t : Manager} : t.loops.lookup id = none → id < t.nextId → Passage s id l false t

theorem Conduct.passage (h : Conduct s t) (hs : s.Looping) (hon : OnCourse s id l busy) :
    Passage s id l busy t := by
  cases h with
  | goes h =>
    rcases h.onCourse hs hon with hon | ⟨rfl, hdue, hbusy⟩
    · exact .rests hon
    · exact .begins hdue (h.now hs) hbusy
  | passes time h => exact .rests ((h.passes id time).onCourse hon)
  | @lands a f owner work reply h hf =>
    have ha := hs.deeds h
    by_cases howner : owner = .loop id
    · subst howner
      -- besides, nothing is said of iterations
      have hsilent := h.unreported hs
      have hland := land_stays ha.few f (.loop id) reply id
      have hfinished : finished (since s (a.land f (.loop id) reply)) =
          finished (since a (a.land f (.loop id) reply)) := by
        rw [since_append hsilent.later hland.trace, finished_append, hsilent.silent]
        rfl
      rcases h.onCourse hs hon with hon | ⟨rfl, hdue, hbusy⟩
      · obtain ⟨rfl, hended, hnoted⟩ := land_ends ha hf reply hon
        exact .ends hended (hfinished.trans (h.now hs ▸ hnoted))
      · obtain ⟨-, hended, hnoted⟩ := land_ends ha hf reply hbusy
        exact .flits hdue ((land_lasting a f _ reply).now.trans (h.now hs)) hended
          (hfinished.trans (h.now hs ▸ hnoted))
    · have hrests := land_rests ha hf howner reply
      rcases h.onCourse hs hon with hon | ⟨rfl, hdue, hbusy⟩
      · exact .rests (hrests.onCourse hon)
      · exact .begins hdue ((land_lasting a f owner reply).now.trans (h.now hs))
          (hrests.onCourse hbusy)
  | @quits k l' hready _ _ =>
    by_cases hk : id = k
    · subst hk
      obtain rfl : busy = false :=
        hon.busy.symm.trans (not_iterating_iff.mpr (hs.ready hready).2.2)
      obtain ⟨_, hl, -⟩ := hon.loop
      exact .quits (lookup_without_self _ _) (hs.loop_lt hl)
    · obtain ⟨l₁, hl₁, hcourse⟩ := hon.loop
      exact .rests ⟨⟨l₁, (concluded_loops_ne hk).trans hl₁, hcourse⟩, hon.busy⟩

/-! ## What is told -/

/-- A loop that is as it was has nothing told of it. -/
theorem beats_rests (hs : OnCourse s id l busy) (ht : OnCourse t id l busy) :
    beats id s t = [] := by
  unfold beats
  rw [hs.begunBy, ht.begunBy, hs.busy, ht.busy]
  simp

theorem beats_begins (hs : OnCourse s id l false) (hnow : t.now = s.now)
    (ht : OnCourse t id (l.tick s.now) true) :
    beats id s t = [.begins (l.iterations + 1) s.now] := by
  unfold beats
  rw [hs.begunBy, ht.begunBy, hs.busy, ht.busy, hnow]
  simp [PollLoop.tick]

theorem beats_ends (hs : OnCourse s id l true) (ht : OnCourse t id l false)
    (hfinished : finished (since s t) = [(l.iterations, s.now)]) :
    beats id s t = [.ends l.iterations s.now] := by
  unfold beats
  rw [hs.begunBy, ht.begunBy, hs.busy, ht.busy, hfinished]
  simp

theorem beats_flits (hs : OnCourse s id l false) (hnow : t.now = s.now)
    (ht : OnCourse t id (l.tick s.now) false)
    (hfinished : finished (since s t) = [(l.iterations + 1, s.now)]) :
    beats id s t = [.begins (l.iterations + 1) s.now, .ends (l.iterations + 1) s.now] := by
  unfold beats
  rw [hs.begunBy, ht.begunBy, hs.busy, ht.busy, hfinished, hnow]
  simp [PollLoop.tick]

/-- A loop that was not told to stop begins an iteration at its turn, if it is time. -/
theorem Looping.beats_turn (h : s.Looping) (hl : s.loops.lookup id = some l)
    (hgoing : l.stopped = false) (hready : .loop id ∈ s.ready) (hdue : l.due ≤ s.now) :
    ∃ rest, beats id s (s.next (.turn (.loop id))) =
      .begins (l.iterations + 1) s.now :: rest := by
  have hon : OnCourse s id l false := ⟨⟨l, hl, rfl⟩, not_iterating_iff.mpr (h.ready hready).2.2⟩
  obtain ⟨l', hl', hcount⟩ := h.begins hl hgoing hready hdue
  have hpassage := (next_conduct h (.turn (.loop id))).passage h hon
  generalize s.next (.turn (.loop id)) = t at hl' hpassage ⊢
  cases hpassage with
  | rests hon' =>
    obtain ⟨l₁, hl₁, hcourse⟩ := hon'.loop
    cases hl'.symm.trans hl₁
    have hsame := (PollLoop.course_eq_iff.mp hcourse).2.1
    omega
  | begins _ hnow hon' => exact ⟨_, beats_begins hon hnow hon'⟩
  | flits _ hnow hon' hfinished => exact ⟨_, beats_flits hon hnow hon' hfinished⟩
  | quits hnone _ => cases hnone.symm.trans hl'

/-- Of a loop that is between two iterations and is then gone, nothing is told. -/
theorem beats_gone (hs : s.iterating id = false) (ht : t.begunBy id = 0) : beats id s t = [] := by
  unfold beats
  rw [hs, ht]
  rfl

theorem Looping.absent (h : s.Looping) (hnone : s.loops.lookup id = none) :
    s.begunBy id = 0 ∧ s.iterating id = false := by
  refine ⟨by rw [begunBy, hnone]; rfl, not_iterating_iff.mpr fun f hf => ?_⟩
  exact (h.within hf).1 hnone

/-- A loop that is gone does not come back. -/
theorem diary_gone (run : List Occurrence) (h : s.Orderly) (hnone : s.loops.lookup id = none)
    (hlt : id < s.nextId) : s.diary id run = [] := by
  induction run generalizing s with
  | nil => rfl
  | cons o rest ih =>
    have hhalted : s.Halted id := ⟨hlt, fun l hl => by cases hnone.symm.trans hl⟩
    have habides := (occur_conduct h.looping o).abides h.looping hhalted
    have hafter : (s.occur o).loops.lookup id = none := by
      refine Option.eq_none_iff_forall_ne_some.mpr fun l' hl' => ?_
      obtain ⟨l, hl, -⟩ := habides.loop hl'
      cases hnone.symm.trans hl
    obtain ⟨-, hidle⟩ := h.looping.absent hnone
    obtain ⟨hbegun, -⟩ := (h.occur o).looping.absent hafter
    rw [diary, ih (h.occur o) hafter habides.halted.1, beats_gone hidle hbegun]
    rfl

/-- What is left of a run goes on in order from where a loop is: between two iterations, the next
of which is due, or in one that began some time ago. -/
theorem diary_spaced (run : List Occurrence) (h : s.Orderly) (honward : s.Onward run) :
    (OnCourse s id l false → ∀ earliest, earliest ≤ max s.now l.due →
      Spaced l.options.period (l.iterations + 1) earliest (s.diary id run)) ∧
    (OnCourse s id l true → ∀ earliest start, earliest ≤ start → start ≤ s.now →
      start + l.options.period ≤ l.due + tickTolerance →
      Spaced l.options.period l.iterations earliest
        (.begins l.iterations start :: s.diary id run)) := by
  induction run generalizing s l with
  | nil => exact ⟨fun _ _ _ => .rests, fun _ _ _ hearliest _ _ => .begun hearliest⟩
  | cons o rest ih =>
    obtain ⟨hlater, hrest⟩ := honward
    have hafter := h.occur o
    have hconduct := occur_conduct h.looping o
    have hspaced := nextTick_spaced l.options.period l.due s.now
    constructor
    · intro hon earliest hearliest
      have hpassage := hconduct.passage h.looping hon
      cases hpassage with
      | rests hon' =>
        rw [diary, beats_rests hon hon']
        exact (ih hafter hrest).1 hon' earliest (by omega)
      | begins hdue hnow hon' =>
        rw [diary, beats_begins hon hnow hon']
        exact (ih hafter hrest).2 hon' earliest s.now (by omega) hlater hspaced
      | flits hdue hnow hon' hfinished =>
        rw [diary, beats_flits hon hnow hon' hfinished]
        refine .ended (by omega) (Nat.le_refl _) ((ih hafter hrest).1 hon' _ ?_)
        show max s.now (s.now + l.options.period - tickTolerance) ≤
          max (s.occur o).now (nextTick l.options.period l.due s.now)
        omega
      | quits hnone hlt =>
        obtain ⟨hbegun, -⟩ := hafter.looping.absent hnone
        rw [diary, diary_gone rest hafter hnone hlt, beats_gone hon.busy hbegun]
        exact .rests
    · intro hon earliest start hearliest hstart hdue
      have hpassage := hconduct.passage h.looping hon
      cases hpassage with
      | rests hon' =>
        rw [diary, beats_rests hon hon']
        exact (ih hafter hrest).2 hon' earliest start hearliest (Nat.le_trans hstart hlater) hdue
      | ends hon' hfinished =>
        rw [diary, beats_ends hon hon' hfinished]
        exact .ended hearliest hstart ((ih hafter hrest).1 hon' _ (by omega))

/-! ## Iterations that are counted -/

/-- An iteration that is under way has been counted. -/
def Counted (s : Manager) : Prop :=
  ∀ {f id l}, s.Iterates f id → s.loops.lookup id = some l → 0 < l.iterations

theorem Deed.counted (h : Deed s t) (hs : s.Looping) (hc : s.Counted) : t.Counted := by
  intro f id l' hf hl'
  cases h with
  | beside h => exact hc ((AnswersTo.same (h.owners f)).mp hf) (h.loops ▸ hl')
  | queues owner op hno => exact hc ((hs.iterates_upsert rfl (hno id)).mp hf) hl'
  | stops =>
    have heasing := stopPolling_easing hs.few
    obtain ⟨l, hl, hcourse, -⟩ := heasing.lookup_some hl'
    have hbefore : s.Iterates f id := (AnswersTo.same (by rw [heasing.flights])).mp hf
    exact (PollLoop.course_eq_iff.mp hcourse).2.1 ▸ hc hbefore hl
  | starts h =>
    -- the new loop goes through no iteration
    have hopening := startPolling_opening hs h
    have hbefore : s.Iterates f id := (AnswersTo.same (by rw [hopening.flights])).mp hf
    obtain ⟨l, hl⟩ := Option.ne_none_iff_exists'.mp (hs.within hbefore).1
    have hcounted : 0 < l.iterations := hc hbefore hl
    rw [hopening.others id (Nat.ne_of_lt (hs.loop_lt hl)), hl] at hl'
    cases hl'
    split <;> exact hcounted
  | @begins k l _ _ _ _ =>
    by_cases hk : id = k
    · rw [hk, iteration_loops_self] at hl'
      cases hl'
      exact Nat.succ_pos _
    · exact hc ((hs.iterates_upsert rfl (by simpa using Ne.symm hk)).mp hf)
        ((iteration_loops_ne hk).symm.trans hl')

theorem Deeds.counted (h : Deeds s t) (hs : s.Looping) (hc : s.Counted) : t.Counted := by
  induction h with
  | refl => exact hc
  | tail hbefore hdeed ih => exact hdeed.counted (hs.deeds hbefore) ih

theorem Conduct.counted (h : Conduct s t) (hs : s.Looping) (hc : s.Counted) : t.Counted := by
  intro f id l' hf hl'
  cases h with
  | goes h => exact h.counted hs hc hf hl'
  | passes time h => exact hc ((AnswersTo.same (h.owners f)).mp hf) (h.loops ▸ hl')
  | @lands a g owner work reply h hg =>
    have hland := land_stays (hs.deeds h).few g owner reply id
    obtain ⟨l, hl, hcourse, -⟩ := hland.loop hl'
    obtain ⟨-, hbefore⟩ := (answersTo_without (land_flights a g owner reply)).mp hf
    exact (PollLoop.course_eq_iff.mp hcourse).2.1 ▸ h.counted hs hc hbefore hl
  | @quits k l _ _ _ =>
    by_cases hk : id = k
    · rw [hk] at hl'
      cases (lookup_without_self k s.loops).symm.trans hl'
    · exact hc hf ((concluded_loops_ne hk).symm.trans hl')

theorem Fresh.counted (h : Fresh s) : s.Counted := by
  obtain ⟨network, hasRuntime, hchores⟩ := h.chores
  refine (Chores.deeds hchores).counted (looping_idle network hasRuntime) fun hf _ => ?_
  exact absurd hf (by simp [AnswersTo, idle])

theorem Orderly.counted (h : s.Orderly) (hc : s.Counted) (run : List Occurrence) :
    (run.foldl Manager.occur s).Counted := by
  induction run generalizing s with
  | nil => exact hc
  | cons o rest ih => exact ih (h.occur o) ((occur_conduct h.looping o).counted h.looping hc)

/-! ## The iterations of a loop -/

/-- The iterations of a loop in a run, from its start at `s` on. -/
structure InRhythm (s : Manager) (id : LoopId) (l : PollLoop) (run : List Occurrence)
    (t : Manager) : Prop where
  /-- One is under way at most. -/
  single : ∀ {f g}, t.Iterates f id → t.Iterates g id → f = g
  /-- They are in order, numbered from 1, and about a period apart at least. -/
  spaced : Spaced l.options.period 1 0 (s.diary id run)
  /-- However late one is, none is caught up on. -/
  paced : ∀ {i j first last}, (begunAt (s.diary id run))[i]? = some first →
    (begunAt (s.diary id run))[i + j]? = some last →
    first + j * l.options.period ≤ last + j * tickTolerance
  /-- The next one begins at a turn of the loop when it is due, unless the loop was told to stop. -/
  begins : ∀ {l'}, t.loops.lookup id = some l' → l'.stopped = false → .loop id ∈ t.ready →
    l'.due ≤ t.now →
    ∃ rest, beats id t (t.next (.turn (.loop id))) = .begins (l'.iterations + 1) t.now :: rest

/-- A loop keeps its rhythm from its start on, whatever happens and however long iterations take. -/
theorem iterations_in_rhythm (h : Fresh r) (before : List Occurrence)
    (hs : s = before.foldl occur r) (hl : s.loops.lookup id = some l) (hnew : l.iterations = 0)
    (run : List Occurrence) (honward : s.Onward run) (ht : t = run.foldl occur s) :
    InRhythm s id l run t := by
  have horderly : s.Orderly := hs ▸ h.orderly.run before
  have hcounted : s.Counted := hs ▸ h.orderly.counted h.counted before
  have hidle : s.iterating id = false :=
    not_iterating_iff.mpr fun f hf => Nat.ne_of_gt (hcounted hf hl) hnew
  have hon : OnCourse s id l false := ⟨⟨l, hl, rfl⟩, hidle⟩
  have hspaced := (diary_spaced run horderly honward).1 hon 0 (Nat.zero_le _)
  rw [hnew] at hspaced
  have hlooping : t.Looping := ht ▸ (horderly.run run).looping
  exact {
    single := fun {f g} hf hg => by
      obtain ⟨-, -, honly⟩ := hlooping.within hg
      exact (honly f).mp hf
    spaced := hspaced
    paced := fun hi hj => hspaced.no_burst hi hj
    begins := fun hl' hgoing hready hdue => hlooping.beats_turn hl' hgoing hready hdue }

/-- The first probe of A is answered late, and the second soon. -/
def sluggish : Manager :=
  idle ⟨[("A", ⟨[.reply 25 (.ok ⟨true, .ofMillis 25⟩), .reply 3 (.ok ⟨true, .ofMillis 3⟩)],
    none⟩)]⟩ true

/-- Polling is started. -/
def sluggishStart : List Occurrence :=
  [.within (.call (.add { uri := "A" } none)),
    .within (.call (.startPolling { periodMs := 10, pollType := .all } []))]

/-- The first iteration takes longer than two periods. -/
def sluggishRun : List Occurrence :=
  [.within (.turn (.loop 0)), .within (.turn (.probe 1 0)), .within (.clock 25),
    .within (.turn (.probe 1 0)), .within (.turn (.flight 1)), .within (.turn (.loop 0)),
    .within (.turn (.probe 2 0)), .within (.clock 28), .within (.turn (.probe 2 0)),
    .within (.turn (.flight 2)), .within (.turn (.loop 0)), .within (.clock 35),
    .within (.turn (.loop 0))]

/-- The second iteration begins late, at the end of the first, and the third a period after it. -/
theorem sluggish_in_rhythm :
    let s := sluggishStart.foldl occur sluggish
    let t := sluggishRun.foldl occur s
    Fresh sluggish ∧ s.Onward sluggishRun ∧
    s.diary 0 sluggishRun =
      [.begins 1 0, .ends 1 25, .begins 2 25, .ends 2 28, .begins 3 35] ∧
    ∃ l, s.loops.lookup 0 = some l ∧ l.iterations = 0 ∧ l.options.period = 10 ∧
      InRhythm s 0 l sluggishRun t := by
  intro s t
  have hfresh : Fresh sluggish := .new _ true []
  have honward : s.Onward sluggishRun := by decide +kernel
  have hnew : ∃ l, s.loops.lookup 0 = some l ∧ l.iterations = 0 ∧ l.options.period = 10 :=
    ⟨_, rfl, by decide +kernel, by decide +kernel⟩
  obtain ⟨l, hl, hnone, hperiod⟩ := hnew
  exact ⟨hfresh, honward, by decide +kernel, l, hl, hnone, hperiod,
    iterations_in_rhythm hfresh sluggishStart rfl hl hnone sluggishRun honward rfl⟩

end Manager

end RpcPool

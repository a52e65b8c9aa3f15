import RpcPool.Proofs.Loops

/-!
# One loop

What can become of one loop, whatever else goes on. A loop that was told to stop begins nothing
more. An iteration under way goes on until it ends, and its loop is there for as long. A loop that
was not told to stop is there.

Results:
1. `Deed.rests_or_ticks`: a deed does not concern a loop, or has it begin an iteration that is due.
   `Deed.rests`, `land_stays`: a loop that was told to stop, or that goes through an iteration,
   begins none.
2. `Conduct.abides`: a loop that was told to stop begins nothing with a move.
3. `Conduct.continues`: an iteration goes on, or its end is noted and its loop is the next to run.
4. `Conduct.there`: a loop that was not told to stop is there after a move.
-/

namespace RpcPool

namespace Manager

open Relation

variable {s t u : Manager} {f : FlightId} {id k : LoopId} {l : PollLoop}

/-! ## Loops that begin nothing -/

/-- A loop was told to stop, or is gone. -/
def Halted (s : Manager) (id : LoopId) : Prop :=
  id < s.nextId ∧ ∀ l, s.loops.lookup id = some l → l.stopped = true

/-- A loop is there if it was there before, and is as far as it was. -/
structure Stays (id : LoopId) (s t : Manager) : Prop where
  there : t.loops.lookup id = none ↔ s.loops.lookup id = none
  loop : ∀ {l'}, t.loops.lookup id = some l' → ∃ l, s.loops.lookup id = some l ∧
    l'.course = l.course ∧ (l.stopped = true → l'.stopped = true)
  nextId : s.nextId ≤ t.nextId
  trace : s.trace <:+ t.trace

theorem Stays.refl (id : LoopId) (s : Manager) : Stays id s s :=
  ⟨Iff.rfl, fun hl => ⟨_, hl, rfl, fun h => h⟩, Nat.le_refl _, List.suffix_rfl⟩

theorem Stays.trans (h : Stays id s t) (h' : Stays id t u) : Stays id s u where
  there := h'.there.trans h.there
  loop hl := by
    obtain ⟨l, hl, hcourse, hstop⟩ := h'.loop hl
    obtain ⟨l₀, hl₀, hcourse₀, hstop₀⟩ := h.loop hl
    exact ⟨l₀, hl₀, hcourse.trans hcourse₀, fun h => hstop (hstop₀ h)⟩
  nextId := Nat.le_trans h.nextId h'.nextId
  trace := h.trace.trans h'.trace

theorem Stays.same (hloops : t.loops.lookup id = s.loops.lookup id) (hnextId : s.nextId ≤ t.nextId)
    (htrace : s.trace <:+ t.trace) : Stays id s t :=
  ⟨by rw [hloops], fun hl => ⟨_, hloops ▸ hl, rfl, fun h => h⟩, hnextId, htrace⟩

theorem Easing.stays (h : Easing s t) (id : LoopId) : Stays id s t :=
  ⟨h.lookup_none id, h.lookup_some, Nat.le_of_eq h.nextId.symm, h.trace ▸ List.suffix_rfl⟩

theorem Stays.halted (h : Stays id s t) (hs : s.Halted id) : t.Halted id := by
  refine ⟨Nat.lt_of_lt_of_le hs.1 h.nextId, fun l' hl' => ?_⟩
  obtain ⟨l, hl, -, hstop⟩ := h.loop hl'
  exact hstop (hs.2 l hl)

/-- A loop that is there stays there, on its course. -/
theorem Stays.lookup (h : Stays id s t) (hl : s.loops.lookup id = some l) :
    ∃ l', t.loops.lookup id = some l' ∧ l'.course = l.course := by
  obtain ⟨l', hl'⟩ := Option.ne_none_iff_exists'.mp
    (mt h.there.mp (show s.loops.lookup id ≠ none by simp [hl]))
  obtain ⟨l₀, hl₀, hcourse, -⟩ := h.loop hl'
  cases hl.symm.trans hl₀
  exact ⟨l', hl', hcourse⟩

/-- A loop stays, and goes through the same iteration if it goes through one. -/
structure Rests (id : LoopId) (s t : Manager) : Prop where
  stays : Stays id s t
  iterates : ∀ f, t.Iterates f id ↔ s.Iterates f id

theorem Rests.refl (id : LoopId) (s : Manager) : Rests id s s := ⟨.refl id s, fun _ => Iff.rfl⟩

theorem Rests.trans (h : Rests id s t) (h' : Rests id t u) : Rests id s u :=
  ⟨h.stays.trans h'.stays, fun f => (h'.iterates f).trans (h.iterates f)⟩

theorem Beside.rests (h : Beside s t) (id : LoopId) : Rests id s t :=
  ⟨.same (by rw [h.loops]) (Nat.le_of_eq h.nextId.symm) h.trace.later,
    fun f => AnswersTo.same (h.owners f)⟩

theorem Beside.passes (h : Beside s t) (id : LoopId) (time : Nat) :
    Rests id s { t with now := time } :=
  (h.rests id).trans ⟨.same rfl (Nat.le_refl _) List.suffix_rfl, fun _ => Iff.rfl⟩

/-- A loop begins an iteration that is due. -/
inductive Ticks (id : LoopId) (s : Manager) : Manager → Prop
  | mk {l : PollLoop} : .loop id ∈ s.ready → s.loops.lookup id = some l → l.stopped = false →
      l.due ≤ s.now → Ticks id s (s.iteration id l)

/-- A deed does not concern a loop, or has it begin an iteration. -/
theorem Deed.rests_or_ticks (h : Deed s t) (hs : s.Looping) (hlt : id < s.nextId) :
    Rests id s t ∨ Ticks id s t := by
  cases h with
  | beside h => exact .inl (h.rests id)
  | queues owner op hno =>
    exact .inl ⟨.same rfl (Nat.le_succ _) List.suffix_rfl, fun _ => hs.iterates_upsert rfl (hno id)⟩
  | stops =>
    have heasing := stopPolling_easing hs.few
    exact .inl ⟨heasing.stays id, fun f => AnswersTo.same (by rw [heasing.flights])⟩
  | starts h =>
    have hopening := startPolling_opening hs h
    have hloop := hopening.others id (Nat.ne_of_lt hlt)
    refine .inl ⟨⟨by rw [hloop, Option.map_eq_none_iff], fun hl' => ?_,
      Nat.le_trans (Nat.le_succ _) (Nat.le_of_eq hopening.nextId.symm), hopening.trace.later⟩,
      fun f => AnswersTo.same (by rw [hopening.flights])⟩
    rw [hloop] at hl'
    obtain ⟨l, hl, rfl⟩ := Option.map_eq_some_iff.mp hl'
    refine ⟨l, hl, ?_, fun hstopped => ?_⟩ <;> split <;> trivial
  | @begins k l hready hl hgoing hdue =>
    by_cases hk : id = k
    · subst hk
      exact .inr ⟨hready, hl, hgoing, hdue⟩
    · exact .inl ⟨.same (iteration_loops_ne hk) (Nat.le_succ _) List.suffix_rfl, fun _ =>
        hs.iterates_upsert rfl (by simpa using Ne.symm hk)⟩

/-- A loop cannot begin an iteration: it was told to stop, or goes through one. -/
def Bound (s : Manager) (id : LoopId) : Prop := s.Halted id ∨ ∃ f, s.Iterates f id

theorem Looping.bound_lt (hs : s.Looping) (hid : s.Bound id) : id < s.nextId := by
  rcases hid with ⟨hlt, -⟩ | ⟨f, hf⟩
  · exact hlt
  · obtain ⟨l, hl⟩ := Option.ne_none_iff_exists'.mp (hs.within hf).1
    exact hs.loop_lt hl

theorem Rests.bound (h : Rests id s t) (hid : s.Bound id) : t.Bound id :=
  hid.imp h.stays.halted fun ⟨f, hf⟩ => ⟨f, (h.iterates f).mpr hf⟩

/-- A loop that cannot begin an iteration does not begin one with a deed, and ends none. -/
theorem Deed.rests (h : Deed s t) (hs : s.Looping) (hid : s.Bound id) : Rests id s t := by
  rcases h.rests_or_ticks hs (hs.bound_lt hid) with hrests | ⟨hready, hl, hgoing, -⟩
  · exact hrests
  · -- a loop takes note of a stop before it begins, and is not ready during an iteration
    rcases hid with ⟨-, hstopped⟩ | ⟨f, hf⟩
    · exact absurd (hstopped _ hl) (by simp [hgoing])
    · exact absurd hf ((hs.ready hready).2.2 f)

theorem Deeds.rests (h : Deeds s t) (hs : s.Looping) (hid : s.Bound id) : Rests id s t := by
  induction h with
  | refl => exact .refl id s
  | tail hbefore hdeed ih => exact ih.trans (hdeed.rests (hs.deeds hbefore) (ih.bound hid))

/-- The end of an operation may have the loop of the manager told to stop, and no more. -/
theorem land_stays (few : ∀ k, s.pending (.loop k) ≤ 1) (f : FlightId) (owner : Owner)
    (reply : Reply) (id : LoopId) : Stays id s (s.land f owner reply) := by
  let removed : Manager := { s with flights := without f s.flights }
  let answered : Manager := { removed with answers := upsert f reply s.answers }
  have hremoved : Stays id s removed := .same rfl (Nat.le_refl _) List.suffix_rfl
  have hanswered : Stays id s answered := .same rfl (Nat.le_refl _) List.suffix_rfl
  have hreleased (a : Manager) (few : ∀ k, a.pending (.loop k) ≤ 1) : Stays id a a.release :=
    (release_easing few).stays id
  cases owner with
  | caller | task => exact hanswered.trans (hreleased answered few)
  | loop k =>
    cases hl : s.loops.lookup k with
    | none =>
      rw [land_orphan hl]
      exact hremoved.trans (hreleased removed few)
    | some l =>
      let noted : Manager := removed.record (s.report l reply)
      have hnoted : Stays id removed noted := .same rfl (Nat.le_refl _) (later_record removed _)
      rw [land_loop hl]
      exact (hremoved.trans hnoted).trans ((hreleased noted few).trans
        (.same rfl (Nat.le_refl _) List.suffix_rfl))

/-- Of a loop that was told to stop nothing begins: no iteration is counted, and an iteration that
is under way was under way before. -/
structure Abides (id : LoopId) (s t : Manager) : Prop where
  halted : t.Halted id
  loop : ∀ {l'}, t.loops.lookup id = some l' →
    ∃ l, s.loops.lookup id = some l ∧ l'.iterations = l.iterations
  iterates : ∀ f, t.Iterates f id → s.Iterates f id

theorem Abides.refl (h : s.Halted id) : Abides id s s := ⟨h, fun hl => ⟨_, hl, rfl⟩, fun _ hf => hf⟩

theorem Abides.trans (h : Abides id s t) (h' : Abides id t u) : Abides id s u where
  halted := h'.halted
  loop hl := by
    obtain ⟨l, hl, hcount⟩ := h'.loop hl
    obtain ⟨l₀, hl₀, hcount₀⟩ := h.loop hl
    exact ⟨l₀, hl₀, hcount.trans hcount₀⟩
  iterates f hf := h.iterates f (h'.iterates f hf)

theorem Stays.abides (h : Stays id s t) (hs : s.Halted id)
    (hiterates : ∀ f, t.Iterates f id → s.Iterates f id) : Abides id s t :=
  ⟨h.halted hs, fun hl => by
    obtain ⟨l, hl, hcourse, -⟩ := h.loop hl
    exact ⟨l, hl, (PollLoop.course_eq_iff.mp hcourse).2.1⟩, hiterates⟩

theorem Rests.abides (h : Rests id s t) (hs : s.Halted id) : Abides id s t :=
  h.stays.abides hs fun f => (h.iterates f).mp

/-- A loop that was told to stop begins nothing with a move. -/
theorem Conduct.abides (h : Conduct s t) (hs : s.Looping) (hid : s.Halted id) : Abides id s t := by
  cases h with
  | goes h => exact (h.rests hs (.inl hid)).abides hid
  | passes time h => exact (h.passes id time).abides hid
  | @lands a f owner work reply h hf =>
    have hrests := h.rests hs (.inl hid)
    have hland := land_stays (hs.deeds h).few f owner reply id
    refine (hrests.stays.trans hland).abides hid fun g hg => (hrests.iterates g).mp ?_
    exact ((answersTo_without (land_flights a f owner reply)).mp hg).2
  | @quits k l hready hl hstopped =>
    refine ⟨⟨hid.1, fun l' hl' => ?_⟩, fun hl' => ?_, fun _ hf => hf⟩
    · by_cases hk : id = k
      · rw [hk] at hl'
        cases (lookup_without_self k s.loops).symm.trans hl'
      · exact hid.2 l' ((concluded_loops_ne hk).symm.trans hl')
    · by_cases hk : id = k
      · rw [hk] at hl'
        cases (lookup_without_self k s.loops).symm.trans hl'
      · exact ⟨_, (concluded_loops_ne hk).symm.trans hl', rfl⟩

/-! ## Iterations under way -/

/-- What becomes of an iteration with a move: it is still under way, or it has ended, well or with
an error. Then that is noted, and its loop is there and the next task to run. -/
inductive Continues (f : FlightId) (id : LoopId) (l : PollLoop) (s t : Manager) : Prop
  | goesOn {l' : PollLoop} : t.Iterates f id → t.loops.lookup id = some l' →
      l'.iterations = l.iterations → Continues f id l s t
  | ends {l' : PollLoop} : t.flights.lookup f = none → t.loops.lookup id = some l' →
      l'.iterations = l.iterations → .loop id ∈ t.ready →
      (∃ moment ∈ since s t, moment.event.reports l.iterations) → Continues f id l s t

theorem Conduct.continues (h : Conduct s t) (hs : s.Looping) (hf : s.Iterates f id)
    (hl : s.loops.lookup id = some l) : Continues f id l s t := by
  have hstays {a : Manager} (h : Stays id s a) :
      ∃ l', a.loops.lookup id = some l' ∧ l'.iterations = l.iterations := by
    obtain ⟨l', hl', hcourse⟩ := h.lookup hl
    exact ⟨l', hl', (PollLoop.course_eq_iff.mp hcourse).2.1⟩
  have hgoesOn {a : Manager} (h : Rests id s a) : Continues f id l s a := by
    obtain ⟨l', hl', hcount⟩ := hstays h.stays
    exact .goesOn ((h.iterates f).mpr hf) hl' hcount
  cases h with
  | goes h => exact hgoesOn (h.rests hs (.inr ⟨f, hf⟩))
  | passes time h => exact hgoesOn (h.passes id time)
  | @lands a g owner work reply h hg =>
    have hrests := h.rests hs (.inr ⟨f, hf⟩)
    have hland := land_stays (hs.deeds h).few g owner reply id
    obtain ⟨l', hl', hcount⟩ := hstays (hrests.stays.trans hland)
    by_cases hgf : f = g
    · -- the iteration itself has ended: its loop is there, since nothing could take it away
      subst hgf
      obtain ⟨work', hwork⟩ := answersTo_iff.mp ((hrests.iterates f).mpr hf)
      cases hg.symm.trans hwork
      obtain ⟨la, hla, hcounta⟩ := hstays hrests.stays
      have hready : .loop id ∈ (a.land f (.loop id) reply).ready := by
        rw [land_loop hla]
        exact List.mem_cons_self
      refine .ends (land_gone a f _ reply) hl' hcount hready ?_
      refine ⟨⟨a.now, a.pool, a.report la reply⟩, ?_, hcounta ▸ report_reports a la reply⟩
      rw [since_append hrests.stays.trace hland.trace,
        since_of_cons (land_loop_trace (hs.deeds h).few hla f reply)]
      exact List.mem_append_right _ (List.mem_singleton_self _)
    · refine .goesOn ?_ hl' hcount
      exact (answersTo_without (land_flights a g owner reply)).mpr ⟨hgf, (hrests.iterates f).mpr hf⟩
  | @quits k l' hready _ _ =>
    have hne : id ≠ k := by
      rintro rfl
      exact (hs.ready hready).2.2 f hf
    exact .goesOn hf ((concluded_loops_ne hne).trans hl) rfl

/-! ## Loops that go on -/

theorem Deed.there (h : Deed s t) (hs : s.Looping) (hl : s.loops.lookup id ≠ none) :
    t.loops.lookup id ≠ none := by
  obtain ⟨l, hl'⟩ := Option.ne_none_iff_exists'.mp hl
  rcases h.rests_or_ticks hs (hs.loop_lt hl') with hrests | hticks
  · exact mt hrests.stays.there.mp hl
  · cases hticks with
    | mk =>
      rw [iteration_loops_self]
      exact nofun

theorem Deeds.there (h : Deeds s t) (hs : s.Looping) (hl : s.loops.lookup id ≠ none) :
    t.loops.lookup id ≠ none := by
  induction h with
  | refl => exact hl
  | tail hbefore hdeed ih => exact hdeed.there (hs.deeds hbefore) ih

/-- A loop that was not told to stop is there after a move. -/
theorem Conduct.there (h : Conduct s t) (hs : s.Looping) (hl : s.loops.lookup id = some l)
    (hgoing : l.stopped = false) : t.loops.lookup id ≠ none := by
  have hthere : s.loops.lookup id ≠ none := by simp [hl]
  cases h with
  | goes h => exact h.there hs hthere
  | passes time h => exact mt (h.passes id time).stays.there.mp hthere
  | lands reply h _ => exact mt (land_stays (hs.deeds h).few _ _ _ id).there.mp (h.there hs hthere)
  | @quits k l' _ hl' hstopped =>
    have hne : id ≠ k := by
      rintro rfl
      cases hl.symm.trans hl'
      rw [hgoing] at hstopped
      cases hstopped
    rw [concluded_loops_ne hne]
    exact hthere

end Manager

end RpcPool

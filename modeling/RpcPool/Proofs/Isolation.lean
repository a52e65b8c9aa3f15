import RpcPool.Proofs.Callbacks

/-!
# Operations leave each other alone

Many operations may be under way at a time, each with a batch of its own. What is done by one of
them, by a call, or by a listener that answers, does not touch the batch of another one: numbers of
operations are never used again, and an operation changes nothing under another number than its own.

Results:
1. `act_spares`, `announceWith_spares`: calls and rounds of notifications.
2. `next_spares`: any move of a run but the turns of the operation itself.
-/

namespace RpcPool

/-- Whether a move is a turn of an operation or of one of its probes. -/
def Move.concerns (id : FlightId) : Move → Bool
  | .turn (.probe flight _) => flight == id
  | .turn (.flight flight) => flight == id
  | _ => false

namespace Manager

open Relation

variable {f id : FlightId} {inner : Performer} {s t u : Manager}

/-- Numbers are given out in order, and what there is under a number that was given out before, or
is still to be given out, is as it was. -/
structure Spares (f : FlightId) (s t : Manager) : Prop where
  nextId : s.nextId ≤ t.nextId
  lookup : f < s.nextId ∨ t.nextId ≤ f → t.flights.lookup f = s.flights.lookup f

theorem Spares.same (hnext : t.nextId = s.nextId) (hflights : t.flights = s.flights) :
    Spares f s t :=
  ⟨Nat.le_of_eq hnext.symm, fun _ => congrArg (List.lookup f) hflights⟩

theorem Spares.refl (s : Manager) : Spares f s s := .same rfl rfl

theorem Spares.trans (h : Spares f s t) (h' : Spares f t u) : Spares f s u where
  nextId := Nat.le_trans h.nextId h'.nextId
  lookup hf := (h'.lookup (hf.imp_left fun hf => Nat.lt_of_lt_of_le hf h.nextId)).trans
    (h.lookup (hf.imp_right fun hf => Nat.le_trans h'.nextId hf))

/-! ## Bookkeeping -/

theorem wake_spares (s : Manager) (task : Task) : Spares f s (s.wake task) := by
  obtain ⟨ready, hwake⟩ := wake_eq s task
  rw [hwake]
  exact .same rfl rfl

theorem setFlight_spares (s : Manager) {flight : Flight} (hne : f ≠ id) :
    Spares f s (s.setFlight id flight) :=
  ⟨Nat.le_refl _, fun _ => lookup_upsert_ne flight s.flights hne⟩

/-- The number of a new operation is that of no other. -/
theorem begun_spares (s : Manager) (flight : Flight) :
    Spares f s ({ s with nextId := s.nextId + 1 }.setFlight s.nextId flight) :=
  ⟨Nat.le_succ _, fun hf => lookup_upsert_ne flight s.flights
    (hf.elim Nat.ne_of_lt fun hf => (Nat.ne_of_lt hf).symm)⟩

/-! ## Notifications and calls -/

theorem deliverWith_spares (hinner : ∀ s c, Spares f s (inner s c).1) (k : Option Connection)
    (s : Manager) (name : String) : Spares f s (deliverWith inner k s name) := by
  have hreact (calls : List Call) (t : Manager) : Spares f t (calls.foldl (reactWith inner) t) := by
    induction calls generalizing t with
    | nil => exact .refl t
    | cons c rest ih =>
      have hcall : Spares f t (reactWith inner t c) := (hinner t c).trans (.same rfl rfl)
      exact hcall.trans (ih _)
  unfold deliverWith
  split
  · dsimp only
    split
    · next calls rest _ =>
      have hanswer : Spares f s { s.record (.notified name k) with
          listeners := upsert name ⟨rest⟩ (s.record (.notified name k)).listeners } := .same rfl rfl
      exact hanswer.trans (hreact calls _)
    · exact .same rfl rfl
  · exact .refl s

theorem announceWith_spares (hinner : ∀ s c, Spares f s (inner s c).1) (s : Manager)
    (k : Option Connection) : Spares f s (announceWith inner s k) := by
  have hdeliver (names : List String) (t : Manager) :
      Spares f t (names.foldl (deliverWith inner k) t) := by
    induction names generalizing t with
    | nil => exact .refl t
    | cons name rest ih => exact (deliverWith_spares hinner k t name).trans (ih _)
  have hnote : Spares f s (s.record (.announced k s.subscribers.length)) := .same rfl rfl
  exact hnote.trans (hdeliver s.subscribers _)

theorem Arranges.spares {c : Call} (h : Arranges c s t) : Spares f s t where
  nextId := h.nextId
  lookup hf := by
    rcases h.flights with hsame | ⟨hlt, op, hbegun⟩
    · rw [hsame]
    · rw [hbegun]
      exact lookup_upsert_ne _ _
        (hf.elim Nat.ne_of_lt fun hf => (Nat.ne_of_lt (Nat.lt_of_lt_of_le hlt hf)).symm)

theorem performWith_spares (hinner : ∀ s c, Spares f s (inner s c).1) (s : Manager) (c : Call) :
    Spares f s (performWith inner s c).1 := by
  cases performWith_outcome inner s c with
  | unheard _ harranges _ _ => exact harranges.spares
  | @moved u k _ _ harranges _ ht =>
    rw [ht]
    exact harranges.spares.trans (announceWith_spares hinner u k)

theorem act_spares (s : Manager) (c : Call) : Spares f s (act s c).1 := by
  have hdepth (depth : Nat) (s : Manager) (c : Call) : Spares f s (performTo depth s c).1 := by
    induction depth generalizing s c with
    | zero => exact .refl s
    | succ depth ih => exact performWith_spares ih s c
  exact hdepth _ s c

/-! ## Operations -/

theorem FollowStretch.spares (h : FollowStretch s t) : Spares f s t := by
  induction h with
  | refl => exact .refl s
  | @tail a _ _ hmove ih =>
    obtain ⟨q, w, _, rfl⟩ := hmove
    have hswitch : Spares f a (({ a with pool := q } : Manager).record (.switched w)) :=
      .same rfl rfl
    exact (ih.trans hswitch).trans (announceWith_spares act_spares _ _)

theorem publishStatus_spares (s : Manager) (probed : List (Connection × Bool)) :
    Spares f s (s.publishStatus probed) := by
  unfold publishStatus
  split
  · exact .refl s
  · split
    · rw [announce_eq]
      exact announceWith_spares act_spares s _
    · exact .refl s

theorem begin_spares (s : Manager) (op : Operation) : Spares f s (s.begin op).1 :=
  (begin_followed s op).spares

theorem resume_spares (s : Manager) (options : CheckOptions) (stage : Stage)
    (probed : List (Connection × Bool)) : Spares f s (s.resume options stage probed).1 :=
  (publishStatus_spares s probed).trans (resume_followed s options stage probed).spares

theorem land_nextId (s : Manager) (id : FlightId) (owner : Owner) (reply : Reply) :
    (s.land id owner reply).nextId = s.nextId := by
  obtain ⟨answers, poller, loops, timers, ready, trace, hland⟩ := land_eq s id owner reply
  rw [hland]

theorem proceed_spares (s : Manager) (hne : f ≠ id) (owner : Owner) (progress : Progress) :
    Spares f s (s.proceed id owner progress) := by
  cases progress with
  | await options stage conns =>
    obtain ⟨probes, started, ready, hlaunch, _⟩ := launch_eq s id owner options stage conns
    show Spares f s (s.launch id owner options stage conns)
    rw [hlaunch]
    exact (setFlight_spares s hne).trans (.same rfl rfl)
  | done reply =>
    refine ⟨Nat.le_of_eq (land_nextId s id owner reply).symm, fun _ => ?_⟩
    show (s.land id owner reply).flights.lookup f = s.flights.lookup f
    rw [land_flights]
    exact lookup_without_ne s.flights hne

theorem runFlight_spares (s : Manager) (hne : f ≠ id) : Spares f s (s.runFlight id) := by
  have hturn := runFlight_turn s id
  generalize s.runFlight id = after at hturn ⊢
  cases hturn with
  | waits _ => exact .refl s
  | @begins owner op _ => exact (begin_spares s op).trans (proceed_spares _ hne owner _)
  | @breaks owner _ _ _ _ _ _ _ => exact proceed_spares s hne owner (.done _)
  | @goesOn owner options stage _ probed _ _ _ =>
    exact (resume_spares s options stage probed).trans (proceed_spares _ hne owner _)

theorem setProbe_spares (s : Manager) (hne : f ≠ id) (index : Nat) (state : ProbeState) :
    Spares f s (s.setProbe id index state) := by
  unfold setProbe
  split
  · exact setFlight_spares s hne
  · exact .refl s

theorem endProbe_spares (s : Manager) (hne : f ≠ id) (index : Nat) (c : Connection)
    (outcome : Probe.Outcome) : Spares f s (s.endProbe id index c outcome) := by
  have hnoted : Spares f s ({ s with pool := s.pool.observe c outcome }.record
      (.probeEnded c outcome)) := .same rfl rfl
  exact (hnoted.trans (setProbe_spares _ hne index _)).trans (wake_spares _ _)

theorem ProbeTurn.spares {index : Nat} (h : ProbeTurn id index s t) (hne : f ≠ id) :
    Spares f s t := by
  have hprobing (p : BatchProbe) : Spares f s (s.probing p) := .same rfl rfl
  have hset (p : BatchProbe) (state : ProbeState) :
      Spares f s ((s.probing p).setProbe id index state) :=
    (hprobing p).trans (setProbe_spares _ hne index state)
  cases h with
  | nothing => exact .refl s
  | breaks _ _ _ => exact (hset _ .panicked).trans (wake_spares _ _)
  | waits outcome due _ _ => exact (hset _ (.waiting outcome)).trans (.same rfl rfl)
  | answers outcome _ _ => exact (hprobing _).trans (endProbe_spares _ hne index _ outcome)
  | ends _ _ => exact endProbe_spares s hne index _ _

/-- An operation that has just begun takes its first turn. -/
theorem runBegun_spares (s : Manager) (flight : Flight) :
    Spares f s (({ s with nextId := s.nextId + 1 }.setFlight s.nextId flight).runFlight
      s.nextId) := by
  let begun : Manager := { s with nextId := s.nextId + 1 }.setFlight s.nextId flight
  have hbegun : Spares f s begun := begun_spares s flight
  have hlater : Spares (s.nextId + 1) begun (begun.runFlight s.nextId) :=
    runFlight_spares begun (Nat.succ_ne_self _)
  have hlast : s.nextId < (begun.runFlight s.nextId).nextId := hlater.nextId
  -- the number of the new operation was free before, and will not be given out again
  refine ⟨Nat.le_of_lt hlast, fun hf => ?_⟩
  have hne : f ≠ s.nextId :=
    hf.elim Nat.ne_of_lt fun hf => (Nat.ne_of_lt (Nat.lt_of_lt_of_le hlast hf)).symm
  exact (hbegun.trans (runFlight_spares begun hne)).lookup hf

theorem runLoop_spares (s : Manager) (loop : LoopId) : Spares f s (s.runLoop loop) := by
  have hturn := runLoop_turn s loop
  generalize s.runLoop loop = after at hturn ⊢
  cases hturn with
  | gone _ => exact .refl s
  | quits _ _ => exact .same rfl rfl
  | @begins l _ _ _ =>
    let begun : Manager := s.setLoop loop { l with
      iterations := l.iterations + 1
      due := nextTick l.options.period l.due s.now
      began := s.now }
    have hbegun : Spares f s begun := .same rfl rfl
    exact hbegun.trans (runBegun_spares begun ⟨.loop loop, .queued (.poll l.options)⟩)
  | waits _ _ _ => exact .same rfl rfl

/-- An operation stays as it is in every move but its own turns and those of its probes. -/
theorem next_spares {m : Move} (hm : m.concerns f = false) : Spares f s (s.next m) := by
  cases m with
  | call c =>
    dsimp only [next]
    by_cases hheld : s.held = true
    · rw [perform_eq hheld]
      exact act_spares s c
    · unfold perform
      rw [if_neg hheld]
      exact .refl s
  | await r =>
    dsimp only [next]
    split
    · exact runBegun_spares s ⟨.caller, .queued (s.operation r)⟩
    · exact .refl s
  | turn task =>
    have herased : Spares f s { s with ready := s.ready.erase task } := .same rfl rfl
    dsimp only [next, runTask]
    split
    · cases task with
      | probe id index =>
        have hne : f ≠ id := fun h => by simp [Move.concerns, h] at hm
        exact herased.trans ((runProbe_turn _ id index).spares hne)
      | flight id =>
        have hne : f ≠ id := fun h => by simp [Move.concerns, h] at hm
        exact herased.trans (runFlight_spares _ hne)
      | loop id => exact herased.trans (runLoop_spares _ id)
    · exact .refl s
  | clock time =>
    obtain ⟨timers, ready, hclock⟩ := moveClock_eq s time
    dsimp only [next]
    rw [hclock]
    exact .same rfl rfl
  | collect id => exact .same rfl rfl
  | forget name => exact .same rfl rfl
  | idle tasks => exact .same rfl rfl

end Manager

end RpcPool

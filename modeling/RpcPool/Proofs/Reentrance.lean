import RpcPool.Proofs.Callbacks

/-!
# Listeners that call back

A listener may answer with a call that moves the current pointer. The move is made known at once, in
a round of its own, and only then the round goes on that the listener was called in. So a listener
that comes later in the order of registration hears of the second move before it hears of the first,
and what it is told last is out of date. When it is called it can still find out what is current:
whatever happens afterwards it is called again.

Results:
1. `announceWith_informed`, `act_follows`: after a round or a call, a listener has been called
   since the pointer last moved; what it was told last is current, unless one that comes before it
   answered with a move.
2. `next_follows`, `run_follows`, `last_told`: the same for a move of a run, and for a whole run.
3. `answering_second_stale`: a run in which a listener is told last what is no longer current.
-/

namespace RpcPool

/-- What an event tells a listener. -/
def toldTo (name : String) (m : Moment) : Option (Option Connection) :=
  match m.event with
  | .notified other k => if other = name then some k else none
  | _ => none

/-- What a listener finds to be current when it is called in an event. -/
def foundBy (name : String) (m : Moment) : Option (Option Connection) :=
  match m.event with
  | .notified other _ => if other = name then some m.pool.registry.current else none
  | _ => none

/-- What some events say last, or `k` if they say nothing. -/
def lastly (f : Moment → Option (Option Connection)) (ms : List Moment) (k : Option Connection) :
    Option Connection :=
  (ms.filterMap f).getLastD k

/-- A call that adds no listener which changes who listens. -/
def Call.Tame : Call → Prop
  | .addListener _ reaction _ => ∀ c ∈ reaction, c.sparesListeners = true
  | _ => True

def Move.Tame : Move → Prop
  | .call c => c.Tame
  | _ => True

section

variable {f : Moment → Option (Option Connection)} {name : String} {ms ms' : List Moment}
  {j k : Option Connection}

theorem lastly_append : lastly f (ms ++ ms') k = lastly f ms' (lastly f ms k) := by
  unfold lastly
  rw [List.filterMap_append, getLastD_append]

theorem lastly_silent (h : ∀ m ∈ ms, f m = none) : lastly f ms k = k := by
  unfold lastly
  rw [List.filterMap_eq_nil_iff.mpr h]
  rfl

/-- Once something has been said, it does not matter what was known before. -/
theorem lastly_said {m : Moment} (hm : m ∈ ms) (h : (f m).isSome = true) :
    lastly f ms j = lastly f ms k := by
  obtain ⟨x, hx⟩ := Option.isSome_iff_exists.mp h
  have hmem : x ∈ ms.filterMap f := List.mem_filterMap.mpr ⟨m, hm, hx⟩
  unfold lastly
  cases hall : ms.filterMap f with
  | nil =>
    rw [hall] at hmem
    exact absurd hmem List.not_mem_nil
  | cons y rest => rw [List.getLastD_cons, List.getLastD_cons]

theorem toldTo_silent {m : Moment} (h : m.event.told? = none) (name : String) :
    toldTo name m = none := by
  unfold toldTo
  split
  · next heq =>
    rw [heq] at h
    exact absurd h (by simp [Event.told?])
  · rfl

theorem foundBy_silent {m : Moment} (h : m.event.told? = none) (name : String) :
    foundBy name m = none := by
  unfold foundBy
  split
  · next heq =>
    rw [heq] at h
    exact absurd h (by simp [Event.told?])
  · rfl

end

namespace Manager

open Relation

variable {name : String} {ahead behind : List String} {inner : Performer} {s t u : Manager}
  {k : Option Connection}

/-- One of some listeners has answered with a call that may move the current pointer. -/
def Interferes (ahead : List String) (s t : Manager) : Prop :=
  ∃ other ∈ ahead, ∃ used, s.script other = used ++ t.script other ∧
    ∃ calls ∈ used, ∃ c ∈ calls, c.moves = true

/-- The manager is held, no answer changes who listens, and a listener is registered for the last
time right after some others. -/
structure Awaited (name : String) (ahead behind : List String) (s : Manager) : Prop where
  held : s.held = true
  sparing : s.Sparing
  subscribers : s.subscribers = ahead ++ name :: behind
  last : name ∉ behind

/-- A listener has been called since the pointer last moved. -/
structure Tracks (name : String) (s t : Manager) : Prop where
  steady : Steady s t
  found : lastly (foundBy name) (since s t) s.current = t.current

/-- What a listener was told last is current as well, unless one that comes before it has answered
with a move. -/
structure Follows (name : String) (ahead : List String) (s t : Manager) : Prop
    extends Tracks name s t where
  told : lastly (toldTo name) (since s t) s.current = t.current ∨ Interferes ahead s t

/-- A way to carry out calls after which a listener is up to date. -/
def Faithful (name : String) (ahead behind : List String) (inner : Performer) : Prop :=
  ∀ s c, s.Awaited name ahead behind → c.sparesListeners = true →
    Follows name ahead s (inner s c).1

/-- A way to carry out calls that makes nothing known unless the pointer may move. -/
def Discreet (inner : Performer) : Prop := ∀ s c, c.moves = false → Unheard s (inner s c).1

/-! ## Composition -/

theorem Steady.awaited (h : Steady s t) (hs : s.Awaited name ahead behind) :
    t.Awaited name ahead behind where
  held := h.held.trans hs.held
  sparing := h.sparing hs.sparing
  subscribers := h.subscribers.trans hs.subscribers
  last := hs.last

theorem Interferes.before (h : Interferes ahead s t) (htu : Steady t u) : Interferes ahead s u := by
  obtain ⟨other, hother, used, hscript, calls, hcalls, hmoves⟩ := h
  obtain ⟨more, hmore⟩ := htu.scripts other
  refine ⟨other, hother, used ++ more, ?_, calls, List.mem_append_left _ hcalls, hmoves⟩
  rw [hscript, ← hmore, List.append_assoc]

theorem Interferes.after (hst : Steady s t) (h : Interferes ahead t u) : Interferes ahead s u := by
  obtain ⟨other, hother, used, hscript, calls, hcalls, hmoves⟩ := h
  obtain ⟨more, hmore⟩ := hst.scripts other
  refine ⟨other, hother, more ++ used, ?_, calls, List.mem_append_right _ hcalls, hmoves⟩
  rw [← hmore, hscript, List.append_assoc]

theorem Tracks.trans (h : Tracks name s t) (h' : Tracks name t u) : Tracks name s u where
  steady := h.steady.trans h'.steady
  found := by
    rw [since_append h.steady.later h'.steady.later, lastly_append, h.found]
    exact h'.found

theorem Follows.trans (h : Follows name ahead s t) (h' : Follows name ahead t u) :
    Follows name ahead s u where
  toTracks := h.toTracks.trans h'.toTracks
  told := by
    rcases h.told with htold | hinterferes
    · rcases h'.told with htold' | hinterferes
      · left
        rw [since_append h.steady.later h'.steady.later, lastly_append, htold]
        exact htold'
      · exact Or.inr (hinterferes.after h.steady)
    · exact Or.inr (hinterferes.before h'.steady)

theorem Unheard.lastly_told (h : Unheard s t) (name : String) (k : Option Connection) :
    lastly (toldTo name) (since s t) k = k :=
  lastly_silent fun m hm => toldTo_silent (h.told m hm) name

theorem Unheard.lastly_found (h : Unheard s t) (name : String) (k : Option Connection) :
    lastly (foundBy name) (since s t) k = k :=
  lastly_silent fun m hm => foundBy_silent (h.told m hm) name

theorem Still.tracks (h : Still s t) : Tracks name s t where
  steady := h.steady
  found := (h.lastly_found name _).trans h.current.symm

theorem Still.follows (h : Still s t) : Follows name ahead s t where
  toTracks := h.tracks
  told := Or.inl ((h.lastly_told name _).trans h.current.symm)

/-! ## One listener is called -/

theorem foldl_reactWith_follows (hinner : Faithful name ahead behind inner) {calls : List Call}
    (hcalls : ∀ c ∈ calls, c.sparesListeners = true) (hs : s.Awaited name ahead behind) :
    Follows name ahead s (calls.foldl (reactWith inner) s) := by
  induction calls generalizing s with
  | nil => exact (Still.refl s).follows
  | cons c rest ih =>
    have hcall : Follows name ahead s (inner s c).1 := hinner s c hs (hcalls c List.mem_cons_self)
    have hreact : Follows name ahead s (reactWith inner s c) :=
      hcall.trans (Still.record rfl (inner s c).1).follows
    exact hreact.trans
      (ih (fun d hd => hcalls d (List.mem_cons_of_mem _ hd)) (hreact.steady.awaited hs))

theorem foldl_reactWith_unheard (hinner : Discreet inner) {calls : List Call}
    (hcalls : ∀ c ∈ calls, c.moves = false) : Unheard s (calls.foldl (reactWith inner) s) := by
  induction calls generalizing s with
  | nil => exact .same rfl rfl
  | cons c rest ih =>
    have hcall : Unheard s (inner s c).1 := hinner s c (hcalls c List.mem_cons_self)
    have hreact : Unheard s (reactWith inner s c) :=
      hcall.trans (Still.record rfl (inner s c).1).toUnheard
    exact hreact.trans (ih fun d hd => hcalls d (List.mem_cons_of_mem _ hd))

/-- A listener is called, and its next answer is taken out of its script. -/
structure Called (other : String) (k : Option Connection) (calls : List Call) (s t : Manager) :
    Prop where
  steady : Steady s t
  since : since s t = [⟨s.now, s.pool, .notified other k⟩]
  current : t.current = s.current
  answer : calls = [] ∨ s.script other = calls :: t.script other

theorem deliverWith_called (held : s.held = true) (inner : Performer) (k : Option Connection)
    (other : String) : ∃ calls a, Called other k calls s a ∧
      deliverWith inner k s other = calls.foldl (reactWith inner) a := by
  unfold deliverWith
  rw [if_pos held]
  dsimp only
  split
  · next calls rest hl =>
    have hlookup : s.listeners.lookup other = some ⟨calls :: rest⟩ := hl
    refine ⟨calls, _, ⟨steady_answer hlookup k, since_of_trace rfl, rfl, Or.inr ?_⟩, rfl⟩
    rw [script_of_lookup hlookup, script_of_lookup (lookup_upsert_self other ⟨rest⟩ s.listeners)]
  · refine ⟨[], s.record (.notified other k), ⟨?_, since_record s _, rfl, Or.inl rfl⟩, rfl⟩
    exact ⟨later_record s _, rfl, rfl, fun _ => List.suffix_rfl⟩

section Called

variable {other : String} {calls : List Call}

theorem Called.spares (h : Called other k calls s t) (hs : s.Sparing) :
    ∀ c ∈ calls, c.sparesListeners = true := by
  rcases h.answer with rfl | hscript
  · exact fun c hc => absurd hc List.not_mem_nil
  · exact hs other calls (hscript ▸ List.mem_cons_self)

theorem Called.lastly_told (h : Called other k calls s t) (name : String) (j : Option Connection) :
    lastly (toldTo name) (Manager.since s t) j = if other = name then k else j := by
  rw [h.since]
  by_cases hname : other = name
  · simp [lastly, toldTo, hname]
  · simp [lastly, toldTo, hname]

theorem Called.tracks (h : Called other k calls s t) (name : String) : Tracks name s t where
  steady := h.steady
  found := by
    rw [h.since, h.current]
    by_cases hname : other = name
    · simp [lastly, foundBy, hname]
    · simp [lastly, foundBy, hname]

theorem Called.follows (h : Called other k calls s t) (hname : other = name → s.current = k) :
    Follows name ahead s t where
  toTracks := h.tracks name
  told := by
    left
    rw [h.lastly_told, h.current]
    split
    · next heq => exact (hname heq).symm
    · rfl

end Called

/-- A listener that is called finds out what is current, and everything that comes of its answer is
made known as well. -/
theorem deliverWith_tracks (hinner : Faithful name ahead behind inner)
    (hs : s.Awaited name ahead behind) (k : Option Connection) (other : String) :
    Tracks name s (deliverWith inner k s other) := by
  obtain ⟨calls, a, hcalled, heq⟩ := deliverWith_called hs.held inner k other
  rw [heq]
  exact (hcalled.tracks name).trans (foldl_reactWith_follows hinner (hcalled.spares hs.sparing)
    (hcalled.steady.awaited hs)).toTracks

theorem deliverWith_heard (hinner : Faithful name ahead behind inner)
    (hs : s.Awaited name ahead behind) (k : Option Connection) :
    ∃ m ∈ since s (deliverWith inner k s name),
      (toldTo name m).isSome = true ∧ (foundBy name m).isSome = true := by
  obtain ⟨calls, a, hcalled, heq⟩ := deliverWith_called hs.held inner k name
  have hreact := (foldl_reactWith_follows hinner (hcalled.spares hs.sparing)
    (hcalled.steady.awaited hs)).steady
  refine ⟨⟨s.now, s.pool, .notified name k⟩, ?_, by simp [toldTo, foundBy]⟩
  rw [heq, since_append hcalled.steady.later hreact.later, hcalled.since]
  exact List.mem_cons_self

theorem deliverWith_follows (hinner : Faithful name ahead behind inner)
    (hs : s.Awaited name ahead behind) {other : String} (hname : other = name → s.current = k) :
    Follows name ahead s (deliverWith inner k s other) := by
  obtain ⟨calls, a, hcalled, heq⟩ := deliverWith_called hs.held inner k other
  rw [heq]
  exact (hcalled.follows hname).trans (foldl_reactWith_follows hinner (hcalled.spares hs.sparing)
    (hcalled.steady.awaited hs))

/-- If a listener that comes before does not answer with a move, the pointer stays where it is. -/
theorem deliverWith_ahead (hinner : Faithful name ahead behind inner) (hdiscreet : Discreet inner)
    (hs : s.Awaited name ahead behind) (hk : s.current = k) {other : String}
    (hother : other ∈ ahead) :
    ((deliverWith inner k s other).current = k ∧
        lastly (toldTo name) (since s (deliverWith inner k s other)) k = k) ∨
      Interferes ahead s (deliverWith inner k s other) := by
  obtain ⟨calls, a, hcalled, heq⟩ := deliverWith_called hs.held inner k other
  have hreact := (foldl_reactWith_follows hinner (hcalled.spares hs.sparing)
    (hcalled.steady.awaited hs)).steady
  rw [heq]
  by_cases hmoves : ∃ c ∈ calls, c.moves = true
  · right
    obtain ⟨more, hmore⟩ := hreact.scripts other
    rcases hcalled.answer with rfl | hscript
    · obtain ⟨c, hc, _⟩ := hmoves
      exact absurd hc List.not_mem_nil
    · refine ⟨other, hother, calls :: more, ?_, calls, List.mem_cons_self, hmoves⟩
      rw [hscript, ← hmore, List.cons_append]
  · left
    have hquiet : Unheard a (calls.foldl (reactWith inner) a) :=
      foldl_reactWith_unheard hdiscreet fun c hc => by
        rw [← Bool.not_eq_true]
        exact fun hm => hmoves ⟨c, hc, hm⟩
    refine ⟨hquiet.current.trans (hcalled.current.trans hk), ?_⟩
    rw [since_append hcalled.steady.later hquiet.later, lastly_append, hcalled.lastly_told,
      ite_self, hquiet.lastly_told]

/-! ## Rounds -/

theorem foldl_deliverWith_tracks (hinner : Faithful name ahead behind inner)
    (hs : s.Awaited name ahead behind) (k : Option Connection) (names : List String) :
    Tracks name s (names.foldl (deliverWith inner k) s) := by
  induction names generalizing s with
  | nil => exact (Still.refl s).tracks
  | cons other rest ih =>
    have hfirst := deliverWith_tracks hinner hs k other
    exact hfirst.trans (ih (hfirst.steady.awaited hs))

theorem foldl_deliverWith_ahead (hinner : Faithful name ahead behind inner)
    (hdiscreet : Discreet inner) (hs : s.Awaited name ahead behind) (hk : s.current = k)
    {names : List String} (hnames : ∀ other ∈ names, other ∈ ahead) :
    ((names.foldl (deliverWith inner k) s).current = k ∧
        lastly (toldTo name) (since s (names.foldl (deliverWith inner k) s)) k = k) ∨
      Interferes ahead s (names.foldl (deliverWith inner k) s) := by
  induction names generalizing s with
  | nil =>
    left
    exact ⟨hk, (Still.refl s).lastly_told name k⟩
  | cons other rest ih =>
    have hfirst := deliverWith_tracks hinner hs k other
    have hawaited := hfirst.steady.awaited hs
    have hrest := foldl_deliverWith_tracks hinner hawaited k rest
    rw [List.foldl_cons]
    rcases deliverWith_ahead hinner hdiscreet hs hk (hnames other List.mem_cons_self) with
      ⟨hcurrent, htold⟩ | hinterferes
    · rcases ih hawaited hcurrent fun d hd => hnames d (List.mem_cons_of_mem _ hd) with
        ⟨hcurrent', htold'⟩ | hinterferes
      · left
        refine ⟨hcurrent', ?_⟩
        rw [since_append hfirst.steady.later hrest.steady.later, lastly_append, htold, htold']
      · exact Or.inr (hinterferes.after hfirst.steady)
    · exact Or.inr (hinterferes.before hrest.steady)

theorem foldl_deliverWith_behind (hinner : Faithful name ahead behind inner)
    (hs : s.Awaited name ahead behind) {names : List String} (hnames : name ∉ names) :
    Follows name ahead s (names.foldl (deliverWith inner k) s) := by
  induction names generalizing s with
  | nil => exact (Still.refl s).follows
  | cons other rest ih =>
    have hne : other = name → s.current = k :=
      fun heq => absurd (heq ▸ List.mem_cons_self) hnames
    have hfirst := deliverWith_follows hinner hs hne
    exact hfirst.trans (ih (hfirst.steady.awaited hs) fun hmem =>
      hnames (List.mem_cons_of_mem _ hmem))

/-- A listener is up to date after a round, and it has been called in it. -/
structure Informed (name : String) (ahead : List String) (s t : Manager) : Prop
    extends Follows name ahead s t where
  called : ∃ m ∈ since s t, (toldTo name m).isSome = true ∧ (foundBy name m).isSome = true

theorem announceWith_informed (hinner : Faithful name ahead behind inner)
    (hdiscreet : Discreet inner) (hs : s.Awaited name ahead behind) (hk : s.current = k) :
    Informed name ahead s (announceWith inner s k) := by
  let noted : Manager := s.record (.announced k s.subscribers.length)
  let told : Manager := ahead.foldl (deliverWith inner k) noted
  have hnote : Still s noted := .record rfl s
  have hnoted : noted.Awaited name ahead behind := hnote.steady.awaited hs
  have hahead : Tracks name noted told := foldl_deliverWith_tracks hinner hnoted k ahead
  have htold : told.Awaited name ahead behind := hahead.steady.awaited hnoted
  have hself : Tracks name told (deliverWith inner k told name) :=
    deliverWith_tracks hinner htold k name
  have hbehind : Follows name ahead (deliverWith inner k told name)
      (behind.foldl (deliverWith inner k) (deliverWith inner k told name)) :=
    foldl_deliverWith_behind hinner (hself.steady.awaited htold) hs.last
  have hround : announceWith inner s k =
      behind.foldl (deliverWith inner k) (deliverWith inner k told name) := by
    unfold announceWith
    rw [hs.subscribers, List.foldl_append, List.foldl_cons, ← hs.subscribers]
  have htracks := (hnote.tracks.trans hahead).trans (hself.trans hbehind.toTracks)
  rw [hround]
  refine ⟨⟨htracks, ?_⟩, ?_⟩
  · rcases foldl_deliverWith_ahead hinner hdiscreet hnoted hk fun _ h => h with
      ⟨hcurrent, hlast⟩ | hinterferes
    · -- nothing has come between, so the listener is told what is current
      have hfollows : Follows name ahead told (deliverWith inner k told name) :=
        deliverWith_follows hinner htold fun _ => hcurrent
      have hall : Follows name ahead noted told := ⟨hahead, Or.inl ?_⟩
      · exact ((hnote.follows.trans hall).trans (hfollows.trans hbehind)).told
      · rw [show noted.current = k from hk]
        exact hlast.trans hcurrent.symm
    · exact Or.inr ((hinterferes.before (hself.steady.trans hbehind.steady)).after hnote.steady)
  · obtain ⟨m, hm, hsaid⟩ := deliverWith_heard hinner htold k
    refine ⟨m, ?_, hsaid⟩
    rw [since_append (hnote.steady.trans hahead.steady).later
      (hself.steady.trans hbehind.steady).later,
      since_append hself.steady.later hbehind.steady.later]
    exact List.mem_append_right _ (List.mem_append_left _ hm)

/-- The round that makes a move known brings a listener up to date. -/
theorem Shifted.follows (h : Shifted s u k) (hsubscribers : u.subscribers = s.subscribers)
    (hround : Informed name ahead u t) : Follows name ahead s t := by
  have hsteady := h.steady hsubscribers
  obtain ⟨m, hm, htold, hfound⟩ := hround.called
  refine ⟨⟨hsteady.trans hround.steady, ?_⟩, ?_⟩
  · rw [since_append hsteady.later hround.steady.later, lastly_append, ← hround.found]
    exact lastly_said hm hfound
  · rw [since_append hsteady.later hround.steady.later, lastly_append, lastly_said hm htold]
    exact hround.told.imp_right fun hinterferes => hinterferes.after hsteady

/-! ## Calls -/

theorem performWith_discreet (inner : Performer) : Discreet (performWith inner) := by
  intro s c hc
  cases performWith_outcome inner s c with
  | unheard hunheard _ _ _ => exact hunheard
  | moved hmoves _ _ _ _ =>
    rw [hc] at hmoves
    exact absurd hmoves (by simp)

theorem performWith_faithful (hinner : Faithful name ahead behind inner)
    (hdiscreet : Discreet inner) : Faithful name ahead behind (performWith inner) := by
  intro s c hs hc
  cases performWith_outcome inner s c with
  | unheard _ _ hstill _ => exact (hstill hc).follows
  | @moved u k _ hshift _ hsubscribers ht =>
    have hsame : u.subscribers = s.subscribers := by
      rcases hsubscribers with hsame | ⟨_, rfl⟩
      · exact hsame
      · exact absurd hc (by simp [Call.sparesListeners])
    have hu := (hshift.steady hsame).awaited hs
    rw [ht]
    exact hshift.follows hsame (announceWith_informed hinner hdiscreet hu hshift.current)

/-- However deeply notifications are nested, a listener is up to date after a call. -/
theorem performTo_faithful (name : String) (ahead behind : List String) (depth : Nat) :
    Faithful name ahead behind (performTo depth) ∧ Discreet (performTo depth) := by
  induction depth with
  | zero => exact ⟨fun s c _ _ => (Still.refl s).follows, fun s c _ => .same rfl rfl⟩
  | succ depth ih =>
    obtain ⟨hfaithful, hdiscreet⟩ := ih
    exact ⟨performWith_faithful hfaithful hdiscreet, performWith_discreet _⟩

theorem act_follows (name : String) (ahead behind : List String) : Faithful name ahead behind act :=
  fun s c => (performTo_faithful name ahead behind _).1 s c

theorem act_discreet : Discreet act := fun s c => (performTo_faithful "" [] [] _).2 s c

theorem announce_informed (hs : s.Awaited name ahead behind) (hk : s.current = k) :
    Informed name ahead s (announceWith act s k) :=
  announceWith_informed (act_follows name ahead behind) act_discreet hs hk

/-! ## Moves -/

theorem FollowStretch.follows (hs : s.Awaited name ahead behind) (h : FollowStretch s t) :
    Follows name ahead s t := by
  induction h with
  | refl => exact (Still.refl s).follows
  | tail hsa hmove ih =>
    have ha := (FollowStretch.steady hsa hs.sparing).awaited hs
    obtain ⟨q, w, hmoved, rfl⟩ := hmove
    have hshift := shifted_of_moved hmoved
    exact ih.trans (hshift.follows rfl
      (announce_informed ((hshift.steady rfl).awaited ha) hshift.current))

theorem publishStatus_follows (hs : s.Awaited name ahead behind)
    (probed : List (Connection × Bool)) : Follows name ahead s (s.publishStatus probed) := by
  unfold publishStatus
  split
  · exact (Still.refl s).follows
  · next c hcurrent =>
    split
    · rw [announce_eq]
      exact (announce_informed hs hcurrent).toFollows
    · exact (Still.refl s).follows

theorem Course.follows {probed : List (Connection × Bool)} (hs : s.Awaited name ahead behind)
    (h : Course probed s t) : Follows name ahead s t := by
  obtain ⟨a, b, hbefore, hfollow, hafter⟩ := h
  have ha := hbefore.still.steady.awaited hs
  have hreport := publishStatus_follows ha probed
  have hmoves := FollowStretch.follows (hreport.steady.awaited ha) hfollow
  exact ((hbefore.still.follows.trans hreport).trans hmoves).trans hafter.still.follows

/-- Whoever is registered is registered for a last time. -/
theorem exists_awaited (hheld : s.held = true) (hsparing : s.Sparing)
    (hname : name ∈ s.subscribers) : ∃ ahead behind, s.Awaited name ahead behind := by
  obtain ⟨before, after, hsplit, hlast⟩ :=
    List.eq_append_cons_of_mem (List.mem_reverse.mpr hname)
  refine ⟨after.reverse, before.reverse, hheld, hsparing, ?_, fun hmem => ?_⟩
  · rw [← List.reverse_reverse s.subscribers, hsplit]
    simp
  · exact hlast (List.mem_reverse.mp hmem)

/-- In a move one of the listeners that are called before another one has answered with a call that
may move the current pointer. -/
def Overtaken (name : String) (s t : Manager) : Prop :=
  ∃ ahead behind, s.subscribers = ahead ++ name :: behind ∧ name ∉ behind ∧ Interferes ahead s t

theorem Follows.settled (h : Follows name ahead s t) (hs : s.Awaited name ahead behind) :
    s.trace <:+ t.trace ∧ lastly (foundBy name) (since s t) s.current = t.current ∧
      (lastly (toldTo name) (since s t) s.current = t.current ∨ Overtaken name s t) := by
  refine ⟨h.steady.later, h.found, h.told.imp_right fun hinterferes => ?_⟩
  exact ⟨ahead, behind, hs.subscribers, hs.last, hinterferes⟩

theorem perform_follows (hheld : s.held = true) (hs : s.Sparing) {c : Call}
    (hname : name ∈ s.subscribers) (hafter : name ∈ (s.perform c).1.subscribers) :
    s.trace <:+ (s.perform c).1.trace ∧
      lastly (foundBy name) (since s (s.perform c).1) s.current = (s.perform c).1.current ∧
      (lastly (toldTo name) (since s (s.perform c).1) s.current = (s.perform c).1.current ∨
        Overtaken name s (s.perform c).1) := by
  rw [perform_eq hheld, act_eq] at hafter ⊢
  cases performWith_outcome act s c with
  | unheard hunheard _ _ _ =>
    rw [hunheard.lastly_found, hunheard.lastly_told, hunheard.current]
    exact ⟨hunheard.later, rfl, Or.inl rfl⟩
  | @moved u k _ hshift _ hsubscribers ht =>
    obtain ⟨ahead, behind, hawaited⟩ := exists_awaited hheld hs hname
    rw [ht] at hafter ⊢
    rcases hsubscribers with hsame | ⟨hnone, _⟩
    · have hu := (hshift.steady hsame).awaited hawaited
      exact (hshift.follows hsame (announce_informed hu hshift.current)).settled hawaited
    · -- the listeners were dropped before anything was made known
      have hu : u.Sparing := fun other calls hcalls =>
        hs other calls (script_congr hshift.listeners other ▸ hcalls)
      rw [(announceWith_steady act_steady hu k).subscribers, hnone] at hafter
      exact absurd hafter List.not_mem_nil

/-- After a move a listener that stays registered has been called since the pointer last moved. -/
theorem next_follows (hheld : s.held = true) (hs : s.Sparing) {m : Move}
    (hname : name ∈ s.subscribers) (hafter : name ∈ (s.next m).subscribers) :
    s.trace <:+ (s.next m).trace ∧
      lastly (foundBy name) (since s (s.next m)) s.current = (s.next m).current ∧
      (lastly (toldTo name) (since s (s.next m)) s.current = (s.next m).current ∨
        Overtaken name s (s.next m)) := by
  by_cases hm : ∃ c, m = .call c
  · obtain ⟨c, rfl⟩ := hm
    exact perform_follows hheld hs hname hafter
  · obtain ⟨ahead, behind, hawaited⟩ := exists_awaited hheld hs hname
    have hcourse := next_course (s := s) (m := m) fun c hc => hm ⟨c, hc⟩
    exact (hcourse.follows hawaited).settled hawaited

/-- What listeners will answer changes nothing about who listens, as long as no listener is added
that does. -/
theorem next_sparing (hheld : s.held = true) (hs : s.Sparing) {m : Move} (hm : m.Tame) :
    (s.next m).Sparing := by
  by_cases hcall : ∃ c, m = .call c
  · obtain ⟨c, rfl⟩ := hcall
    dsimp only [next]
    rw [perform_eq hheld]
    rw [act_eq]
    have hlisteners {u : Manager} (hu : u.listeners = s.listeners) : u.Sparing :=
      fun name calls hcalls => hs name calls (script_congr hu name ▸ hcalls)
    cases performWith_outcome act s c with
    | @moved u k _ hshift _ _ ht =>
      have hu := hlisteners hshift.listeners
      rw [ht]
      exact (announceWith_steady act_steady hu k).sparing hu
    | unheard _ _ _ hsame =>
      rcases hsame with hsame | ⟨name, reaction, times, rfl⟩
      · exact hlisteners hsame
      · intro other calls hcalls
        rcases mem_script_addListener hcalls with hold | rfl
        · exact hs other calls hold
        · exact hm
  · have hcourse := next_course (s := s) (m := m) fun c hc => hcall ⟨c, hc⟩
    exact (hcourse.steady hs).sparing hs

/-! ## Runs -/

/-- A listener is registered throughout a run with a manager that is held, and no listener is added
that changes who listens. -/
def Throughout (name : String) (s : Manager) : List Move → Prop
  | [] => name ∈ s.subscribers
  | m :: rest =>
    s.held = true ∧ name ∈ s.subscribers ∧ m.Tame ∧ Throughout name (s.next m) rest

theorem Throughout.registered {moves : List Move} (h : Throughout name s moves) :
    name ∈ s.subscribers := by
  cases moves with
  | nil => exact h
  | cons m rest => exact h.2.1

/-- The last move of a run that has told a listener anything is one in which it was overtaken. -/
def OvertakenLast (name : String) (s : Manager) (moves : List Move) : Prop :=
  ∃ before m after, moves = before ++ m :: after ∧
    Overtaken name (before.foldl next s) ((before.foldl next s).next m) ∧
    (∃ n ∈ since (before.foldl next s) ((before.foldl next s).next m),
      (toldTo name n).isSome = true) ∧
    ∀ n ∈ since ((before.foldl next s).next m) (moves.foldl next s), toldTo name n = none

theorem OvertakenLast.cons {m : Move} {rest : List Move} (h : OvertakenLast name (s.next m) rest) :
    OvertakenLast name s (m :: rest) := by
  obtain ⟨before, m', after, rfl, hovertaken, htold, hsilent⟩ := h
  exact ⟨m :: before, m', after, rfl, hovertaken, htold, hsilent⟩

theorem lastly_told_of_silent {ms : List Moment}
    (hfound : lastly (foundBy name) ms s.current = t.current)
    (h : ∀ m ∈ ms, toldTo name m = none) : lastly (toldTo name) ms s.current = t.current := by
  rw [lastly_silent h, ← hfound]
  refine (lastly_silent fun m hm => ?_).symm
  have htold := h m hm
  unfold toldTo at htold
  unfold foundBy
  split
  · next other j hevent =>
    rw [hevent] at htold
    split
    · next hname => exact absurd htold (by simp [hname])
    · rfl
  · rfl

/-- After a run in which a listener stays registered it has been called since the pointer last
moved. -/
theorem run_follows {moves : List Move} (hs : s.Sparing) (h : Throughout name s moves) :
    s.trace <:+ (moves.foldl next s).trace ∧
      lastly (foundBy name) (since s (moves.foldl next s)) s.current =
        (moves.foldl next s).current ∧
      (lastly (toldTo name) (since s (moves.foldl next s)) s.current =
          (moves.foldl next s).current ∨ OvertakenLast name s moves) := by
  induction moves generalizing s with
  | nil =>
    have hquiet : Unheard s s := .same rfl rfl
    exact ⟨List.suffix_rfl, hquiet.lastly_found name _, Or.inl (hquiet.lastly_told name _)⟩
  | cons m rest ih =>
    obtain ⟨hheld, hname, htame, hrest⟩ := h
    obtain ⟨hlater, hfound, htold⟩ := next_follows hheld hs hname hrest.registered
    obtain ⟨hlater', hfound', htold'⟩ := ih (next_sparing hheld hs htame) hrest
    rw [List.foldl_cons, since_append hlater hlater', lastly_append, lastly_append, hfound]
    refine ⟨hlater.trans hlater', hfound', ?_⟩
    rcases htold' with htold' | hovertaken
    · by_cases hsilent : ∀ n ∈ since (s.next m) (rest.foldl next (s.next m)), toldTo name n = none
      · -- nothing was told after the move, so it depends on the move itself
        have hsame : (s.next m).current = (rest.foldl next (s.next m)).current := by
          rw [← htold']
          exact (lastly_silent hsilent).symm
        rw [lastly_silent hsilent]
        by_cases hheard : ∃ n ∈ since s (s.next m), (toldTo name n).isSome = true
        · refine (htold.imp_left fun h => h.trans hsame).imp_right fun hovertaken => ?_
          exact ⟨[], m, rest, rfl, hovertaken, hheard, hsilent⟩
        · left
          refine (lastly_told_of_silent hfound fun n hn => ?_).trans hsame
          rw [← Option.not_isSome_iff_eq_none]
          exact fun hsome => hheard ⟨n, hn, hsome⟩
      · left
        push Not at hsilent
        obtain ⟨n, hn, hsome⟩ := hsilent
        rw [← htold']
        exact lastly_said hn (Option.isSome_iff_ne_none.mpr hsome)
    · exact Or.inr hovertaken.cons

/-- However listeners call back, one that is registered throughout was called last when the current
connection was the one that is current now. That is also what it was told last, unless in the last
move that has told it anything a listener registered before it has answered with another move. -/
theorem last_told {moves : List Move} (hs : s.Sparing) (h : Throughout name s moves) :
    lastly (foundBy name) (since s (moves.foldl next s)) s.current = (moves.foldl next s).current ∧
      (lastly (toldTo name) (since s (moves.foldl next s)) s.current =
          (moves.foldl next s).current ∨ OvertakenLast name s moves) := by
  obtain ⟨_, hfound, htold⟩ := run_follows hs h
  exact ⟨hfound, htold⟩

/-- Two listeners, of which the first answers its first notification by making B current. -/
def answering : Manager :=
  [.call (.addUri "A" none), .call (.addUri "B" none),
    .call (.addListener "first" [.selectUri "B"] 1), .call (.addListener "second" [] 0)].foldl next
      (idle ⟨[]⟩ true)

/-- No listener comes before the first one, so nothing can overtake it. -/
theorem answering_first_told :
    let after := answering.next (.call (.selectUri "A"))
    lastly (toldTo "first") (since answering after) answering.current = after.current ∧
      after.current = some ⟨1, { uri := "B" }⟩ := by
  have sparing : answering.Sparing := by
    intro name calls hcalls
    have hlisteners : answering.listeners =
        [("second", ⟨[]⟩), ("first", ⟨[[.selectUri "B"]]⟩)] := rfl
    obtain ⟨e, he, hscript⟩ := mem_script hcalls
    rw [hlisteners] at he
    simp only [List.mem_cons, List.not_mem_nil, or_false] at he
    rcases he with rfl | rfl
    · exact absurd hscript List.not_mem_nil
    · rw [List.mem_singleton.mp hscript]
      simp [Call.sparesListeners]
  have hafter : "first" ∈ (answering.next (.call (.selectUri "A"))).subscribers := by
    decide +kernel
  have throughout : Throughout "first" answering [.call (.selectUri "A")] :=
    ⟨rfl, by decide, trivial, hafter⟩
  refine ⟨?_, by decide +kernel⟩
  obtain ⟨_, htold | hovertaken⟩ := last_told sparing throughout
  · exact htold
  · obtain ⟨before, m, rest, hmoves, ⟨ahead, behind, hsubscribers, _, other, hother, _⟩, _⟩ :=
      hovertaken
    have hbefore : before = [] := by
      cases before with
      | nil => rfl
      | cons x before => exact absurd (congrArg List.length hmoves) (by simp)
    have horder : answering.subscribers = ["first", "second"] := rfl
    have hahead : ahead = [] := by
      rw [hbefore, List.foldl_nil, horder] at hsubscribers
      cases ahead with
      | nil => rfl
      | cons x ahead =>
        obtain ⟨_, hrest⟩ := List.cons.inj hsubscribers
        cases ahead with
        | nil => exact absurd (List.cons.inj hrest).1 (by decide)
        | cons y ahead => exact absurd (congrArg List.length hrest) (by simp)
    rw [hahead] at hother
    exact absurd hother List.not_mem_nil

/-- The second listener is told of B before it is told of A, and in the end B is current. -/
theorem answering_second_stale :
    let after := answering.next (.call (.selectUri "A"))
    "second" ∈ answering.subscribers ∧ "second" ∈ after.subscribers ∧
      lastly (toldTo "second") (since answering after) answering.current =
        some ⟨0, { uri := "A" }⟩ ∧
      after.current = some ⟨1, { uri := "B" }⟩ := by
  decide +kernel

end Manager

end RpcPool

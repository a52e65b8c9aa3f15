import RpcPool.Proofs.Sections

/-!
# How deeply notifications are nested

A listener answers a notification with calls, and these can bring about the next notification before
the first has come to its end. Every answer uses up one of the reactions that are laid down, so
notifications are nested only so deeply, and the depth to which calls are carried out cuts nothing
off.

Results:
1. `Agree.performWith`: a call leaves no more reactions than there were, and depends on how the
   calls of listeners are carried out only where fewer are left.
2. `performTo_eq_act`: to any depth that exceeds the reactions left, a call is carried out in full.
3. `act_eq`, `announce_eq`, `follow_eq`: calls and notifications refer to each other with no depth
   between them.
-/

namespace RpcPool

namespace Manager

/-- Two ways to carry out calls that agree as long as fewer than `n` reactions are left, and bring
about no more reactions than a call has laid down. -/
structure Agree (n : Nat) (f g : Performer) : Prop where
  bound : ∀ s c, s.reactions + c.reactions < n → (f s c).1.reactions ≤ s.reactions + c.reactions
  same : ∀ s c, s.reactions + c.reactions < n → g s c = f s c

/-- The number of reactions that some listeners have left. -/
def reactionsLeft (known : List (String × Listener)) : Nat :=
  known.foldr (fun e n => e.2.reactions + n) 0

/-- Carries out a call, with everything that listeners answer. -/
def act : Performer := fun s c => performTo (s.reactions + c.reactions + 1) s c

variable {n : Nat} {f g : Performer} {s t : Manager}

/-! ## Counting reactions -/

theorem reactions_of_listeners (h : t.listeners = s.listeners) : t.reactions = s.reactions :=
  congrArg reactionsLeft h

theorem Frame.reactions {K : Connection → Prop} (h : Frame K s t) : t.reactions = s.reactions := by
  have hlisteners := congrArg listeners h.kept
  exact reactions_of_listeners hlisteners

theorem reactionsLeft_upsert (name : String) (l : Listener) (known : List (String × Listener)) :
    reactionsLeft (upsert name l known) = l.reactions + reactionsLeft (without name known) := rfl

theorem reactionsLeft_without_le (name : String) (known : List (String × Listener)) :
    reactionsLeft (without name known) ≤ reactionsLeft known := by
  induction known with
  | nil => exact Nat.le_refl 0
  | cons e rest ih =>
    unfold without at ih ⊢
    rw [List.filter_cons]
    split
    · exact Nat.add_le_add_left ih e.2.reactions
    · exact Nat.le_trans ih (Nat.le_add_left _ _)

theorem reactionsLeft_lookup {name : String} {l : Listener} {known : List (String × Listener)}
    (h : known.lookup name = some l) :
    l.reactions + reactionsLeft (without name known) ≤ reactionsLeft known := by
  induction known with
  | nil => exact absurd h (by simp)
  | cons e later ih =>
    obtain ⟨other, l'⟩ := e
    rw [List.lookup_cons] at h
    have hcons : reactionsLeft ((other, l') :: later) = l'.reactions + reactionsLeft later := rfl
    by_cases hname : other = name
    · have hhead : without name ((other, l') :: later) = without name later := by
        simp [without, hname]
      have hlater := reactionsLeft_without_le name later
      simp only [hname, beq_self_eq_true, Option.some.injEq] at h
      rw [hhead, hcons, h]
      omega
    · have hhead : without name ((other, l') :: later) = (other, l') :: without name later := by
        simp [without, hname]
      have hkeep : reactionsLeft ((other, l') :: without name later) =
          l'.reactions + reactionsLeft (without name later) := rfl
      rw [beq_false_of_ne fun heq => hname heq.symm] at h
      have hlater := ih h
      rw [hhead, hkeep, hcons]
      omega

/-- A listener that answers has one reaction less than before, and the calls of its answer are used
up. -/
theorem reactionsLeft_answer {name : String} {calls : List Call} {rest : List (List Call)}
    {known : List (String × Listener)} (h : known.lookup name = some ⟨calls :: rest⟩) :
    reactionsLeft (upsert name ⟨rest⟩ known) + Call.reactionsOf calls + 1 ≤
      reactionsLeft known := by
  have hl : (⟨calls :: rest⟩ : Listener).reactions =
      1 + Call.reactionsOf calls + (⟨rest⟩ : Listener).reactions := rfl
  have hknown := reactionsLeft_lookup h
  rw [reactionsLeft_upsert]
  omega

theorem reactions_replicate (times : Nat) (reaction : List Call) :
    (⟨List.replicate times reaction⟩ : Listener).reactions =
      times * (1 + Call.reactionsOf reaction) := by
  induction times with
  | zero => simp [Listener.reactions]
  | succ times ih =>
    have hone : (⟨List.replicate (times + 1) reaction⟩ : Listener).reactions =
        1 + Call.reactionsOf reaction + (⟨List.replicate times reaction⟩ : Listener).reactions :=
      rfl
    rw [hone, ih, Nat.succ_mul, Nat.add_comm]

/-! ## Notifications -/

theorem foldl_reactWith_agree (h : Agree n f g) (calls : List Call) (s : Manager)
    (hs : s.reactions + Call.reactionsOf calls < n) :
    (calls.foldl (reactWith f) s).reactions ≤ s.reactions + Call.reactionsOf calls ∧
      calls.foldl (reactWith g) s = calls.foldl (reactWith f) s := by
  induction calls generalizing s with
  | nil => exact ⟨Nat.le_refl _, rfl⟩
  | cons c rest ih =>
    have hcount : Call.reactionsOf (c :: rest) = c.reactions + Call.reactionsOf rest := by
      rw [Call.reactionsOf]
    have hsame : reactWith g s c = reactWith f s c := by
      unfold reactWith
      rw [h.same s c (by omega)]
    have hbound : (reactWith f s c).reactions ≤ s.reactions + c.reactions := h.bound s c (by omega)
    obtain ⟨hrest, heq⟩ := ih (reactWith f s c) (by omega)
    rw [List.foldl_cons, List.foldl_cons, hsame]
    exact ⟨by omega, heq⟩

theorem deliverWith_agree (h : Agree n f g) (current : Option Connection) (name : String)
    (hs : s.reactions ≤ n) :
    (deliverWith f current s name).reactions ≤ s.reactions ∧
      deliverWith g current s name = deliverWith f current s name := by
  unfold deliverWith
  split
  · dsimp only
    split
    · next calls rest hl =>
      let used : Manager :=
        { s.record (.notified name current) with listeners := upsert name ⟨rest⟩ s.listeners }
      -- the reaction is used up before its calls are carried out, so one less is left for them
      have hused : used.reactions + Call.reactionsOf calls + 1 ≤ s.reactions :=
        reactionsLeft_answer hl
      obtain ⟨hbound, heq⟩ := foldl_reactWith_agree h calls used (by omega)
      exact ⟨Nat.le_trans hbound (by omega), heq⟩
    · exact ⟨Nat.le_refl _, rfl⟩
  · exact ⟨Nat.le_refl _, rfl⟩

theorem announceWith_agree (h : Agree n f g) (current : Option Connection) (hs : s.reactions ≤ n) :
    (announceWith f s current).reactions ≤ s.reactions ∧
      announceWith g s current = announceWith f s current := by
  have hdeliver (names : List String) (t : Manager) (ht : t.reactions ≤ n) :
      (names.foldl (deliverWith f current) t).reactions ≤ t.reactions ∧
        names.foldl (deliverWith g current) t = names.foldl (deliverWith f current) t := by
    induction names generalizing t with
    | nil => exact ⟨Nat.le_refl _, rfl⟩
    | cons name rest ih =>
      obtain ⟨hbound, hsame⟩ := deliverWith_agree h current name ht
      obtain ⟨hrest, heq⟩ := ih (deliverWith f current t name) (Nat.le_trans hbound ht)
      rw [List.foldl_cons, List.foldl_cons, hsame]
      exact ⟨Nat.le_trans hrest hbound, heq⟩
  exact hdeliver s.subscribers (s.record (.announced current s.subscribers.length)) hs

theorem applyWith_agree (h : Agree n f g) (r : Registry × Change) (hs : s.reactions ≤ n) :
    (applyWith f s r).reactions ≤ s.reactions ∧ applyWith g s r = applyWith f s r := by
  obtain ⟨registry, change⟩ := r
  cases change with
  | unchanged => exact ⟨Nat.le_refl _, rfl⟩
  | changed current =>
    have hset : (s.setRegistry registry).reactions ≤ n := hs
    exact announceWith_agree h current hset

theorem settleWith_agree (h : Agree n f g) (r : Except PoolError (Registry × Change))
    (hs : s.reactions ≤ n) :
    (settleWith f s r).1.reactions ≤ s.reactions ∧ settleWith g s r = settleWith f s r := by
  cases r with
  | error e => exact ⟨Nat.le_refl _, rfl⟩
  | ok r =>
    obtain ⟨hbound, heq⟩ := applyWith_agree h r hs
    exact ⟨hbound, congrArg (·, Reply.done) heq⟩

theorem followWith_agree (h : Agree n f g) (r : Pool × Option Switch) (hs : s.reactions ≤ n) :
    (followWith f s r).reactions ≤ s.reactions ∧ followWith g s r = followWith f s r := by
  obtain ⟨q, w⟩ := r
  cases w with
  | none => exact ⟨Nat.le_refl _, rfl⟩
  | some w =>
    have hmove : (({ s with pool := q } : Manager).record (.switched w)).reactions ≤ n := hs
    exact announceWith_agree h (some w.target) hmove

/-! ## Calls -/

theorem startPolling_reactions {o : PollOptions} (h : s.startPolling o = .ok t) :
    t.reactions = s.reactions := by
  unfold startPolling at h
  split at h
  · simp only [Except.ok.injEq] at h
    rw [← h]
    split
    · rw [(stopLoop_frame (K := fun _ => False) _ _).reactions,
        (wake_frame (K := fun _ => False) _ _).reactions]
      rfl
    · exact (wake_frame (K := fun _ => False) _ _).reactions
  · exact absurd h (by simp)

theorem label_reactions (s : Manager) (label : Option String) (c : Connection) :
    (s.label label c).reactions = s.reactions := by
  obtain ⟨labels, hlabel⟩ := label_eq s label c
  rw [hlabel]
  rfl

theorem register_reactions (s : Manager) (e : Endpoint) (label : Option String) :
    (s.register e label).1.reactions = s.reactions := by
  unfold register
  dsimp only
  split
  · rfl
  · exact label_reactions _ label _

theorem addListener_reactions (s : Manager) (name : String) (reaction : List Call) (times : Nat) :
    (performWith f s (.addListener name reaction times)).1.reactions ≤
      s.reactions + times * (1 + Call.reactionsOf reaction) := by
  dsimp only [performWith]
  have hnew := reactionsLeft_upsert name ⟨List.replicate times reaction⟩ s.listeners
  have hold := reactionsLeft_without_le name s.listeners
  rw [reactions_replicate] at hnew
  unfold reactions
  dsimp only
  split
  · exact Nat.le_add_right _ _
  · change reactionsLeft _ ≤ reactionsLeft s.listeners + _
    omega

/-- Whatever a call brings about is laid down in it, or was laid down before. -/
theorem Agree.performWith (h : Agree n f g) : Agree (n + 1) (performWith f) (performWith g) := by
  have hcall (s : Manager) (c : Call) (hs : s.reactions + c.reactions < n + 1) :
      (Manager.performWith f s c).1.reactions ≤ s.reactions + c.reactions ∧
        Manager.performWith g s c = Manager.performWith f s c := by
    have hn : s.reactions ≤ n := by omega
    cases c with
    | make e label => exact ⟨Nat.le_of_eq (label_reactions _ label _), rfl⟩
    | add e label => exact ⟨Nat.le_of_eq (register_reactions s e label), rfl⟩
    | addUri uri label => exact ⟨Nat.le_of_eq (register_reactions s { uri } label), rfl⟩
    | remove uri => exact settleWith_agree h (s.pool.registry.remove uri) hn
    | select name =>
      dsimp only [Manager.performWith]
      split
      · obtain ⟨hbound, heq⟩ := applyWith_agree h s.pool.registry.disconnect hn
        exact ⟨hbound, congrArg (·, Reply.done) heq⟩
      · next c _ => exact settleWith_agree h (s.pool.registry.select c) hn
    | selectUri uri =>
      let made : Manager := { s with made := s.made ++ [{ uri }] }
      have hmade : made.reactions ≤ n := hn
      exact settleWith_agree h (s.pool.registry.selectUri uri s.made.length) hmade
    | disconnect =>
      obtain ⟨hbound, heq⟩ := applyWith_agree h s.pool.registry.disconnect hn
      exact ⟨hbound, congrArg (·, Reply.none) heq⟩
    | clear =>
      obtain ⟨hbound, heq⟩ := applyWith_agree h s.pool.registry.clear hn
      exact ⟨hbound, congrArg (·, Reply.none) heq⟩
    | reset =>
      let dropped : Manager := { s.stopPolling with subscribers := [] }
      have hdropped : dropped.reactions = s.reactions :=
        (stopPolling_frame (K := fun _ => False) s).reactions
      obtain ⟨hbound, heq⟩ :=
        applyWith_agree (s := dropped) h dropped.pool.registry.reset (hdropped ▸ hn)
      exact ⟨hdropped ▸ hbound, congrArg (·, Reply.none) heq⟩
    | setAutoSwitch on => exact ⟨Nat.le_refl _, rfl⟩
    | setTimeout ms =>
      dsimp only [Manager.performWith]
      split
      · exact ⟨Nat.le_refl _, rfl⟩
      · exact ⟨Nat.le_refl _, rfl⟩
    | get uri label =>
      dsimp only [Manager.performWith]
      split
      · exact ⟨Nat.le_refl _, rfl⟩
      · exact ⟨Nat.le_of_eq (label_reactions s label _), rfl⟩
    | has uri => exact ⟨Nat.le_refl _, rfl⟩
    | observe name outcome =>
      dsimp only [Manager.performWith]
      split
      · exact ⟨Nat.le_refl _, rfl⟩
      · exact ⟨Nat.le_refl _, rfl⟩
    | improve =>
      obtain ⟨hbound, heq⟩ := followWith_agree h s.pool.improve hn
      refine ⟨hbound, ?_⟩
      dsimp only [Manager.performWith]
      rw [heq]
    | script uri fallback queue => exact ⟨Nat.le_refl _, rfl⟩
    | addListener name reaction times =>
      have hbound := addListener_reactions (f := f) s name reaction times
      rw [Call.reactions]
      exact ⟨hbound, rfl⟩
    | removeListener name =>
      dsimp only [Manager.performWith]
      split
      · exact ⟨Nat.le_refl _, rfl⟩
      · exact ⟨Nat.le_refl _, rfl⟩
    | removeListeners => exact ⟨Nat.le_refl _, rfl⟩
    | startPolling options excluded =>
      dsimp only [Manager.performWith]
      split
      · exact ⟨Nat.le_refl _, rfl⟩
      · next t ht => exact ⟨Nat.le_of_eq (startPolling_reactions ht), rfl⟩
    | startConfigured polling =>
      dsimp only [Manager.performWith]
      split
      · exact ⟨Nat.le_refl _, rfl⟩
      · next t ht => exact ⟨Nat.le_of_eq (startPolling_reactions ht), rfl⟩
    | stopPolling =>
      exact ⟨Nat.le_of_eq (stopPolling_frame (K := fun _ => False) s).reactions, rfl⟩
    | spawn name request =>
      exact ⟨Nat.le_of_eq (wake_frame (K := fun _ => False) _ (.flight s.nextId)).reactions, rfl⟩
    | drop =>
      let given : Manager := { s with held := false }
      have hgiven : given.release.reactions = given.reactions :=
        (release_frame (K := fun _ => False) given).reactions
      exact ⟨Nat.le_of_eq hgiven, rfl⟩
  exact ⟨fun s c hs => (hcall s c hs).1, fun s c hs => (hcall s c hs).2⟩

/-- Two depths that reactions cannot exceed are as good as each other. -/
theorem performTo_agree (n : Nat) {depth depth' : Nat} (h : n ≤ depth) (h' : n ≤ depth') :
    Agree n (performTo depth) (performTo depth') := by
  induction n generalizing depth depth' with
  | zero => exact ⟨fun _ _ hs => absurd hs (by omega), fun _ _ hs => absurd hs (by omega)⟩
  | succ n ih =>
    obtain ⟨lower, rfl⟩ := Nat.exists_eq_add_one_of_ne_zero (n := depth) (by omega)
    obtain ⟨lower', rfl⟩ := Nat.exists_eq_add_one_of_ne_zero (n := depth') (by omega)
    exact (ih (by omega) (by omega)).performWith

/-- To any depth that exceeds the reactions left, a call is carried out in full. -/
theorem performTo_eq_act {depth : Nat} {s : Manager} {c : Call}
    (h : s.reactions + c.reactions < depth) : performTo depth s c = act s c :=
  (performTo_agree (s.reactions + c.reactions + 1) (Nat.le_refl _) h).same s c (Nat.lt_succ_self _)

theorem agree_act (n : Nat) {depth : Nat} (h : n ≤ depth) : Agree n (performTo depth) act where
  bound := (performTo_agree n h h).bound
  same _ _ hs := (performTo_eq_act (by omega)).symm

/-! ## Calls and notifications with no depth -/

theorem act_eq (s : Manager) (c : Call) : act s c = performWith act s c := by
  have hact : Agree (s.reactions + c.reactions + 1) (performTo (s.reactions + c.reactions + 1))
      (performWith act) := (agree_act (s.reactions + c.reactions) (Nat.le_refl _)).performWith
  exact (hact.same s c (Nat.lt_succ_self _)).symm

theorem perform_eq (h : s.held = true) (c : Call) : s.perform c = act s c := by
  unfold perform
  rw [if_pos h]
  exact performTo_eq_act (by omega)

theorem announce_eq (s : Manager) (current : Option Connection) :
    s.announce current = announceWith act s current :=
  (announceWith_agree (agree_act s.reactions (Nat.le_succ _)) current (Nat.le_refl _)).2.symm

theorem follow_eq (s : Manager) (r : Pool × Option Switch) : s.follow r = followWith act s r :=
  (followWith_agree (agree_act s.reactions (Nat.le_succ _)) r (Nat.le_refl _)).2.symm

/-- The calls of listeners are carried out in full. -/
def Full (inner : Performer) : Prop := inner = act

theorem full_act : Full act := rfl

theorem Full.flat {K : Connection → Prop} (h : Full f) (s : Manager) (c : Call) :
    Flat K s (f s c).1 := by
  rw [h]
  exact performTo_flat _ s c

end Manager

end RpcPool

import RpcPool.Proofs.Directory

/-!
# What an action owns up to

Whoever acts on a registry learns what has become of it from the answer alone. A refusal says that
nothing has happened, and a reported change says where the current pointer is now. An action makes
several checks and several writes, so this rests on their order: here actions are carried out in
place, one check and one write after the other, where a refusal takes back nothing that has been
written before it.

Results:
1. `run_perform`: in place an action comes to what `act` makes of it.
2. `refused_iff`: when an action is refused, and for what.
3. `act_honest`: a refused action changes nothing, and a reported change is what has become of the
   current connection.
4. `refusals_and_reports`: what every action owes to whoever only hears the answer.
-/

namespace RpcPool

namespace Registry

/-- Steps on a registry in place. A refusal keeps what has been written before it. -/
abbrev InPlace (α : Type) := EStateM PoolError Registry α

namespace InPlace

def add (c : Connection) : InPlace Answer := do
  if c.uri = "" then throw .missingUri
  if (← get).has c.uri then throw (.duplicateEndpoint c.uri)
  modify fun r => { r with connections := r.connections ++ [c] }
  return .registered c

/-- Takes the current connection away. It is a change if there was one. -/
def disconnect : InPlace Answer := do
  let taken ← modifyGet fun r => (r.current, { r with current := none })
  return .change (if taken.isSome then .changed none else .unchanged)

def remove (uri : String) : InPlace Answer := do
  let some c := (← get).get? uri | throw (.notFound uri)
  modify fun r => { r with connections := r.connections.eraseP fun k => k.uri == uri }
  if (← get).isCurrent c then
    modify fun r => { r with current := none }
    return .change (.changed none)
  return .change .unchanged

def select (c : Connection) : InPlace Answer := do
  if (← get).isCurrent c then return .change .unchanged
  if c.uri = "" then throw .missingUri
  modify fun r => { r with connections := place c r.connections }
  modify fun r => { r with current := some c }
  return .change (.changed (some c))

def selectUri (uri : String) (fresh : InstanceId) : InPlace Answer := do
  if uri = "" then throw .missingUri
  select (((← get).get? uri).getD ⟨fresh, { uri }⟩)

def switchTo (c : Connection) : InPlace Answer := do
  if (← get).isCurrent c || !(← get).contains c then return .change .unchanged
  modify fun r => { r with current := some c }
  return .change (.changed (some c))

def clear : InPlace Answer := do
  modify fun r => { r with connections := [] }
  disconnect

def reset : InPlace Answer := do
  modify fun r => { r with autoSwitch := defaultAutoSwitch }
  modify fun r => { r with timeoutMs := defaultTimeoutMs }
  clear

end InPlace

/-- Carries out an action in place. -/
def perform : Action → InPlace Answer
  | .add c => InPlace.add c
  | .addUri uri fresh => InPlace.add ⟨fresh, { uri }⟩
  | .remove uri => InPlace.remove uri
  | .select none => InPlace.disconnect
  | .select (some c) => InPlace.select c
  | .selectUri uri fresh => InPlace.selectUri uri fresh
  | .switchTo c => InPlace.switchTo c
  | .clear => InPlace.clear
  | .reset => InPlace.reset
  | .setAutoSwitch on => do
    modify fun r => { r with autoSwitch := on }
    return .done
  | .setTimeout ms => do
    modify fun r => { r with timeoutMs := ms }
    return .done

/-- What an action with an answer is in place. -/
def carriedOut : Registry × Answer → EStateM.Result PoolError Registry Answer
  | (left, .refused e) => .error e left
  | (left, answer) => .ok answer left

/-- What keeps a URI from being registered. -/
def Barred (r : Registry) (uri : String) (e : PoolError) : Prop :=
  uri = "" ∧ e = .missingUri ∨
    uri ≠ "" ∧ uri ∈ r.connections.map (·.uri) ∧ e = .duplicateEndpoint uri

/-- What an action is refused for. -/
def Refuses (r : Registry) (e : PoolError) : Action → Prop
  | .add c => r.Barred c.uri e
  | .addUri uri _ => r.Barred uri e
  | .remove uri => uri ∉ r.connections.map (·.uri) ∧ e = .notFound uri
  | .select (some c) => c.uri = "" ∧ r.isCurrent c = false ∧ e = .missingUri
  | .selectUri uri _ => uri = "" ∧ e = .missingUri
  | .select none | .switchTo _ | .clear | .reset | .setAutoSwitch _ | .setTimeout _ => False

end Registry

/-- A reported change is the truth: either the current connection is as it was, or it is the one that
is reported, and another instance than before, the first one, or none any more. -/
def Change.Tells (before after : Option Connection) : Change → Prop
  | .unchanged => after = before
  | .changed current => after = current ∧ after.map (·.id) ≠ before.map (·.id)

/-- What becomes of a registry and the answer to it go together: a refusal leaves it alone, a change
that is reported is the truth, and every other answer leaves the current connection alone. -/
inductive Registry.Honest (r : Registry) : Registry × Answer → Prop
  | refused (e : PoolError) : r.Honest (r, .refused e)
  | registered {left : Registry} (c : Connection) : left.current = r.current →
      r.Honest (left, .registered c)
  | change {left : Registry} {change : Change} : change.Tells r.current left.current →
      r.Honest (left, .change change)
  | done {left : Registry} : left.current = r.current → r.Honest (left, .done)

namespace Registry

variable {r left : Registry} {a : Action} {c : Connection} {uri : String} {fresh : InstanceId}
  {e : PoolError} {change : Change}

/-! ## In place -/

theorem run_add (r : Registry) (c : Connection) :
    (InPlace.add c).run r = carriedOut (r.register c) := by
  unfold InPlace.add register add
  by_cases blank : c.uri = ""
  · rw [if_pos blank, if_pos blank]
    rfl
  · rw [if_neg blank, if_neg blank]
    show (ite (r.has c.uri = true) _ _ : InPlace Answer).run r = _
    split <;> rfl

theorem run_disconnect (r : Registry) :
    InPlace.disconnect.run r = .ok (.change r.disconnect.2) r.disconnect.1 :=
  rfl

theorem run_remove (r : Registry) (uri : String) :
    (InPlace.remove uri).run r = carriedOut (r.settle (r.remove uri)) := by
  unfold Registry.remove
  cases found : r.get? uri with
  | none =>
    simp only [InPlace.remove, EStateM.run_bind, EStateM.run_get, found]
    rfl
  | some c =>
    simp only [InPlace.remove, EStateM.run_bind, EStateM.run_get, found]
    -- the list has been written, the current pointer not yet
    show (ite (r.isCurrent c = true) _ _ : InPlace Answer).run _ = _
    cases hcur : r.isCurrent c with
    | false => rfl
    | true =>
      obtain ⟨k, hk, _⟩ := isCurrent_iff.mp hcur
      simp only [if_true, settle, disconnect, hk]
      rfl

theorem run_select (r : Registry) (c : Connection) :
    (InPlace.select c).run r = carriedOut (r.settle (r.select c)) := by
  unfold InPlace.select Registry.select
  show (ite (r.isCurrent c = true) _ _ : InPlace Answer).run _ = _
  cases hcur : r.isCurrent c with
  | true => rfl
  | false =>
    by_cases blank : c.uri = ""
    · simp only [if_pos blank]
      rfl
    · simp only [if_neg blank]
      rfl

theorem run_selectUri (r : Registry) (uri : String) (fresh : InstanceId) :
    (InPlace.selectUri uri fresh).run r = carriedOut (r.settle (r.selectUri uri fresh)) := by
  unfold InPlace.selectUri Registry.selectUri
  by_cases blank : uri = ""
  · rw [if_pos blank, if_pos blank]
    rfl
  · rw [if_neg blank, if_neg blank]
    exact run_select r _

theorem run_switchTo (r : Registry) (c : Connection) :
    (InPlace.switchTo c).run r = .ok (.change (r.switchTo c).2) (r.switchTo c).1 := by
  unfold InPlace.switchTo Registry.switchTo
  show (ite ((r.isCurrent c || !r.contains c) = true) _ _ : InPlace Answer).run _ = _
  split <;> rfl

/-- Carried out in place, an action leaves behind what `act` says, also where it is refused. -/
theorem run_perform (r : Registry) (a : Action) : (perform a).run r = carriedOut (r.act a) := by
  cases a with
  | add c => exact run_add r c
  | addUri uri fresh => exact run_add r ⟨fresh, { uri }⟩
  | remove uri => exact run_remove r uri
  | select target =>
    cases target with
    | none => exact run_disconnect r
    | some c => exact run_select r c
  | selectUri uri fresh => exact run_selectUri r uri fresh
  | switchTo c => exact run_switchTo r c
  | clear => rfl
  | reset => rfl
  | setAutoSwitch on => rfl
  | setTimeout ms => rfl

/-! ## Refusals -/

/-- One guard after the other: a blank URI is refused first, then a known one. -/
theorem add_error_iff : r.add c = .error e ↔ r.Barred c.uri e := by
  unfold add Barred
  rw [ite_eq_iff, ite_eq_iff, has_iff]
  simp only [Except.error.injEq, reduceCtorEq, and_false, or_false, @eq_comm _ _ e]

theorem register_refused_iff : (r.register c).2 = .refused e ↔ r.Barred c.uri e := by
  rw [← add_error_iff]
  unfold register
  cases r.add c with
  | error f => simp
  | ok left => simp

theorem get?_eq_none : r.get? uri = none ↔ uri ∉ r.connections.map (·.uri) := by
  rw [get?, List.find?_eq_none]
  simp

/-- Whatever can be refused, a refusal is an error of what is settled. -/
theorem settle_refused_iff {result : Except PoolError (Registry × Change)} :
    (r.settle result).2 = .refused e ↔ result = .error e := by
  cases result with
  | error f => simp [settle]
  | ok next => simp [settle]

theorem remove_error_iff :
    r.remove uri = .error e ↔ uri ∉ r.connections.map (·.uri) ∧ e = .notFound uri := by
  rw [← get?_eq_none]
  unfold remove
  cases found : r.get? uri with
  | none =>
    constructor
    · intro h
      cases h
      exact ⟨rfl, rfl⟩
    · rintro ⟨_, rfl⟩
      rfl
  | some c =>
    constructor
    · intro h
      exact nomatch h
    · rintro ⟨none, _⟩
      exact nomatch none

theorem select_error_iff :
    r.select c = .error e ↔ c.uri = "" ∧ r.isCurrent c = false ∧ e = .missingUri := by
  unfold select
  rw [ite_eq_iff, ite_eq_iff]
  simp only [Except.error.injEq, reduceCtorEq, and_false, or_false, false_or, Bool.not_eq_true,
    @eq_comm _ _ e]
  exact and_left_comm

theorem selectUri_error_iff :
    r.selectUri uri fresh = .error e ↔ uri = "" ∧ e = .missingUri := by
  -- the connection that is selected has the URI that has just been found not to be blank
  have named : ((r.get? uri).getD ⟨fresh, { uri }⟩).uri = uri := by
    cases found : r.get? uri with
    | none => rfl
    | some k => exact get?_uri found
  unfold selectUri
  rw [ite_eq_iff, select_error_iff, named]
  simp only [Except.error.injEq, @eq_comm _ _ e]
  constructor
  · rintro (refused | ⟨kept, blank, _⟩)
    · exact refused
    · exact absurd blank kept
  · exact Or.inl

theorem refused_iff : (r.act a).2 = .refused e ↔ r.Refuses e a := by
  cases a with
  | add c => exact register_refused_iff
  | addUri uri fresh => exact register_refused_iff
  | remove uri => exact settle_refused_iff.trans remove_error_iff
  | select target =>
    cases target with
    | none => exact iff_of_false nofun id
    | some c => exact settle_refused_iff.trans select_error_iff
  | selectUri uri fresh => exact settle_refused_iff.trans selectUri_error_iff
  | switchTo c => exact iff_of_false nofun id
  | clear => exact iff_of_false nofun id
  | reset => exact iff_of_false nofun id
  | setAutoSwitch on => exact iff_of_false nofun id
  | setTimeout ms => exact iff_of_false nofun id

/-! ## Reports -/

/-- What a report says of the current connection before and after. -/
theorem reports_of_tells {before after : Option Connection} (tells : change.Tells before after) :
    ((∃ current, change = .changed current) ↔ after.map (·.id) ≠ before.map (·.id)) ∧
      ∀ current, change = .changed current → after = current := by
  cases change with
  | unchanged =>
    have same : after = before := tells
    refine ⟨⟨?_, ?_⟩, ?_⟩
    · rintro ⟨current, changed⟩
      exact nomatch changed
    · intro other
      exact absurd (congrArg (Option.map (·.id)) same) other
    · intro current changed
      exact nomatch changed
  | changed current =>
    obtain ⟨now, other⟩ := tells
    refine ⟨⟨fun _ => other, fun _ => ⟨current, rfl⟩⟩, ?_⟩
    intro reported hreported
    cases hreported
    exact now

theorem tells_disconnect (r : Registry) :
    r.disconnect.2.Tells r.current r.disconnect.1.current := by
  cases hcur : r.current with
  | none => simp [disconnect, Change.Tells, hcur]
  | some k => simp [disconnect, Change.Tells, hcur]

/-- An instance that is not current is another one than the current one. -/
theorem tells_of_not_current (h : r.isCurrent c = false) :
    (Change.changed (some c)).Tells r.current (some c) := by
  refine ⟨rfl, fun ids => ?_⟩
  obtain ⟨k, hk, id⟩ := Option.map_eq_some_iff.mp ids.symm
  rw [isCurrent_iff.mpr ⟨k, hk, id⟩] at h
  exact nomatch h

theorem tells_remove (h : r.remove uri = .ok (left, change)) :
    change.Tells r.current left.current := by
  unfold remove at h
  split at h
  · exact nomatch h
  · simp only [Except.ok.injEq] at h
    split at h
    · cases h
      exact tells_disconnect { r with connections := r.connections.eraseP fun k => k.uri == uri }
    · cases h
      rfl

theorem tells_select (h : r.select c = .ok (left, change)) :
    change.Tells r.current left.current := by
  unfold select at h
  split at h
  · cases h
    rfl
  · next hcur =>
    split at h
    · exact nomatch h
    · cases h
      exact tells_of_not_current (Bool.not_eq_true _ ▸ hcur)

theorem tells_switchTo (r : Registry) (c : Connection) :
    (r.switchTo c).2.Tells r.current (r.switchTo c).1.current := by
  rcases r.switchTo_eq c with ⟨hcur, _, heq⟩ | ⟨_, heq⟩
  · rw [heq]
    exact tells_of_not_current hcur
  · rw [heq]
    rfl

theorem register_honest (r : Registry) (c : Connection) : r.Honest (r.register c) := by
  unfold register
  cases added : r.add c with
  | error e => exact .refused e
  | ok left =>
    obtain ⟨_, _, rfl⟩ := add_ok added
    exact .registered c rfl

theorem settle_honest {result : Except PoolError (Registry × Change)}
    (tells : ∀ left change, result = .ok (left, change) → change.Tells r.current left.current) :
    r.Honest (r.settle result) := by
  cases result with
  | error e => exact .refused e
  | ok next => exact .change (tells next.1 next.2 rfl)

theorem act_honest (r : Registry) (a : Action) : r.Honest (r.act a) := by
  cases a with
  | add c => exact register_honest r c
  | addUri uri fresh => exact register_honest r ⟨fresh, { uri }⟩
  | remove uri => exact settle_honest fun _ _ => tells_remove
  | select target =>
    cases target with
    | none => exact .change (tells_disconnect r)
    | some c => exact settle_honest fun _ _ => tells_select
  | selectUri uri fresh => exact settle_honest fun _ _ h => tells_select (selectUri_ok h)
  | switchTo c => exact .change (tells_switchTo r c)
  | clear => exact .change (tells_disconnect { r with connections := [] })
  | reset =>
    exact .change (tells_disconnect { r with
      connections := [], autoSwitch := defaultAutoSwitch, timeoutMs := defaultTimeoutMs })
  | setAutoSwitch on => exact .done rfl
  | setTimeout ms => exact .done rfl

theorem act_tells (h : r.act a = (left, .change change)) : change.Tells r.current left.current := by
  have honest := act_honest r a
  rw [h] at honest
  cases honest with
  | change tells => exact tells

theorem act_refused (h : r.act a = (left, .refused e)) : left = r := by
  have honest := act_honest r a
  rw [h] at honest
  cases honest with
  | refused => rfl

theorem carriedOut_error {next : Registry × Answer} (h : carriedOut next = .error e left) :
    next = (left, .refused e) := by
  obtain ⟨after, answer⟩ := next
  cases answer with
  | refused f =>
    cases h
    rfl
  | registered c => exact nomatch h
  | change c => exact nomatch h
  | done => exact nomatch h

theorem carriedOut_ok {next : Registry × Answer} {answer : Answer}
    (h : carriedOut next = .ok answer left) : next = (left, answer) := by
  obtain ⟨after, given⟩ := next
  cases given with
  | refused f => exact nomatch h
  | registered c =>
    cases h
    rfl
  | change c =>
    cases h
    rfl
  | done =>
    cases h
    rfl

/-- What every action owes to whoever only hears the answer, whatever the registry. Carried out in
place it is refused exactly for the reasons that `Refuses` lists, and then the list, the current
connection and the settings are what they were. If it reports on the current connection, it reports a
change exactly if another instance is current than before, or the first one, or none any more, and
the one it reports is the one that is current now. -/
theorem refusals_and_reports (r : Registry) (a : Action) :
    (perform a).run r = carriedOut (r.act a) ∧
    (∀ e, (∃ left, (perform a).run r = .error e left) ↔ r.Refuses e a) ∧
    (∀ e left, (perform a).run r = .error e left → left = r) ∧
    (∀ change left, (perform a).run r = .ok (.change change) left →
      ((∃ current, change = .changed current) ↔
        left.current.map (·.id) ≠ r.current.map (·.id)) ∧
      ∀ current, change = .changed current → left.current = current) := by
  rw [run_perform]
  refine ⟨rfl, fun e => ?_, ?_, ?_⟩
  · rw [← refused_iff]
    constructor
    · rintro ⟨left, h⟩
      rw [carriedOut_error h]
    · intro h
      refine ⟨(r.act a).1, ?_⟩
      rw [← Prod.eta (r.act a), h]
      rfl
  · intro e left h
    exact act_refused (carriedOut_error h)
  · intro change left h
    exact reports_of_tells (act_tells (carriedOut_ok h))

/-- A twin takes the place of the current connection: the URI is the same, the instance is not. -/
example :
    (perform (.select (some ⟨1, { uri := "A" }⟩))).run
        ⟨[⟨0, { uri := "A" }⟩], some ⟨0, { uri := "A" }⟩, true, 5000⟩ =
      .ok (.change (.changed (some ⟨1, { uri := "A" }⟩)))
        ⟨[⟨1, { uri := "A" }⟩], some ⟨1, { uri := "A" }⟩, true, 5000⟩ :=
  rfl

end Registry

end RpcPool

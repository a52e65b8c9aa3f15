import RpcPool.Manager.Basic

/-!
# Calls and notifications

A call changes the pool in one step and then, if the current pointer moved, notifies the listeners that
were registered at that moment, in order. A listener may answer with calls of its own, which are carried
out in full before the next listener hears anything.

Calls and notifications therefore depend on each other. `performWith` and `announceWith` say what they do
given a way `inner` to carry out the calls of listeners; `perform` ties the knot to a given depth. As every
reaction uses up one of the finitely many that listeners have left, `Manager.reactions` is depth enough.
-/

namespace RpcPool

namespace Manager

/-- A way to carry out a call. -/
abbrev Performer := Manager → Call → Manager × Reply

/-! ## Notifications -/

/-- Carries out one call of a listener. -/
def reactWith (inner : Performer) (s : Manager) (c : Call) : Manager :=
  let (s, reply) := inner s c
  s.record (.answered c reply)

/-- Notifies one listener. A listener that still has reactions left uses up the first. Listeners ask the
manager through the user's handle and do nothing once it is gone. -/
def deliverWith (inner : Performer) (current : Option Connection) (s : Manager) (name : String) :
    Manager :=
  if s.held then
    let s := s.record (.notified name current)
    match s.listeners.lookup name with
    | some ⟨calls :: rest⟩ =>
      calls.foldl (reactWith inner) { s with listeners := upsert name ⟨rest⟩ s.listeners }
    | _ => s
  else s

/-- Notifies all listeners registered by now. -/
def announceWith (inner : Performer) (s : Manager) (current : Option Connection) : Manager :=
  s.subscribers.foldl (deliverWith inner current) (s.record (.announced current s.subscribers.length))

/-- Notifies the listeners of a change, if it is one. -/
def publishWith (inner : Performer) (s : Manager) : Change → Manager
  | .unchanged => s
  | .changed current => announceWith inner s current

/-- Takes over the result of an explicit change of the registry. -/
def applyWith (inner : Performer) (s : Manager) (r : Registry × Change) : Manager :=
  publishWith inner (s.setRegistry r.1) r.2

/-- Takes over the result of an automatic move of the current pointer. -/
def followWith (inner : Performer) (s : Manager) (r : Pool × Option Switch) : Manager :=
  match r.2 with
  | none => s
  | some w => announceWith inner ({ s with pool := r.1 }.record (.switched w)) (some w.target)

/-! ## Calls -/

/-- Registers a new instance. -/
def register (s : Manager) (e : Endpoint) (label : Option String) : Manager × Reply :=
  let (s, c) := s.instantiate e
  match s.pool.registry.add c with
  | .error err => (s, .refused err)
  | .ok r =>
    let s := (s.setRegistry r).label label c
    (s, .connection (some (s.shown c)))

/-- Takes over a change of the registry, or reports why there was none. -/
def settleWith (inner : Performer) (s : Manager) :
    Except PoolError (Registry × Change) → Manager × Reply
  | .error e => (s, .refused e)
  | .ok r => (applyWith inner s r, .done)

def performWith (inner : Performer) (s : Manager) : Call → Manager × Reply
  | .make e label =>
    let (s, c) := s.instantiate e
    (s.label label c, .none)
  | .add e label => s.register e label
  | .addUri uri label => s.register { uri } label
  | .remove uri => settleWith inner s (s.pool.registry.remove uri)
  | .select name =>
    match name.bind s.resolve with
    | none => (applyWith inner s s.pool.registry.disconnect, .done)
    | some c => settleWith inner s (s.pool.registry.select c)
  | .selectUri uri =>
    settleWith inner { s with made := s.made ++ [{ uri }] }
      (s.pool.registry.selectUri uri s.made.length)
  | .disconnect => (applyWith inner s s.pool.registry.disconnect, .none)
  | .clear => (applyWith inner s s.pool.registry.clear, .none)
  | .reset =>
    let s := { s.stopPolling with subscribers := [] }
    (applyWith inner s s.pool.registry.reset, .none)
  | .setAutoSwitch on => (s.setRegistry { s.pool.registry with autoSwitch := on }, .none)
  | .setTimeout ms =>
    if ms = 0 then (s, .refused .invalidTimeout)
    else (s.setRegistry { s.pool.registry with timeoutMs := ms }, .done)
  | .get uri label =>
    match s.pool.registry.get? uri with
    | none => (s, .view none)
    | some c => (s.label label c, .view (some (c, s.pool.healthOf c)))
  | .has uri => (s, .flag (s.pool.registry.has uri))
  | .observe name outcome =>
    match s.resolve name with
    | none => (s, .none)
    | some c =>
      ({ s with pool := s.pool.observe c outcome }.record (.observed c outcome),
        .flag (s.pool.wouldChange c outcome))
  | .improve =>
    let r := s.pool.improve
    let s := followWith inner s r
    (s, .connection (r.2.map fun w => s.shown w.target))
  | .script uri fallback queue => ({ s with network := s.network.extend uri fallback queue }, .none)
  | .addListener name reaction times =>
    let known := (s.listeners.lookup name).isSome
    ({ s with
      listeners :=
        if known then s.listeners else upsert name ⟨List.replicate times reaction⟩ s.listeners
      subscribers := s.subscribers ++ [name] }, .none)
  | .removeListener name =>
    if (s.listeners.lookup name).isSome then
      ({ s with subscribers := s.subscribers.filter fun n => !(n == name) },
        .flag (s.subscribers.contains name))
    else (s, .none)
  | .removeListeners => ({ s with subscribers := [] }, .none)
  | .startPolling options excluded =>
    match s.startPolling { options with excluded := s.resolveAll excluded } with
    | .error e => (s, .refused e)
    | .ok s => (s, .done)
  | .startConfigured polling =>
    match s.startPolling (polling.options s.pool.listing) with
    | .error e => (s, .refused e)
    | .ok s => (s, .done)
  | .stopPolling => (s.stopPolling, .none)
  | .spawn name request =>
    let id := s.nextId
    ({ s with
      nextId := id + 1
      started := s.started + 1
      flights := upsert id ⟨.task, .queued (s.operation request)⟩ s.flights
      tasks := upsert name id s.tasks }.wake (.flight id), .none)
  | .drop => ({ s with held := false }.release, .none)

/-- Carries out a call, with calls nested up to a depth. -/
def performTo : Nat → Performer
  | 0 => fun s _ => (s, .none)
  | depth + 1 => performWith (performTo depth)

/-- The number of reactions that the listeners can still have. -/
def reactions (s : Manager) : Nat := s.listeners.foldr (fun e n => e.2.reactions + n) 0

/-- The way in which the calls of listeners are carried out. -/
def nested (s : Manager) : Performer := performTo (s.reactions + 1)

/-- Carries out a call of the user. Once the user has given up the manager, nothing can be called. -/
def perform (s : Manager) (c : Call) : Manager × Reply :=
  if s.held then performTo (s.reactions + c.reactions + 2) s c else (s, .none)

/-- Notifies all listeners registered by now. -/
def announce (s : Manager) (current : Option Connection) : Manager := announceWith s.nested s current

/-- Takes over the result of an automatic move of the current pointer. -/
def follow (s : Manager) (r : Pool × Option Switch) : Manager := followWith s.nested s r

end Manager

end RpcPool

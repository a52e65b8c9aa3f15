import RpcPool.Proofs.Callbacks

/-!
# What moves on its own

A move of a run that is no explicit call comes down to sections of its own and to what listeners
answer. Each section is taken by itself, from the very state that it starts from, so nothing can
happen between two of them: the list of connections never changes, and the health of a connection and
the current pointer change only in sections that leave an event.

Results:
1. `announceWith_unasked`: a round of notifications changes nothing but by what listeners answer.
2. `next_unasked`, `improve_unasked`: a move that is no explicit call, and a re-ranking.
-/

namespace RpcPool

open Relation

/-- Whether a move is none of the explicit calls: a check, a poll, the clock, or a re-ranking. -/
def Move.automatic : Move → Bool
  | .call .improve => true
  | .call _ => false
  | _ => true

namespace Manager

variable {K : Connection → Prop} {s t : Manager}

/-- A section that is no explicit call. The pool changes only by the outcome of a probe or by a move of
the current pointer, decided on the pool that the section starts from, and an event tells of both:
nothing moves, and nothing becomes connected, in between. -/
inductive Unasked : Manager → Manager → Prop
  | work {a b : Manager} : b.kept = a.kept → Unasked a b
  | note {a : Manager} {e : Event} : e.plain = true → Unasked a (a.record e)
  | probe {a : Manager} (c : Connection) (outcome : Probe.Outcome) :
      Unasked a ({ a with pool := a.pool.observe c outcome }.record (.probeEnded c outcome))
  | switch {a : Manager} {q : Pool} {w : Switch} :
      a.pool.Moved q w → Unasked a ({ a with pool := q }.record (.switched w))

/-- A listener that is called carries out the calls that it has laid down for this time, one after the
other. -/
def Replied (a b : Manager) : Prop :=
  ∃ name calls rest, a.listeners.lookup name = some ⟨calls :: rest⟩ ∧
    b = calls.foldl (fun t c => (act t c).1.record (.answered c (act t c).2))
      { a with listeners := upsert name ⟨rest⟩ a.listeners }

/-- Sections that nobody has asked for, with answers of listeners in between. -/
abbrev UnaskedRun : Manager → Manager → Prop := ReflTransGen fun a b => Unasked a b ∨ Replied a b

theorem Unasked.later (h : Unasked s t) : s.trace <:+ t.trace := by
  cases h with
  | work hkept =>
    have htrace := congrArg trace hkept
    exact htrace ▸ List.suffix_rfl
  | note _ => exact List.suffix_cons _ _
  | probe _ _ => exact List.suffix_cons _ _
  | switch _ => exact List.suffix_cons _ _

/-- Nobody but a listener that is called changes what listeners will answer. -/
theorem Unasked.listens (h : Unasked s t) : t.held = s.held ∧ t.listeners = s.listeners := by
  cases h with
  | work hkept =>
    have hheld := congrArg held hkept
    have hlisteners := congrArg listeners hkept
    exact ⟨hheld, hlisteners⟩
  | note _ => exact ⟨rfl, rfl⟩
  | probe _ _ => exact ⟨rfl, rfl⟩
  | switch _ => exact ⟨rfl, rfl⟩

theorem Own.unasked (h : Own K s t) : Unasked s t := by
  cases h with
  | work hf => exact .work hf.kept
  | note hplain => exact .note hplain
  | probe c outcome => exact .probe c outcome
  | switch hauto => exact .switch hauto.moved

theorem record_unasked {e : Event} (h : e.plain = true) (s : Manager) : UnaskedRun s (s.record e) :=
  .single (Or.inl (.note h))

theorem deliverWith_unasked (s : Manager) (current : Option Connection) (name : String) :
    UnaskedRun s (deliverWith act current s name) := by
  have hcalled : UnaskedRun s (s.record (.notified name current)) := record_unasked rfl s
  unfold deliverWith
  split
  · dsimp only
    split
    · next calls rest hl => exact hcalled.tail (Or.inr ⟨name, calls, rest, hl, rfl⟩)
    · exact hcalled
  · exact .refl

theorem foldl_deliverWith_unasked (s : Manager) (current : Option Connection)
    (names : List String) : UnaskedRun s (names.foldl (deliverWith act current) s) := by
  induction names generalizing s with
  | nil => exact .refl
  | cons name rest ih => exact (deliverWith_unasked s current name).trans (ih _)

/-- A round of notifications changes nothing but by what listeners answer. -/
theorem announceWith_unasked (s : Manager) (current : Option Connection) :
    UnaskedRun s (announceWith act s current) :=
  (record_unasked rfl s).trans (foldl_deliverWith_unasked _ current s.subscribers)

theorem TaskStretch.unasked (h : TaskStretch K s t) : UnaskedRun s t := by
  induction h with
  | refl => exact .refl
  | tail _ link ih =>
    cases link with
    | own ho => exact ih.tail (Or.inl ho.unasked)
    | explicit hcalled _ => exact hcalled.elim
    | announcement _ current hinner =>
      -- what the listeners answer is theirs: it is not looked into here
      cases hinner
      exact ih.trans (announceWith_unasked _ current)

theorem improve_unasked (s : Manager) : UnaskedRun s (act s .improve).1 := by
  have himprove : TaskStretch (fun _ => False) s (followWith act s s.pool.improve) :=
    followWith_stretch full_act fun q w h => .improve h
  rw [act_eq]
  exact himprove.unasked

/-- A move that is no explicit call comes down to sections that nobody has asked for. -/
theorem next_unasked (s : Manager) {m : Move} (hm : m.automatic = true) :
    UnaskedRun s (s.next m) := by
  cases m with
  | call c =>
    cases c with
    | improve =>
      cases held : s.held with
      | true =>
        dsimp only [next]
        rw [perform_eq held]
        exact improve_unasked s
      | false =>
        simp only [next, perform, held]
        exact .refl
    | _ => exact absurd hm (by simp [Move.automatic])
  | await r => exact (await_stretch s r).unasked
  | turn t => exact (runTask_stretch s t).unasked
  | clock time =>
    have hclock : Frame (fun _ => False) s (s.moveClock time) := moveClock_frame s time
    exact .single (Or.inl (.work hclock.kept))
  | collect id => exact .single (Or.inl (.work rfl))
  | forget name => exact .single (Or.inl (.work rfl))
  | idle tasks => exact .single (Or.inl (.work rfl))

end Manager

end RpcPool

import FileRemoval.Event

/-! # Steps

A step takes a state to an answer, the state that is left, and the events reported on the way.
Steps in sequence report their events one after the other. -/

namespace FileRemoval

structure Outcome (σ α : Type) where
  answer : α
  state : σ
  events : List Event
deriving DecidableEq, Repr

def Step (σ α : Type) : Type :=
  σ → Outcome σ α

class Reporting (m : Type → Type) where
  report : Event → m Unit

namespace Step

variable {σ α β : Type}

def run (x : Step σ α) (s : σ) : Outcome σ α :=
  x s

protected def pure (a : α) : Step σ α := fun s =>
  ⟨a, s, []⟩

protected def bind (x : Step σ α) (next : α → Step σ β) : Step σ β := fun s =>
  let first := x s
  let second := next first.answer first.state
  ⟨second.answer, second.state, first.events ++ second.events⟩

instance : Monad (Step σ) where
  pure := Step.pure
  bind := Step.bind

instance : Reporting (Step σ) where
  report e := fun s => ⟨(), s, [e]⟩

@[simp] theorem run_pure (a : α) (s : σ) : (pure a : Step σ α).run s = ⟨a, s, []⟩ := rfl

@[simp] theorem run_bind (x : Step σ α) (next : α → Step σ β) (s : σ) :
    (x >>= next).run s =
      ⟨((next (x.run s).answer).run (x.run s).state).answer,
        ((next (x.run s).answer).run (x.run s).state).state,
        (x.run s).events ++ ((next (x.run s).answer).run (x.run s).state).events⟩ := rfl

@[simp] theorem run_report (e : Event) (s : σ) :
    (Reporting.report e : Step σ Unit).run s = ⟨(), s, [e]⟩ := rfl

instance : LawfulMonad (Step σ) :=
  LawfulMonad.mk' _ (fun _ => funext fun _ => by simp [Functor.map, Step.bind, Step.pure])
    (fun _ _ => rfl) (fun _ _ _ => funext fun _ => by simp [bind, Step.bind])

end Step

end FileRemoval

import FileRemoval.Step

/-! # Steps that commute

Two steps commute if neither changes what the other answers and both orders lead to the same state.
A list of steps that commute in pairs can be worked off in any order: every step answers as if it
came first. -/

namespace FileRemoval.Step

variable {σ α β γ δ : Type}

structure Commutes (x : Step σ α) (y : Step σ β) : Prop where
  first (s : σ) : (x.run (y.run s).state).answer = (x.run s).answer
  second (s : σ) : (y.run (x.run s).state).answer = (y.run s).answer
  state (s : σ) : (y.run (x.run s).state).state = (x.run (y.run s).state).state

theorem Commutes.symm {x : Step σ α} {y : Step σ β} (h : Commutes x y) : Commutes y x :=
  ⟨h.second, h.first, fun s => (h.state s).symm⟩

/-- A step that changes nothing and always answers the same commutes with every other. -/
theorem Commutes.of_constant {x : Step σ α} {a : α}
    (h : ∀ s, (x.run s).answer = a ∧ (x.run s).state = s) (y : Step σ β) : Commutes x y := by
  constructor
  · intro s
    rw [(h _).1, (h s).1]
  · intro s
    rw [(h s).2]
  · intro s
    rw [(h s).2, (h _).2]

/-- The step `z` leaves what `x` leaves and answers what can be told from the answer of `x`. -/
def Follows (z : Step σ γ) (x : Step σ α) : Prop :=
  ∃ f : α → γ, ∀ s, (z.run s).answer = f (x.run s).answer ∧ (z.run s).state = (x.run s).state

theorem Commutes.of_follows {x : Step σ α} {y : Step σ β} {z : Step σ γ} {w : Step σ δ}
    (h : Commutes x y) (zx : Follows z x) (wy : Follows w y) : Commutes z w := by
  obtain ⟨f, zx⟩ := zx
  obtain ⟨g, wy⟩ := wy
  constructor
  · intro s
    rw [(wy s).2, (zx _).1, (zx s).1, h.first]
  · intro s
    rw [(zx s).2, (wy _).1, (wy s).1, h.second]
  · intro s
    rw [(zx s).2, (wy s).2, (zx _).2, (wy _).2, h.state]

/-! ### Lists of steps -/

variable {x : α → Step σ β} {l l' : List α}

theorem run_mapM_cons (x : α → Step σ β) (a : α) (l : List α) (s : σ) :
    (((a :: l).mapM x).run s).answer =
        ((x a).run s).answer :: ((l.mapM x).run ((x a).run s).state).answer ∧
      (((a :: l).mapM x).run s).state = ((l.mapM x).run ((x a).run s).state).state := by
  rw [List.mapM_cons]
  exact ⟨rfl, rfl⟩

theorem answer_mapM (commute : l.Pairwise fun a b => Commutes (x a) (x b)) (s : σ) :
    ((l.mapM x).run s).answer = l.map fun a => ((x a).run s).answer := by
  induction l generalizing s with
  | nil => rfl
  | cons a rest ih =>
    obtain ⟨head, tail⟩ := List.pairwise_cons.mp commute
    have later : (rest.map fun b => ((x b).run ((x a).run s).state).answer) =
        rest.map fun b => ((x b).run s).answer := by
      apply List.map_congr_left
      intro b member
      exact (head b member).second s
    rw [(run_mapM_cons x a rest s).1, ih tail, later, List.map_cons]

theorem state_mapM_perm (perm : l.Perm l')
    (commute : l.Pairwise fun a b => Commutes (x a) (x b)) (s : σ) :
    ((l.mapM x).run s).state = ((l'.mapM x).run s).state := by
  induction perm generalizing s with
  | nil => rfl
  | cons a _ ih =>
    rw [(run_mapM_cons x a _ s).2, (run_mapM_cons x a _ s).2]
    exact ih (List.pairwise_cons.mp commute).2 _
  | swap a b rest =>
    have exchanged := ((List.pairwise_cons.mp commute).1 a List.mem_cons_self).state s
    rw [(run_mapM_cons x b _ s).2, (run_mapM_cons x a _ _).2, exchanged, (run_mapM_cons x a _ s).2,
      (run_mapM_cons x b _ _).2]
  | trans first _ ih ih' =>
    rw [ih commute, ih' (first.pairwise commute Commutes.symm)]

theorem mapM_perm (perm : l.Perm l') (commute : l.Pairwise fun a b => Commutes (x a) (x b))
    (s : σ) :
    let alone := fun a => ((x a).run s).answer
    ((l.mapM x).run s).answer = l.map alone ∧ ((l'.mapM x).run s).answer = l'.map alone ∧
      ((l'.mapM x).run s).state = ((l.mapM x).run s).state :=
  ⟨answer_mapM commute s, answer_mapM (commute.perm perm Commutes.symm) s,
    (state_mapM_perm perm commute s).symm⟩

end FileRemoval.Step

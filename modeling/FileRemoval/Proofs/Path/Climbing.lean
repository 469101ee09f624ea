import FileRemoval.Proofs.Path.Names

/-! # Going up and down

Each name in a path goes one level down and each `..` one level up. From the top there is a
canonical form exactly if no piece is empty and the path never goes up further than it has come
down. -/

namespace FileRemoval.Path

/-- From `height` levels below the top, no first part of `steps` goes up beyond the top. -/
def StaysBelow (height : Nat) (steps : List Text) : Prop :=
  ∀ front, front <+: steps → front.count above ≤ height + front.countP fun piece => IsName piece

theorem forall_prefix_cons {α : Type} {p : List α → Prop} {a : α} {l : List α} :
    (∀ front, front <+: a :: l → p front) ↔ p [] ∧ ∀ front, front <+: l → p (a :: front) := by
  constructor
  · intro all
    exact ⟨all [] List.nil_prefix, fun front isFront =>
      all (a :: front) ((List.prefix_cons_inj a).mpr isFront)⟩
  · rintro ⟨empty, longer⟩ front isFront
    rcases List.prefix_cons_iff.mp isFront with rfl | ⟨rest, rfl, isRest⟩
    · exact empty
    · exact longer rest isRest

theorem not_isName_above : ¬ IsName above := fun isName => isName.not_above rfl

theorem not_isName_here : ¬ IsName here := fun isName => isName.not_here rfl

section

variable {height : Nat} {steps : List Text}

theorem staysBelow_above : StaysBelow height (above :: steps) ↔
    ∃ less, height = less + 1 ∧ StaysBelow less steps := by
  have notName : decide (IsName above) = false := decide_eq_false not_isName_above
  simp only [StaysBelow, forall_prefix_cons, List.count_nil, List.countP_nil, List.count_cons_self,
    List.countP_cons, notName, Bool.false_eq_true, ↓reduceIte]
  constructor
  · rintro ⟨-, later⟩
    have first := later [] List.nil_prefix
    rw [List.count_nil, List.countP_nil] at first
    refine ⟨height - 1, by omega, fun front isFront => ?_⟩
    have := later front isFront
    omega
  · rintro ⟨less, rfl, later⟩
    refine ⟨Nat.zero_le _, fun front isFront => ?_⟩
    have := later front isFront
    omega

theorem staysBelow_here : StaysBelow height (here :: steps) ↔ StaysBelow height steps := by
  have notName : decide (IsName here) = false := decide_eq_false not_isName_here
  have apart : here ≠ above := by decide
  simp only [StaysBelow, forall_prefix_cons, List.count_nil, List.countP_nil,
    List.count_cons_of_ne apart, List.countP_cons, notName, Bool.false_eq_true, ↓reduceIte,
    Nat.zero_le, true_and, Nat.add_zero]

theorem staysBelow_name {name : Text} (isName : IsName name) :
    StaysBelow height (name :: steps) ↔ StaysBelow (height + 1) steps := by
  have counted : decide (IsName name) = true := decide_eq_true isName
  simp only [StaysBelow, forall_prefix_cons, List.count_nil, List.countP_nil,
    List.count_cons_of_ne isName.not_above, List.countP_cons, counted, ↓reduceIte, Nat.zero_le,
    true_and]
  refine forall_congr' fun front => imp_congr_right fun _ => ?_
  omega

end

theorem follow_name (names : List Text) {name : Text} (isName : IsName name) :
    follow names name = some (name :: names) :=
  follow_of_ne names isName.nonempty isName.not_here isName.not_above

/-- The stack of names holds as many as there are levels to go up. -/
theorem exists_foldlM_follow {steps : List Text} (slashless : ∀ piece ∈ steps, '/' ∉ piece)
    (names : List Text) : (∃ last, steps.foldlM follow names = some last) ↔
      [] ∉ steps ∧ StaysBelow names.length steps := by
  induction steps generalizing names with
  | nil =>
    refine ⟨fun _ => ⟨List.not_mem_nil, fun front isFront => ?_⟩, fun _ => ⟨names, rfl⟩⟩
    rw [List.prefix_nil.mp isFront]
    exact Nat.zero_le _
  | cons piece rest ih =>
    have later := ih fun other member => slashless other (List.mem_cons_of_mem piece member)
    rw [List.foldlM_cons, List.mem_cons, not_or]
    by_cases isAbove : piece = above
    · have nonempty : [] ≠ above := by decide
      subst isAbove
      rw [staysBelow_above]
      cases names with
      | nil =>
        simp only [follow, ↓reduceIte, Option.bind_eq_bind, Option.bind_none, reduceCtorEq,
          exists_false, List.length_nil, false_iff]
        rintro ⟨-, less, bad, -⟩
        omega
      | cons top others =>
        have step : follow (top :: others) above = some others := rfl
        rw [step, Option.bind_eq_bind, Option.bind_some, later, List.length_cons]
        simp only [Nat.add_right_cancel_iff, exists_eq_left', nonempty, not_false_eq_true, true_and]
    · by_cases isHere : piece = here
      · have nonempty : [] ≠ here := by decide
        subst isHere
        have step : follow names here = some names := rfl
        rw [step, Option.bind_eq_bind, Option.bind_some, later, staysBelow_here]
        simp only [nonempty, not_false_eq_true, true_and]
      · by_cases empty : piece = []
        · have step : follow names [] = none := rfl
          rw [empty, step]
          simp only [Option.bind_eq_bind, Option.bind_none, reduceCtorEq, exists_false,
            not_true_eq_false, false_and]
        · have isName : IsName piece :=
            ⟨empty, slashless piece List.mem_cons_self, isHere, isAbove⟩
          rw [follow_name names isName, Option.bind_eq_bind, Option.bind_some, later, staysBelow_name isName]
          simp only [List.length_cons, Ne.symm empty, not_false_eq_true, true_and]

theorem exists_canonicalize_top {path : Text} (notTop : path ≠ top) :
    (∃ key, canonicalize top path = some key) ↔ [] ∉ steps path ∧ StaysBelow 0 (steps path) := by
  have followed := exists_foldlM_follow (slash_not_mem_piece (path.dropWhile (· = '/'))) []
  rw [← steps, List.length_nil] at followed
  rw [canonicalize, if_neg notTop, start_top, ← followed]
  simp only [Option.map_eq_some_iff]
  constructor
  · rintro ⟨_, last, same, -⟩
    exact ⟨last, same⟩
  · rintro ⟨last, same⟩
    exact ⟨_, last, same, rfl⟩

end FileRemoval.Path

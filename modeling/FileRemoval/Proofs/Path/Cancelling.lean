import Mathlib.Data.List.Induction
import Mathlib.Logic.Relation
import FileRemoval.Proofs.Path.Climbing

/-! # Cancelling moves

A path is a list of moves through a tree. Staying cancels, and so does going into an entry and
straight out of it again. In whatever order that is done, it comes to an end, and the end is always
the same list. The canonical form of the path is that list written as a path, and it exists unless
a move out is left over. -/

namespace FileRemoval.Path

open Relation (ReflTransGen)

inductive Move where
  | into (name : Text)
  | stay
  | out
  deriving DecidableEq

namespace Move

def ofPiece (piece : Text) : Move :=
  if piece = above then .out
  else if piece = here then .stay
  else .into piece

def text : Move → Text
  | .into name => name
  | .stay => here
  | .out => above

end Move

/-- The moves of a path: into the pieces of the working directory, whatever they read, unless the
path is absolute, and on from there by its own pieces. -/
def route (cwd path : Text) : List Move :=
  (if isAbsolute path then [] else (namesOf cwd).map .into) ++ (steps path).map .ofPiece

/-- The names that the moves lead through, if none of them goes out. -/
def through (moves : List Move) : Option (List Text) :=
  if .out ∈ moves then none else some (moves.map Move.text)

/-- One cancellation, anywhere in the list. -/
inductive Cancels : List Move → List Move → Prop where
  | stay (front rest : List Move) : Cancels (front ++ .stay :: rest) (front ++ rest)
  | back (front : List Move) (name : Text) (rest : List Move) :
      Cancels (front ++ .into name :: .out :: rest) (front ++ rest)

def Settled (moves : List Move) : Prop :=
  ∀ next, ¬ Cancels moves next

/-- Some order of cancelling leads from `moves` to `last`, where nothing cancels any more. -/
structure Settles (moves last : List Move) : Prop where
  reaches : ReflTransGen Cancels moves last
  settled : Settled last

/-- One more move, cancelled against the moves so far, of which the latest comes first. -/
def push (moves : List Move) (move : Move) : List Move :=
  match move, moves with
  | .stay, moves => moves
  | .out, .into _ :: rest => rest
  | .out, moves => .out :: moves
  | .into name, moves => .into name :: moves

def settle (moves : List Move) : List Move :=
  (moves.foldl push []).reverse

/-! ### Every order ends in the same list -/

section

variable {moves next last : List Move}

theorem length_lt_of_cancels (cancels : Cancels moves next) : next.length < moves.length := by
  cases cancels with
  | stay front rest =>
    simp only [List.length_append, List.length_cons]
    omega
  | back front name rest =>
    simp only [List.length_append, List.length_cons]
    omega

theorem wellFounded_cancels : WellFounded fun next moves => Cancels moves next :=
  Subrelation.wf length_lt_of_cancels (measure List.length).wf

theorem length_le_of_reaches (reaches : ReflTransGen Cancels moves last) :
    last.length ≤ moves.length := by
  induction reaches with
  | refl => exact Nat.le_refl _
  | tail _ cancels ih => exact Nat.le_trans (Nat.le_of_lt (length_lt_of_cancels cancels)) ih

theorem Cancels.append (cancels : Cancels moves next) (more : List Move) :
    Cancels (moves ++ more) (next ++ more) := by
  cases cancels with
  | stay front rest =>
    have step := Cancels.stay front (rest ++ more)
    simpa only [List.append_assoc, List.cons_append] using step
  | back front name rest =>
    have step := Cancels.back front name (rest ++ more)
    simpa only [List.append_assoc, List.cons_append] using step

theorem reaches_append (reaches : ReflTransGen Cancels moves last) (more : List Move) :
    ReflTransGen Cancels (moves ++ more) (last ++ more) :=
  reaches.lift (· ++ more) fun _ _ cancels => cancels.append more

theorem settle_of_cancels (cancels : Cancels moves next) : settle moves = settle next := by
  cases cancels with
  | stay front rest => simp only [settle, List.foldl_append, List.foldl_cons, push]
  | back front name rest => simp only [settle, List.foldl_append, List.foldl_cons, push]

theorem settle_of_reaches (reaches : ReflTransGen Cancels moves last) :
    settle moves = settle last := by
  induction reaches with
  | refl => rfl
  | tail _ cancels ih => exact ih.trans (settle_of_cancels cancels)

theorem reaches_push (moves : List Move) (move : Move) :
    ReflTransGen Cancels (moves.reverse ++ [move]) (push moves move).reverse := by
  cases move with
  | into name =>
    rw [push, List.reverse_cons]
  | stay =>
    have step := Cancels.stay moves.reverse []
    rw [List.append_nil] at step
    exact .single step
  | out =>
    cases moves with
    | nil => exact .refl
    | cons latest rest =>
      cases latest with
      | into name =>
        have step := Cancels.back rest.reverse name []
        rw [List.append_nil] at step
        rw [List.reverse_cons, List.append_assoc]
        exact .single step
      | stay =>
        rw [← List.reverse_cons]
        exact .refl
      | out =>
        rw [← List.reverse_cons]
        exact .refl

theorem reaches_settle (moves : List Move) : ReflTransGen Cancels moves (settle moves) := by
  induction moves using List.reverseRecOn with
  | nil => exact .refl
  | append_singleton front move ih =>
    have step := reaches_push (front.foldl push []) move
    rw [settle, List.foldl_append]
    exact (reaches_append ih [move]).trans step

/-- What cancels further would settle to the same list, but is shorter than it. -/
theorem settled_settle (moves : List Move) : Settled (settle moves) := by
  intro next cancels
  have shorter := length_lt_of_cancels cancels
  have again : settle next = settle moves := by
    rw [← settle_of_cancels cancels, ← settle_of_reaches (reaches_settle moves)]
  have bound := length_le_of_reaches (reaches_settle next)
  rw [again] at bound
  omega

theorem settles_iff : Settles moves last ↔ last = settle moves := by
  constructor
  · rintro ⟨reaches, settled⟩
    rw [settle_of_reaches reaches]
    rcases ReflTransGen.cases_head (reaches_settle last) with same | ⟨next, cancels, -⟩
    · exact same
    · exact absurd cancels (settled next)
  · rintro rfl
    exact ⟨reaches_settle moves, settled_settle moves⟩

end

/-! ### The canonical form -/

theorem out_mem_push {moves : List Move} (move : Move) (stuck : .out ∈ moves) :
    .out ∈ push moves move := by
  cases move with
  | into name => exact List.mem_cons_of_mem _ stuck
  | stay => exact stuck
  | out =>
    cases moves with
    | nil => cases stuck
    | cons latest rest =>
      cases latest with
      | into name => exact List.mem_of_ne_of_mem (by simp) stuck
      | stay => exact List.mem_cons_self
      | out => exact List.mem_cons_self

theorem out_mem_foldl_push {moves : List Move} (more : List Move) (stuck : .out ∈ moves) :
    .out ∈ more.foldl push moves := by
  induction more generalizing moves with
  | nil => exact stuck
  | cons move rest ih => exact ih (out_mem_push move stuck)

theorem foldl_push_into (names : List Text) (moves : List Move) :
    (names.map .into).foldl push moves = names.reverse.map .into ++ moves := by
  induction names generalizing moves with
  | nil => rfl
  | cons first rest ih =>
    rw [List.map_cons, List.foldl_cons, ih, push, List.reverse_cons, List.map_append,
      List.append_assoc]
    rfl

theorem through_into (names : List Text) : through (names.map .into) = some names := by
  have noneOut : .out ∉ names.map Move.into := by
    simp only [List.mem_map, reduceCtorEq, and_false, exists_false, not_false_eq_true]
  rw [through, if_neg noneOut, List.map_map]
  exact congrArg some (List.map_id names)

theorem through_reverse (moves : List Move) :
    through moves.reverse = (through moves).map List.reverse := by
  simp only [through, List.mem_reverse, List.map_reverse]
  split <;> rfl

/-- Following the pieces is cancelling the moves from the left, as long as no move out is left. -/
theorem foldlM_follow_eq {steps : List Text} (nonempty : [] ∉ steps) (names : List Text) :
    steps.foldlM follow names =
      through ((steps.map .ofPiece).foldl push (names.map .into)) := by
  induction steps generalizing names with
  | nil => exact (through_into names).symm
  | cons piece rest ih =>
    rw [List.mem_cons, not_or] at nonempty
    have later := ih nonempty.2
    rw [List.foldlM_cons, List.map_cons, List.foldl_cons]
    by_cases isAbove : piece = above
    · have move : Move.ofPiece piece = .out := if_pos isAbove
      rw [isAbove] at move ⊢
      cases names with
      | nil =>
        -- nothing is left to go out of, and no later move cancels this one
        have stuck : .out ∈ (rest.map .ofPiece).foldl push [.out] :=
          out_mem_foldl_push _ List.mem_cons_self
        rw [move]
        exact (if_pos stuck).symm
      | cons latest others =>
        rw [move]
        exact later others
    · by_cases isHere : piece = here
      · have move : Move.ofPiece piece = .stay := by rw [Move.ofPiece, if_neg isAbove, if_pos isHere]
        rw [move, isHere]
        exact later names
      · have move : Move.ofPiece piece = .into piece := by
          rw [Move.ofPiece, if_neg isAbove, if_neg isHere]
        have step := follow_of_ne names (Ne.symm nonempty.1) isHere isAbove
        rw [move, step]
        exact later (piece :: names)

theorem foldlM_follow_of_empty_piece {path : Text} (empty : [] ∈ steps path) (names : List Text) :
    (steps path).foldlM follow names = none := by
  have followed := exists_foldlM_follow (slash_not_mem_piece (path.dropWhile (· = '/'))) names
  rw [← steps] at followed
  rw [Option.eq_none_iff_forall_ne_some]
  intro last same
  exact (followed.mp ⟨last, same⟩).1 empty

theorem settle_route (cwd path : Text) :
    settle (route cwd path) =
      (((steps path).map .ofPiece).foldl push ((start cwd path).map .into)).reverse := by
  have begun : (if isAbsolute path then [] else (namesOf cwd).map .into).foldl push [] =
      (start cwd path).map .into := by
    unfold start
    split
    · rfl
    · rw [foldl_push_into, List.append_nil, namesOf]
  rw [settle, route, List.foldl_append, begun]

/-- Cancelling ends, and in one list whatever the order. From that list the canonical form of a
path is read off, apart from the top itself and from paths with an empty piece. -/
theorem canonicalize_settles (cwd path : Text) :
    (WellFounded fun next moves => Cancels moves next) ∧
    ∃ last, (∀ other, Settles (route cwd path) other ↔ other = last) ∧
      canonicalize cwd path =
        if path = top then some top
        else if [] ∈ steps path then none
        else (through last).map ofNames := by
  refine ⟨wellFounded_cancels, settle (route cwd path), fun other => settles_iff, ?_⟩
  unfold canonicalize
  split
  · rfl
  · split
    · rename_i empty
      rw [foldlM_follow_of_empty_piece empty, Option.map_none]
    · rename_i nonempty
      rw [foldlM_follow_eq nonempty, settle_route, through_reverse, Option.map_map]
      rfl

/-- In the working directory `..` is a name, so a move out cancels against it. -/
example :
    canonicalize "/x/..".toList "y/../../z".toList = some "/x/z".toList ∧
      settle (route "/x/..".toList "y/../../z".toList) = [.into ['x'], .into ['z']] := by
  decide

end FileRemoval.Path

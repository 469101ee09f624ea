import FileRemoval.FileSystem.Request

/-! # Steps that match

Two steps match under a relation of their states if from related states they answer the same and
end in related states. File systems whose calls match give matching removers, requests and
histories, so one that is simpler can stand for the other. -/

namespace FileRemoval

open Reporting (report)

namespace Step

variable {σ τ α β : Type} {rel : σ → τ → Prop}

/-- From related states, the same answer and related states. -/
def Matches (rel : σ → τ → Prop) (x : Step σ α) (y : Step τ α) : Prop :=
  ∀ s t, rel s t → (x.run s).answer = (y.run t).answer ∧ rel (x.run s).state (y.run t).state

theorem Matches.pure (a : α) : Matches rel (Pure.pure a : Step σ α) (Pure.pure a : Step τ α) :=
  fun _ _ related => ⟨rfl, related⟩

theorem Matches.report (e : Event) :
    Matches rel (Reporting.report e : Step σ Unit) (Reporting.report e : Step τ Unit) :=
  fun _ _ related => ⟨rfl, related⟩

theorem Matches.bind {x : Step σ α} {y : Step τ α} {next : α → Step σ β} {next' : α → Step τ β}
    (first : Matches rel x y) (later : ∀ a, Matches rel (next a) (next' a)) :
    Matches rel (x >>= next) (y >>= next') := by
  intro s t related
  obtain ⟨same, related'⟩ := first s t related
  obtain ⟨sameLater, relatedLater⟩ := later (x.run s).answer _ _ related'
  rw [run_bind, run_bind]
  rw [same] at sameLater relatedLater ⊢
  exact ⟨sameLater, relatedLater⟩

theorem Matches.mapM {f : α → Step σ β} {g : α → Step τ β} (h : ∀ a, Matches rel (f a) (g a))
    (l : List α) : Matches rel (l.mapM f) (l.mapM g) := by
  induction l with
  | nil => exact .pure []
  | cons a rest ih =>
    rw [List.mapM_cons, List.mapM_cons]
    exact .bind (h a) fun _ => .bind ih fun _ => .pure _

end Step

/-! ### Remover and requests -/

section

variable {σ τ : Type} {rel : σ → τ → Prop} {files : FileSystem (Step σ)}
  {others : FileSystem (Step τ)}

structure FileSystem.Matches (rel : σ → τ → Prop) (files : FileSystem (Step σ))
    (others : FileSystem (Step τ)) : Prop where
  create (path : Text) : Step.Matches rel (files.create path) (others.create path)
  close (handle : Handle) : Step.Matches rel (files.close handle) (others.close handle)
  remove (path : Text) : Step.Matches rel (files.remove path) (others.remove path)
  holds (path : Text) : Step.Matches rel (files.holds path) (others.holds path)

namespace Remover

theorem matches_prepare (same : files.Matches rel others) (createFirst : Bool) (path : Text) :
    Step.Matches rel (prepare ⟨files, createFirst⟩ path) (prepare ⟨others, createFirst⟩ path) := by
  refine .bind (same.create path) fun created => ?_
  cases created with
  | error cause => exact .report _
  | ok handle =>
    refine .bind (same.close handle) fun closed => ?_
    cases closed with
    | error cause => exact .report _
    | ok _ => exact .pure ()

theorem matches_removeAt (same : files.Matches rel others) (createFirst : Bool) (path : Text) :
    Step.Matches rel (removeAt ⟨files, createFirst⟩ path)
      (removeAt ⟨others, createFirst⟩ path) := by
  have removal : Step.Matches rel
      (removeAt ⟨files, false⟩ path) (removeAt ⟨others, false⟩ path) := by
    refine .bind (same.remove path) fun removed => ?_
    cases removed with
    | error cause => exact .pure _
    | ok _ => exact .bind (.report _) fun _ => .pure _
  cases createFirst with
  | false => exact removal
  | true => exact .bind (matches_prepare same true path) fun _ => removal

theorem matches_deliver (out : Sink) (outcome : Report) :
    Step.Matches rel (deliver out outcome : Step σ Sink) (deliver out outcome : Step τ Sink) := by
  unfold deliver
  dsimp only
  split
  · exact .pure _
  · exact .bind (.report _) fun _ => .pure _

theorem matches_run (same : files.Matches rel others) (createFirst : Bool) (paths : List Text)
    (out : Sink) :
    Step.Matches rel (run ⟨files, createFirst⟩ paths out)
      (run ⟨others, createFirst⟩ paths out) := by
  have attempted : Step.Matches rel (attempt ⟨files, createFirst⟩ paths)
      (attempt ⟨others, createFirst⟩ paths) := by
    unfold attempt
    split
    · exact matches_removeAt same createFirst _
    · exact .pure _
  exact .bind attempted fun outcome => .bind (matches_deliver out outcome) fun _ => .pure _

end Remover

theorem FileSystem.matches_perform (same : files.Matches rel others) (request : Request) :
    Step.Matches rel (files.perform request) (others.perform request) := by
  cases request with
  | create path => exact .bind (same.create path) fun _ => .pure _
  | close handle => exact .bind (same.close handle) fun _ => .pure _
  | remove path => exact .bind (same.remove path) fun _ => .pure _
  | holds path => exact .bind (same.holds path) fun _ => .pure _
  | run createFirst paths room =>
    exact .bind (Remover.matches_run same createFirst paths (.ofLimit room)) fun _ => .pure _

end

/-! ### All requests -/

def FileSystem.performAll {σ : Type} (files : FileSystem (Step σ)) (requests : List Request) :
    Step σ (List Answer) :=
  requests.mapM files.perform

theorem FileSystem.state_performAll_cons {σ : Type} (files : FileSystem (Step σ))
    (request : Request) (rest : List Request) (t : σ) :
    ((files.performAll (request :: rest)).run t).state =
      ((files.performAll rest).run ((files.perform request).run t).state).state := by
  simp only [FileSystem.performAll, List.mapM_cons, Step.run_bind, Step.run_pure]

theorem FileSystem.matches_performAll {σ τ : Type} {rel : σ → τ → Prop}
    {files : FileSystem (Step σ)} {others : FileSystem (Step τ)} (same : files.Matches rel others)
    (requests : List Request) :
    Step.Matches rel (files.performAll requests) (others.performAll requests) :=
  .mapM (matches_perform same) requests

end FileRemoval

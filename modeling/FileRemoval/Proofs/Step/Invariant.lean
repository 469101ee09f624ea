import FileRemoval.FileSystem.Request

/-! # What steps keep

A fact about the state and the log of events that every call of a file system keeps is kept by the
remover, by every request and by every history of requests. A fact about the state alone, with a
bound on the events that are reported, is one like that. -/

namespace FileRemoval

open Reporting (report)

namespace Step

variable {σ α β : Type} {fits : σ → List Event → Prop} {inv : σ → Prop} {allowed : Event → Prop}

/-- Where the state and the log fit before the step, they fit after it. -/
def Continues (fits : σ → List Event → Prop) (x : Step σ α) : Prop :=
  ∀ s log, fits s log → fits (x.run s).state (log ++ (x.run s).events)

theorem Continues.pure (a : α) : Continues fits (Pure.pure a : Step σ α) := by
  intro s log before
  rw [run_pure, List.append_nil]
  exact before

theorem Continues.bind {x : Step σ α} {next : α → Step σ β} (first : Continues fits x)
    (later : ∀ a, Continues fits (next a)) : Continues fits (x >>= next) := by
  intro s log before
  rw [run_bind, ← List.append_assoc]
  exact later _ _ _ (first s log before)

theorem Continues.mapM {f : α → Step σ β} (h : ∀ a, Continues fits (f a)) (l : List α) :
    Continues fits (l.mapM f) := by
  induction l with
  | nil => exact .pure []
  | cons a rest ih =>
    rw [List.mapM_cons]
    exact .bind (h a) fun _ => .bind ih fun _ => .pure _

/-- The step keeps `inv` and reports only events that are allowed. -/
def Keeps (inv : σ → Prop) (allowed : Event → Prop) (x : Step σ α) : Prop :=
  ∀ s, inv s → inv (x.run s).state ∧ ∀ e ∈ (x.run s).events, allowed e

theorem keeps_iff_continues {x : Step σ α} : Keeps inv allowed x ↔
    Continues (fun s log => inv s ∧ ∀ e ∈ log, allowed e) x := by
  constructor
  · intro keeps s log before
    obtain ⟨kept, events⟩ := keeps s before.1
    exact ⟨kept, fun e member => (List.mem_append.mp member).elim (before.2 e) (events e)⟩
  · intro continues s holds
    exact continues s [] ⟨holds, fun e member => absurd member List.not_mem_nil⟩

theorem Keeps.pure (a : α) : Keeps inv allowed (Pure.pure a : Step σ α) :=
  keeps_iff_continues.mpr (.pure a)

theorem Keeps.report {e : Event} (h : allowed e) :
    Keeps inv allowed (Reporting.report e : Step σ Unit) := by
  intro s holds
  refine ⟨holds, fun other member => ?_⟩
  rw [run_report, List.mem_singleton] at member
  rw [member]
  exact h

theorem Keeps.bind {x : Step σ α} {next : α → Step σ β} (first : Keeps inv allowed x)
    (later : ∀ a, Keeps inv allowed (next a)) : Keeps inv allowed (x >>= next) :=
  keeps_iff_continues.mpr
    (.bind (keeps_iff_continues.mp first) fun a => keeps_iff_continues.mp (later a))

theorem Keeps.mapM {f : α → Step σ β} (h : ∀ a, Keeps inv allowed (f a)) (l : List α) :
    Keeps inv allowed (l.mapM f) :=
  keeps_iff_continues.mpr (.mapM (fun a => keeps_iff_continues.mp (h a)) l)

/-- The step changes nothing unless it succeeds. -/
def Atomic {ε : Type} (x : Step σ (Except ε α)) : Prop :=
  ∀ s cause, (x.run s).answer = .error cause → (x.run s).state = s

end Step

/-! ### Remover and requests -/

section

variable {σ : Type} {fits : σ → List Event → Prop} {inv : σ → Prop} {allowed : Event → Prop}
  {files : FileSystem (Step σ)}

structure FileSystem.Continues (fits : σ → List Event → Prop)
    (files : FileSystem (Step σ)) : Prop where
  create (path : Text) : Step.Continues fits (files.create path)
  close (handle : Handle) : Step.Continues fits (files.close handle)
  remove (path : Text) : Step.Continues fits (files.remove path)
  holds (path : Text) : Step.Continues fits (files.holds path)

structure FileSystem.Keeps (inv : σ → Prop) (allowed : Event → Prop)
    (files : FileSystem (Step σ)) : Prop where
  create (path : Text) : Step.Keeps inv allowed (files.create path)
  close (handle : Handle) : Step.Keeps inv allowed (files.close handle)
  remove (path : Text) : Step.Keeps inv allowed (files.remove path)
  holds (path : Text) : Step.Keeps inv allowed (files.holds path)

theorem FileSystem.Keeps.continues (kept : files.Keeps inv allowed) :
    files.Continues fun s log => inv s ∧ ∀ e ∈ log, allowed e where
  create path := Step.keeps_iff_continues.mp (kept.create path)
  close handle := Step.keeps_iff_continues.mp (kept.close handle)
  remove path := Step.keeps_iff_continues.mp (kept.remove path)
  holds path := Step.keeps_iff_continues.mp (kept.holds path)

structure FileSystem.Atomic (files : FileSystem (Step σ)) : Prop where
  create (path : Text) : Step.Atomic (files.create path)
  close (handle : Handle) : Step.Atomic (files.close handle)
  remove (path : Text) : Step.Atomic (files.remove path)

/-- The events that a remover adds to those of its file system. -/
structure Remover.Reports (allowed : Event → Prop) : Prop where
  removed (path : Text) : allowed (.removed path)
  createFailed (path : Text) (cause : FileError) : allowed (.createFailed path cause)
  closeFailed (handle : Handle) (path : Text) (cause : FileError) :
    allowed (.closeFailed handle path cause)
  reportLost : allowed .reportLost

theorem Remover.Reports.mono {more : Event → Prop} (reports : Reports allowed)
    (h : ∀ e, allowed e → more e) : Reports more where
  removed path := h _ (reports.removed path)
  createFailed path cause := h _ (reports.createFailed path cause)
  closeFailed handle path cause := h _ (reports.closeFailed handle path cause)
  reportLost := h _ reports.reportLost

namespace Remover

variable (continues : files.Continues fits)
  (reports : Reports fun e => Step.Continues fits (report e : Step σ Unit))
include reports

theorem continues_deliver (out : Sink) (outcome : Report) :
    Step.Continues fits (deliver out outcome : Step σ Sink) := by
  unfold deliver
  dsimp only
  split
  · exact .pure _
  · exact .bind reports.reportLost fun _ => .pure _

include continues

theorem continues_prepare (createFirst : Bool) (path : Text) :
    Step.Continues fits (prepare ⟨files, createFirst⟩ path) := by
  refine .bind (continues.create path) fun created => ?_
  cases created with
  | error cause => exact reports.createFailed path cause
  | ok handle =>
    refine .bind (continues.close handle) fun closed => ?_
    cases closed with
    | error cause => exact reports.closeFailed handle path cause
    | ok _ => exact .pure ()

theorem continues_removeAt (createFirst : Bool) (path : Text) :
    Step.Continues fits (removeAt ⟨files, createFirst⟩ path) := by
  have removal : Step.Continues fits (removeAt ⟨files, false⟩ path) := by
    refine .bind (continues.remove path) fun removed => ?_
    cases removed with
    | error cause => exact .pure _
    | ok _ => exact .bind (reports.removed path) fun _ => .pure _
  cases createFirst with
  | false => exact removal
  | true => exact .bind (continues_prepare continues reports true path) fun _ => removal

theorem continues_run (createFirst : Bool) (paths : List Text) (out : Sink) :
    Step.Continues fits (run ⟨files, createFirst⟩ paths out) := by
  have attempted : Step.Continues fits (attempt ⟨files, createFirst⟩ paths) := by
    unfold attempt
    split
    · exact continues_removeAt continues reports createFirst _
    · exact .pure _
  exact .bind attempted fun outcome =>
    .bind (continues_deliver reports out outcome) fun _ => .pure _

end Remover

theorem FileSystem.continues_perform (continues : files.Continues fits)
    (reports : Remover.Reports fun e => Step.Continues fits (report e : Step σ Unit))
    (request : Request) : Step.Continues fits (files.perform request) := by
  cases request with
  | create path => exact .bind (continues.create path) fun _ => .pure _
  | close handle => exact .bind (continues.close handle) fun _ => .pure _
  | remove path => exact .bind (continues.remove path) fun _ => .pure _
  | holds path => exact .bind (continues.holds path) fun _ => .pure _
  | run createFirst paths room =>
    exact .bind (Remover.continues_run continues reports createFirst paths (.ofLimit room))
      fun _ => .pure _

theorem FileSystem.keeps_perform (kept : files.Keeps inv allowed)
    (reports : Remover.Reports allowed) (request : Request) :
    Step.Keeps inv allowed (files.perform request) := by
  have reported : Remover.Reports fun e => Step.Continues
      (fun s log => inv s ∧ ∀ e ∈ log, allowed e) (report e : Step σ Unit) :=
    reports.mono fun e isAllowed => Step.keeps_iff_continues.mp (.report isAllowed)
  exact Step.keeps_iff_continues.mpr
    (FileSystem.continues_perform kept.continues reported request)

end

end FileRemoval

import FileRemoval.Remover

/-! # Runs of the remover

A run is an attempt at the removal, which knows nothing of the output, and then the writing of its
report. An attempt with one path comes to what the removal of that path comes to, after the creation
if there is one. Its report depends on the answer of the removal alone. -/

namespace FileRemoval

/-- What a step comes to that ends by writing `bytes`. -/
def Outcome.writing {σ α : Type} (o : Outcome σ α) (bytes : Bytes) (lost : Event) (out : Sink) :
    Outcome σ (α × Sink) :=
  ⟨(o.answer, (out.write bytes).1), o.state,
    o.events ++ if (out.write bytes).2 then [] else [lost]⟩

namespace Remover

variable {σ : Type} (r : Remover (Step σ)) (path : Text) (out : Sink) (s : σ)

def reportOf (path : Text) : Except FileError Unit → Report
  | .error cause => .failed path cause
  | .ok () => .removed path

def prepared : σ :=
  if r.createFirst then ((r.prepare path).run s).state else s

theorem run_prepare_error {cause : FileError}
    (h : ((r.files.create path).run s).answer = .error cause) :
    ((r.prepare path).run s).state = ((r.files.create path).run s).state := by
  simp only [prepare, Step.run_bind, h, Step.run_report]

theorem run_prepare_ok {handle : Handle}
    (h : ((r.files.create path).run s).answer = .ok handle) :
    ((r.prepare path).run s).state =
      ((r.files.close handle).run ((r.files.create path).run s).state).state := by
  simp only [prepare, Step.run_bind, h]
  cases ((r.files.close handle).run ((r.files.create path).run s).state).answer <;> rfl

theorem run_removeAt :
    ((r.removeAt path).run s).answer =
        reportOf path ((r.files.remove path).run (r.prepared path s)).answer ∧
      ((r.removeAt path).run s).state =
        ((r.files.remove path).run (r.prepared path s)).state := by
  have removal : ∀ t, ((Remover.removeAt ⟨r.files, false⟩ path).run t).answer =
        reportOf path ((r.files.remove path).run t).answer ∧
      ((Remover.removeAt ⟨r.files, false⟩ path).run t).state =
        ((r.files.remove path).run t).state := by
    intro t
    simp only [removeAt, Bool.false_eq_true, ↓reduceIte, Step.run_bind]
    cases ((r.files.remove path).run t).answer <;> exact ⟨rfl, rfl⟩
  obtain ⟨files, createFirst⟩ := r
  cases createFirst with
  | false => exact removal s
  | true => exact removal ((prepare ⟨files, true⟩ path).run s).state

theorem run_deliver (outcome : Report) :
    (deliver out outcome : Step σ Sink).run s =
      ⟨(out.write outcome.text.utf8).1, s,
        if (out.write outcome.text.utf8).2 then [] else [.reportLost]⟩ := by
  unfold deliver
  dsimp only
  split <;> rfl

theorem attempt_not_one {paths : List Text} (notOne : ∀ path, paths ≠ [path]) :
    r.attempt paths = pure .usage := by
  unfold attempt
  split
  · exact absurd rfl (notOne _)
  · rfl

theorem run_eq_writing (paths : List Text) :
    let tried := (r.attempt paths).run s
    (r.run paths out).run s =
      Outcome.writing ⟨tried.answer.exit, tried.state, tried.events⟩ tried.answer.text.utf8
        .reportLost out := by
  intro tried
  simp only [run, Step.run_bind, Step.run_pure, run_deliver, List.append_nil]
  rfl

theorem run_one :
    let answer := ((r.files.remove path).run (r.prepared path s)).answer
    let last := (r.run [path] out).run s
    last.answer = ((reportOf path answer).exit, (out.write (reportOf path answer).text.utf8).1) ∧
      last.state = ((r.files.remove path).run (r.prepared path s)).state := by
  intro answer last
  have single : r.attempt [path] = r.removeAt path := rfl
  obtain ⟨removed, left⟩ := run_removeAt r path s
  simp only [last, run_eq_writing, single, removed, left]
  exact ⟨rfl, rfl⟩

theorem run_not_one {paths : List Text} (notOne : ∀ path, paths ≠ [path]) :
    ((r.run paths out).run s).answer.1 = .failure ∧ ((r.run paths out).run s).state = s := by
  rw [run_eq_writing, attempt_not_one r notOne]
  exact ⟨rfl, rfl⟩

end Remover

end FileRemoval

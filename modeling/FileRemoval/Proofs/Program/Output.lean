import FileRemoval.CommandLine.Notice
import FileRemoval.Proofs.Remover.Protocol

/-! # Outputs that fill up

An output with room for some bytes takes the first of them. Nothing else depends on its room: the
calls that are made and what they leave, the exit, and the command line that is read. If something
is cut off, one event more is reported, as the last. -/

namespace FileRemoval

variable {σ α : Type}

/-- The outcome `cut` with room for `n` bytes against the outcome `full` with room for all: the
output took the first `n` bytes, and `lost` is reported last if there are more. -/
structure CutShort (n : Nat) (lost : Event) (cut full : Outcome σ (α × Sink)) : Prop where
  answer : cut.answer.1 = full.answer.1
  state : cut.state = full.state
  taken : cut.answer.2.taken = full.answer.2.taken.take n
  events : cut.events = full.events ++ if n < full.answer.2.taken.length then [lost] else []

theorem cutShort_writing (o : Outcome σ α) (bytes : Bytes) (lost : Event) (n : Nat) :
    CutShort n lost (o.writing bytes lost (.ofLimit (some n)))
      (o.writing bytes lost (.ofLimit none)) where
  answer := rfl
  state := rfl
  taken := Sink.taken_write_ofLimit n bytes
  events := by
    show o.events ++ (if decide (bytes.length ≤ n) = true then [] else [lost]) =
      o.events ++ [] ++ if n < bytes.length then [lost] else []
    by_cases fits : bytes.length ≤ n
    · have notCut : ¬ n < bytes.length := by omega
      rw [if_pos (decide_eq_true fits), if_neg notCut, List.append_nil, List.append_nil]
    · have cut : n < bytes.length := by omega
      rw [if_neg (by simpa using fits), if_pos cut, List.append_nil]

/-! ### The remover -/

namespace Remover

theorem run_cutShort (r : Remover (Step σ)) (paths : List Text) (s : σ) (n : Nat) :
    CutShort n .reportLost ((r.run paths (.ofLimit (some n))).run s)
      ((r.run paths (.ofLimit none)).run s) := by
  rw [run_eq_writing, run_eq_writing]
  apply cutShort_writing

end Remover

/-! ### The command line -/

namespace CommandLine.Derived

variable {derived : Derived} {args : List Bytes}

theorem run_load_of_ok {line : CommandLine} (parsed : derived.parse args = .ok line) (out : Sink)
    (s : σ) : (derived.load args out : Step σ _).run s = ⟨(.ok line, out), s, []⟩ := by
  simp only [load, parsed, Step.run_pure]

/-- A misuse is told in the log before its notice is written. -/
theorem run_load_of_error {stop : Stop} (parsed : derived.parse args = .error stop) (out : Sink)
    (s : σ) : (derived.load args out : Step σ _).run s =
      Outcome.writing
        ⟨.error stop.exit, s, if stop.kind = .misuse then [.misused stop.shown] else []⟩
        stop.text.utf8 .usageLost out := by
  simp only [load, parsed, Outcome.writing]
  split
  · split <;> rfl
  · split <;> rfl

theorem load_cutShort (derived : Derived) (args : List Bytes) (s : σ) (n : Nat) :
    CutShort n .usageLost ((derived.load args (.ofLimit (some n)) : Step σ _).run s)
      ((derived.load args (.ofLimit none) : Step σ _).run s) := by
  cases parsed : derived.parse args with
  | error stop =>
    rw [run_load_of_error parsed, run_load_of_error parsed]
    apply cutShort_writing
  | ok line =>
    -- nothing is written, so nothing can be cut off
    rw [run_load_of_ok parsed, run_load_of_ok parsed]
    exact ⟨rfl, rfl, List.take_nil.symm, rfl⟩

end CommandLine.Derived

/-- An output that fills up changes nothing but the output. Whatever the file system and whatever
the room, a run makes the same calls, leaves the same state and ends in the same exit as with room
for all; the output took the first bytes of the whole report, as many as there is room for; and the
events are the same, but for the error that is reported last if the report did not fit. A command
line that is read with little room, by whatever parser, is read to the same end, and its notice is
cut in the same way. -/
theorem output_room_only_cuts (s : σ) (n : Nat) :
    (∀ (files : FileSystem (Step σ)) (createFirst : Bool) (paths : List Text),
      let last := fun out => (Remover.run ⟨files, createFirst⟩ paths out).run s
      let calls := fun out =>
        ((Remover.run ⟨files.traced, createFirst⟩ paths out).run (s, [])).state.2
      calls (.ofLimit (some n)) = calls (.ofLimit none) ∧
      CutShort n .reportLost (last (.ofLimit (some n))) (last (.ofLimit none))) ∧
    (∀ (derived : CommandLine.Derived) (args : List Bytes),
      let loaded := fun out => (derived.load args out : Step σ _).run s
      CutShort n .usageLost (loaded (.ofLimit (some n))) (loaded (.ofLimit none))) ∧
    Event.reportLost.level = .error ∧ Event.usageLost.level = .error := by
  refine ⟨?_, fun derived args => derived.load_cutShort args s n, rfl, rfl⟩
  intro files createFirst paths last calls
  have traced := Remover.run_cutShort ⟨files.traced, createFirst⟩ paths (s, []) n
  exact ⟨congrArg Prod.snd traced.state, Remover.run_cutShort ⟨files, createFirst⟩ paths s n⟩

end FileRemoval

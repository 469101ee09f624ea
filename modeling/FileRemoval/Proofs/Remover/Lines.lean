import FileRemoval.FileSystem.Rehearsed
import FileRemoval.Proofs.Remover.Protocol
import FileRemoval.Proofs.Text.Ascii

/-! # How many lines a run writes

A report ends in a line feed, and the wording around the path has none. The path is shown as it
is, so every line feed in it begins another line of the output. -/

namespace FileRemoval.Remover

def lineFeed : UInt8 := 10

theorem count_lineFeed (t : Text) : t.utf8.count lineFeed = t.count '\n' :=
  Text.count_utf8 (d := '\n') (by decide) t

theorem count_message (cause : FileError) : cause.message.count '\n' = 0 := by
  cases cause <;> decide

theorem count_text_reportOf (path : Text) (answer : Except FileError Unit) :
    (reportOf path answer).text.count '\n' = path.count '\n' + 1 := by
  have feed : ['\n'].count '\n' = 1 := rfl
  cases answer with
  | ok _ =>
    have lead : "remove successful: ".toList.count '\n' = 0 := by decide
    show ("remove successful: ".toList ++ path ++ ['\n']).count '\n' = _
    rw [List.count_append, List.count_append]
    omega
  | error cause =>
    have lead : "Unable to remove ".toList.count '\n' = 0 := by decide
    have colon : ": ".toList.count '\n' = 0 := by decide
    have reason := count_message cause
    show ("Unable to remove ".toList ++ path ++ ": ".toList ++ cause.message ++ ['\n']).count
      '\n' = _
    rw [List.count_append, List.count_append, List.count_append, List.count_append]
    omega

theorem getLast?_text (r : Report) : r.text.utf8.getLast? = some lineFeed := by
  rw [Report.text, Text.utf8_append]
  exact List.getLast?_concat

/-- What a run writes ends in a line feed. It holds one more for every line feed in the path, so
it is one line exactly if the path has none. Without exactly one path it is always one line. -/
theorem lines_of_run {σ : Type} (files : FileSystem (Step σ)) (createFirst : Bool)
    (paths : List Text) (s : σ) :
    let written := ((run ⟨files, createFirst⟩ paths (.ofLimit none)).run s).answer.2.taken
    written.getLast? = some lineFeed ∧
    ((∀ path, paths ≠ [path]) → written.count lineFeed = 1) ∧
    (∀ path, paths = [path] → written.count lineFeed = path.count '\n' + 1) ∧
    (written.count lineFeed = 1 ↔ ∀ path, paths = [path] → '\n' ∉ path) := by
  intro written
  by_cases one : ∃ path, paths = [path]
  · obtain ⟨path, rfl⟩ := one
    have outcome : written = (reportOf path _).text.utf8 :=
      congrArg (·.answer.2.taken) (run_one_unbounded ⟨files, createFirst⟩ path s)
    have lines : written.count lineFeed = path.count '\n' + 1 := by
      rw [outcome, count_lineFeed, count_text_reportOf]
    refine ⟨by rw [outcome, getLast?_text], fun notOne => absurd rfl (notOne path), ?_, ?_⟩
    · intro other same
      cases same
      exact lines
    · rw [lines]
      constructor
      · intro alone other same
        cases same
        exact List.count_eq_zero.mp (by omega)
      · intro clean
        have none : path.count '\n' = 0 := List.count_eq_zero.mpr (clean path rfl)
        omega
  · have notOne : ∀ path, paths ≠ [path] := fun path same => one ⟨path, same⟩
    have outcome : written = Report.usage.text.utf8 :=
      congrArg (·.answer.2.taken) (run_not_one_unbounded ⟨files, createFirst⟩ notOne s)
    have lines : written.count lineFeed = 1 := by
      rw [outcome, count_lineFeed]
      decide
    exact ⟨by rw [outcome, getLast?_text], fun _ => lines, fun path same => absurd same (notOne path),
      fun _ path same => absurd same (notOne path), fun _ => lines⟩

/-- A path with a line feed forges a report: one run writes what two runs would have written. -/
theorem forged_report :
    let files := Script.fileSystem ⟨none, none, none, ⟨0⟩⟩
    let written (path : Text) :=
      ((run ⟨files, false⟩ [path] (.ofLimit none)).run ()).answer.2.taken
    (written "a\nremove successful: b".toList).count lineFeed = 2 ∧
      written "a\nremove successful: b".toList = written "a".toList ++ written "b".toList := by
  decide

end FileRemoval.Remover

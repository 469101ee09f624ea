import FileRemoval.Proofs.Remover.Runs

/-! # Reading a report back

The text of a report says what the run came to, whatever the path reads: its first letters tell the
kind of report, and since no cause has a colon in its message, the last colon of the line is where
the path ends. -/

namespace FileRemoval

/-- A separator that neither ending holds splits a text in one way. -/
theorem Text.append_cons_inj {a b s t : Text} {separator : Char} (cleanLeft : separator ∉ s)
    (cleanRight : separator ∉ t) (h : a ++ separator :: s = b ++ separator :: t) :
    a = b ∧ s = t := by
  rcases List.append_eq_append_iff.mp h with ⟨between, left, right⟩ | ⟨between, left, right⟩
  · cases between with
    | nil =>
      injection right with _ same
      exact ⟨(left.trans (List.append_nil a)).symm, same⟩
    | cons first rest =>
      injection right with _ longer
      exact absurd (longer ▸ List.mem_append_right rest List.mem_cons_self) cleanLeft
  · cases between with
    | nil =>
      injection right with _ same
      exact ⟨left.trans (List.append_nil b), same.symm⟩
    | cons first rest =>
      injection right with _ longer
      exact absurd (longer ▸ List.mem_append_right rest List.mem_cons_self) cleanRight

namespace FileError

def causes : List FileError :=
  [.alreadyExists, .notFound, .isADirectory, .notADirectory, .permissionDenied, .invalidPath,
    .nameTooLong, .tooManyOpenFiles, .badHandle, .io]

def ofMessage? (message : Text) : Option FileError :=
  causes.find? fun cause => cause.message = message

theorem ofMessage?_message (cause : FileError) : ofMessage? cause.message = some cause := by
  cases cause <;> decide

theorem message_injective : Function.Injective message := by
  intro cause other same
  have found := congrArg ofMessage? same
  rw [ofMessage?_message, ofMessage?_message] at found
  exact Option.some.inj found

theorem colon_not_mem_message (cause : FileError) : ':' ∉ cause.message := by
  cases cause <;> decide

end FileError

namespace Report

/-- The first letters of a report. -/
def lead : Report → Text
  | .usage => ['U', 's']
  | .removed _ => ['r', 'e']
  | .failed .. => ['U', 'n']

theorem take_text (r : Report) : r.text.take 2 = r.lead := by
  cases r <;> rfl

theorem text_removed_inj {path other : Text} (h : (removed path).text = (removed other).text) :
    path = other := by
  have lines : "remove successful: ".toList ++ path = "remove successful: ".toList ++ other :=
    List.append_cancel_right h
  exact List.append_cancel_left lines

theorem text_failed_inj {path other : Text} {cause otherCause : FileError}
    (h : (failed path cause).text = (failed other otherCause).text) :
    path = other ∧ cause = otherCause := by
  have lines : (failed path cause).line = (failed other otherCause).line :=
    List.append_cancel_right h
  have split (path : Text) (cause : FileError) : (failed path cause).line =
      ("Unable to remove ".toList ++ path) ++ ':' :: ' ' :: cause.message := by
    show "Unable to remove ".toList ++ path ++ [':', ' '] ++ cause.message = _
    rw [List.append_assoc]
    rfl
  have clean (cause : FileError) : ':' ∉ ' ' :: cause.message := by
    intro member
    rcases List.mem_cons.mp member with blank | inside
    · cases blank
    · exact cause.colon_not_mem_message inside
  rw [split, split] at lines
  obtain ⟨fronts, endings⟩ := Text.append_cons_inj (clean cause) (clean otherCause) lines
  injection endings with _ messages
  exact ⟨List.append_cancel_left fronts, FileError.message_injective messages⟩

theorem text_injective : Function.Injective text := by
  intro r other same
  have leads : r.lead = other.lead := by
    rw [← take_text, ← take_text, same]
  cases r with
  | usage =>
    cases other with
    | usage => rfl
    | removed path => simp [lead] at leads
    | failed path cause => simp [lead] at leads
  | removed path =>
    cases other with
    | usage => simp [lead] at leads
    | removed path => rw [text_removed_inj same]
    | failed path cause => simp [lead] at leads
  | failed path cause =>
    cases other with
    | usage => simp [lead] at leads
    | removed path => simp [lead] at leads
    | failed path cause =>
      obtain ⟨samePath, sameCause⟩ := text_failed_inj same
      rw [samePath, sameCause]

end Report

namespace Remover

variable {σ τ : Type}

theorem reportOf_inj {path other : Text} {answer otherAnswer : Except FileError Unit}
    (h : reportOf path answer = reportOf other otherAnswer) :
    path = other ∧ answer = otherAnswer := by
  cases answer <;> cases otherAnswer <;> cases h <;> exact ⟨rfl, rfl⟩

theorem reportOf_ne_usage (path : Text) (answer : Except FileError Unit) :
    reportOf path answer ≠ .usage := by
  cases answer <;> exact fun same => nomatch same

theorem attempt_cases (r : Remover (Step σ)) (paths : List Text) (s : σ) :
    ((∀ path, paths ≠ [path]) ∧ ((r.attempt paths).run s).answer = .usage) ∨
    ∃ path, paths = [path] ∧ ((r.attempt paths).run s).answer =
      reportOf path ((r.files.remove path).run (r.prepared path s)).answer := by
  by_cases one : ∃ path, paths = [path]
  · obtain ⟨path, isPath⟩ := one
    refine .inr ⟨path, isPath, ?_⟩
    rw [isPath]
    exact (run_removeAt r path s).1
  · have notOne : ∀ path, paths ≠ [path] := fun path same => one ⟨path, same⟩
    refine .inl ⟨notOne, ?_⟩
    rw [attempt_not_one r notOne, Step.run_pure]

/-- Two attempts come to the same report exactly if neither had one path, or both had the same one
and its removal was answered the same. -/
theorem attempt_eq_iff (r : Remover (Step σ)) (other : Remover (Step τ)) (paths more : List Text)
    (s : σ) (t : τ) :
    ((r.attempt paths).run s).answer = ((other.attempt more).run t).answer ↔
      ((∀ path, paths ≠ [path]) ∧ ∀ path, more ≠ [path]) ∨
        ∃ path, paths = [path] ∧ more = [path] ∧
          ((r.files.remove path).run (r.prepared path s)).answer =
            ((other.files.remove path).run (other.prepared path t)).answer := by
  rcases attempt_cases r paths s with ⟨notOne, usage⟩ | ⟨path, isPath, outcome⟩ <;>
  rcases attempt_cases other more t with ⟨noneOther, usageOther⟩ | ⟨next, isNext, outcomeNext⟩
  · rw [usage, usageOther]
    exact ⟨fun _ => .inl ⟨notOne, noneOther⟩, fun _ => rfl⟩
  · rw [usage, outcomeNext]
    constructor
    · intro same
      exact absurd same.symm (reportOf_ne_usage next _)
    · intro outcomes
      rcases outcomes with ⟨-, noneOther⟩ | ⟨path, isPath, -⟩
      · exact absurd isNext (noneOther next)
      · exact absurd isPath (notOne path)
  · rw [outcome, usageOther]
    constructor
    · intro same
      exact absurd same (reportOf_ne_usage path _)
    · intro outcomes
      rcases outcomes with ⟨notOne, -⟩ | ⟨next, -, isNext, -⟩
      · exact absurd isPath (notOne path)
      · exact absurd isNext (noneOther next)
  · rw [outcome, outcomeNext]
    constructor
    · intro same
      obtain ⟨samePath, sameAnswer⟩ := reportOf_inj same
      subst samePath
      exact .inr ⟨path, isPath, isNext, sameAnswer⟩
    · intro outcomes
      rcases outcomes with ⟨notOne, -⟩ | ⟨both, isBoth, isBothNext, answers⟩
      · exact absurd isPath (notOne path)
      · cases isPath.symm.trans isBoth
        cases isNext.symm.trans isBothNext
        rw [answers]

/-- A report can be read back. Two runs, over whatever file systems, write the same exactly if they
end in the same exit and either neither was given one path, or both were given the same one and its
removal was answered the same in both, with the same cause if it failed. -/
theorem report_tells_outcome (files : FileSystem (Step σ)) (others : FileSystem (Step τ))
    (createFirst createOther : Bool) (paths more : List Text) (s : σ) (t : τ) :
    let last := (run ⟨files, createFirst⟩ paths (.ofLimit none)).run s
    let other := (run ⟨others, createOther⟩ more (.ofLimit none)).run t
    last.answer.2.taken = other.answer.2.taken ↔
      last.answer.1 = other.answer.1 ∧
      (((∀ path, paths ≠ [path]) ∧ ∀ path, more ≠ [path]) ∨
        ∃ path, paths = [path] ∧ more = [path] ∧
          ((files.remove path).run (prepared ⟨files, createFirst⟩ path s)).answer =
            ((others.remove path).run (prepared ⟨others, createOther⟩ path t)).answer) := by
  intro last other
  have written : last = _ := run_eq_writing ⟨files, createFirst⟩ (.ofLimit none) s paths
  have writtenOther : other = _ := run_eq_writing ⟨others, createOther⟩ (.ofLimit none) t more
  have sameReports := attempt_eq_iff ⟨files, createFirst⟩ ⟨others, createOther⟩ paths more s t
  rw [written, writtenOther]
  constructor
  · intro same
    have reports := Report.text_injective (Text.utf8_injective same)
    exact ⟨congrArg Report.exit reports, sameReports.mp reports⟩
  · intro ⟨_, outcomes⟩
    exact congrArg (fun report => report.text.utf8) (sameReports.mpr outcomes)

end Remover

end FileRemoval

import Mathlib.Data.List.TakeWhile
import FileRemoval.Proofs.Path.Names

/-! # Joined paths

What two paths joined by a slash come to is what the second comes to from where the first leads. -/

namespace FileRemoval.Path

section

variable {path rest : Text}

theorem steps_top_append_slash (relative : isRelative rest = true) :
    steps (top ++ '/' :: rest) = pieces rest := by
  have behind : (top ++ '/' :: rest).dropWhile (· = '/') = rest.dropWhile (· = '/') := by
    simp [top]
  rw [steps, behind, ← steps, steps_of_isRelative relative]

theorem steps_append_slash (other : ∃ c ∈ path, c ≠ '/') (rest : Text) :
    steps (path ++ '/' :: rest) = steps path ++ pieces rest := by
  have left : path.dropWhile (· = '/') ≠ [] := by
    obtain ⟨c, member, apart⟩ := other
    intro none
    have slash := List.dropWhile_eq_nil_iff.mp none c member
    exact apart (by simpa using slash)
  rw [steps, List.dropWhile_append, if_neg (by simpa using left), pieces_append_slash, ← steps]

theorem append_slash_ne_top (nonempty : path ≠ []) (rest : Text) : path ++ '/' :: rest ≠ top := by
  intro same
  have length := congrArg List.length same
  have positive := List.length_pos_iff.mpr nonempty
  rw [List.length_append, List.length_cons, top, List.length_singleton] at length
  omega

theorem start_append_slash (cwd : Text) (nonempty : path ≠ []) (rest : Text) :
    start cwd (path ++ '/' :: rest) = start cwd path := by
  obtain ⟨c, tail, rfl⟩ := List.exists_cons_of_ne_nil nonempty
  rfl

/-- Starting from the path that a stack of names makes is starting with that stack. -/
theorem start_ofNames {stack : List Text} (plain : ∀ name ∈ stack, name ≠ [] ∧ '/' ∉ name)
    (relative : isRelative rest = true) : start (ofNames stack.reverse) rest = stack := by
  have notAbsolute : isAbsolute rest = false := by simpa [isRelative] using relative
  have read : namesOf (ofNames stack.reverse) = stack.reverse :=
    namesOf_ofNames_of_slashless (fun name member => (plain name (List.mem_reverse.mp member)).1)
      fun name member => (plain name (List.mem_reverse.mp member)).2
  rw [start, if_neg (by simp [notAbsolute]), ← namesOf, read, List.reverse_reverse]

/-- The pieces of the working directory may read like dots, but none is empty or holds a slash. -/
theorem plain_of_follow {cwd : Text} {last : List Text}
    (h : (steps path).foldlM follow (start cwd path) = some last) :
    ∀ name ∈ last, name ≠ [] ∧ '/' ∉ name := by
  intro name member
  rcases mem_of_follow h name member with begun | ⟨inside, nonempty, -, -⟩
  · exact (mem_start begun).2
  · exact ⟨nonempty, slash_not_mem_piece _ name inside⟩

end

/-- Resolving a joined path is resolving its first part and then, from there, the rest. The one
fails exactly if the other does, also when the rest climbs back through the first part. -/
theorem canonicalize_append_slash (cwd : Text) {path rest : Text}
    (leads : path = top ∨ ∃ c ∈ path, c ≠ '/') (relative : isRelative rest = true) :
    canonicalize cwd (path ++ '/' :: rest) =
      (canonicalize cwd path).bind fun base => canonicalize base rest := by
  rcases leads with rfl | other
  · have first : canonicalize cwd top = some top := if_pos rfl
    have joint := append_slash_ne_top (show top ≠ [] by decide) rest
    rw [first, Option.bind_some, canonicalize_of_isRelative top relative, start_top,
      canonicalize, if_neg joint, steps_top_append_slash relative]
    rfl
  · have nonempty : path ≠ [] := by
      obtain ⟨c, member, -⟩ := other
      exact List.ne_nil_of_mem member
    have notTop : path ≠ top := by
      rintro rfl
      obtain ⟨c, member, apart⟩ := other
      exact apart (List.mem_singleton.mp member)
    have joint := append_slash_ne_top nonempty rest
    rw [canonicalize, if_neg joint, steps_append_slash other, start_append_slash cwd nonempty,
      List.foldlM_append, canonicalize, if_neg notTop]
    cases followed : (steps path).foldlM follow (start cwd path) with
    | none => rfl
    | some stack =>
      have base := canonicalize_of_isRelative (ofNames stack.reverse) relative
      rw [start_ofNames (plain_of_follow followed) relative] at base
      rw [Option.map_some, Option.bind_some, base]
      rfl

/-- The rest climbs back through the path, and then out of a piece `..` of the working directory,
which is a name like any other there. -/
theorem canonicalize_append_slash_climbing :
    let text (s : String) : Text := s.toList
    (text "a/./b" = top ∨ ∃ c ∈ text "a/./b", c ≠ '/') ∧
    isRelative (text "../../../é/.") = true ∧
    canonicalize (text "/w/..") (text "a/./b" ++ '/' :: text "../../../é/.") =
      some (text "/w/é") := by
  intro text
  have leads : text "a/./b" = top ∨ ∃ c ∈ text "a/./b", c ≠ '/' :=
    .inr ⟨'a', by decide, by decide⟩
  have relative : isRelative (text "../../../é/.") = true := by decide
  have joint := canonicalize_append_slash (text "/w/..") leads relative
  exact ⟨leads, relative, joint.trans (by decide)⟩

end FileRemoval.Path

import FileRemoval.Proofs.Host.Session
import FileRemoval.Proofs.Path.Climbing

/-! # Relative paths stay below the root

The host path of a relative path is the root and then names that lead down, whatever the root is
and however the path goes up and down on its way. -/

namespace FileRemoval.HostStore

open Path (AreNames IsName StaysBelow ofNames pieces resolve)

theorem exists_hostPath (s : HostStore) (path : Text) :
    (∃ host, (s.hostPath path).1 = .ok host) ↔ ∃ key, resolve Path.top path = .ok key := by
  cases resolved : resolve Path.top path with
  | error cause =>
    rw [hostPath_of_error resolved]
    simp only [reduceCtorEq, exists_false]
  | ok key =>
    obtain ⟨names, rfl, areNames, -⟩ := Path.resolve_top_eq_ok resolved
    exact ⟨fun _ => ⟨_, rfl⟩, fun _ => ⟨_, hostPath_of_ok resolved areNames⟩⟩

theorem exists_resolve_top_of_isRelative {path : Text} (relative : Path.isRelative path = true) :
    (∃ key, resolve Path.top path = .ok key) ↔
      path ≠ [] ∧ '\x00' ∉ path ∧ path.byteLength ≤ Path.maxLength ∧
        [] ∉ pieces path ∧ StaysBelow 0 (pieces path) := by
  have notTop : path ≠ Path.top := by
    rintro rfl
    cases relative
  have canonical := Path.exists_canonicalize_top notTop
  rw [Path.steps_of_isRelative relative] at canonical
  simp only [Path.resolve_eq_ok, exists_and_left, canonical]

/-- A relative path has a host path exactly if it is well formed and does not go up beyond where it
starts. The components of the host path are then those of the root, whatever the root is, and after
them the names of the canonical path, none of which goes up or stays. An absolute path has its
canonical path for a host path, and the root does not matter. -/
theorem hostPath_contained (s : HostStore) (path : Text) :
    (Path.isRelative path = true →
      ((∃ host, (s.hostPath path).1 = .ok host) ↔
        path ≠ [] ∧ '\x00' ∉ path ∧ path.byteLength ≤ Path.maxLength ∧ [] ∉ pieces path ∧
          ∀ front, front <+: pieces path →
            front.count Path.above ≤ front.countP fun piece => IsName piece) ∧
      ∀ host, (s.hostPath path).1 = .ok host → ∃ names, AreNames names ∧
        resolve Path.top path = .ok (ofNames names) ∧
        HostPath.components host =
          HostPath.components s.root ++ names.map fun name => .name name.utf8) ∧
    (Path.isAbsolute path = true →
      (s.hostPath path).1 = (resolve Path.top path).map Text.utf8) := by
  refine ⟨fun relative => ⟨?_, fun host found => ?_⟩, fun absolute => ?_⟩
  · rw [exists_hostPath, exists_resolve_top_of_isRelative relative]
    simp only [StaysBelow, Nat.zero_add]
  · obtain ⟨names, areNames, resolved, rfl⟩ := exists_names_of_hostPath found
    rw [anchor_of_isRelative relative]
    exact ⟨names, areNames, resolved, HostPath.components_join s.root areNames⟩
  · cases resolved : resolve Path.top path with
    | error cause => exact hostPath_of_error resolved
    | ok key => simp only [hostPath, Path.resolveNoted, resolved, absolute, ↓reduceIte]; rfl

end FileRemoval.HostStore

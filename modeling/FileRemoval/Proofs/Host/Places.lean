import FileRemoval.Proofs.Host.Session

/-! # The places of host paths

Host paths are compared by their components. Two of them compare equal exactly if they lead to one
place, if both go on from the same directory by names, or if what they go on from is absolute and
never goes up. A relative root, or one that goes up on its way, can lead to the same places by
other components. -/

namespace FileRemoval

open Host (locationBelow pathBelow)
open Path (AreNames ofNames resolve)

/-- Nothing on the way to the root goes up, and the way starts at the top. -/
def HostPath.IsPlain (root : Bytes) : Prop :=
  isAbsolute root = true ∧ above ∉ names root

instance (root : Bytes) : Decidable (HostPath.IsPlain root) :=
  inferInstanceAs (Decidable (_ ∧ _))

/-- The host path leads to the directory at `base`. -/
structure Host.Leads (h : Host) (path : Bytes) (base : Location) : Prop where
  walk : (HostPath.names path).foldlM h.enter (h.startOf path) = .ok (.at base)
  directory : h.node? base = some .directory

theorem Host.leads_top (h : Host) : h.Leads [HostPath.slash] [] :=
  ⟨rfl, rfl⟩

theorem Host.Leads.congr {h h' : Host} {root : Bytes} {base : Location} (leads : h.Leads root base)
    (directories : ∀ location, h.node? location = some .directory →
      h'.node? location = some .directory)
    (fixed : h'.fixed = h.fixed) (working : h'.workingDirectory = h.workingDirectory) :
    h'.Leads root base where
  walk := by
    rw [startOf, working]
    exact walk_congr directories fixed leads.walk leads.directory
  directory := directories base leads.directory

theorem Host.Leads.components {h : Host} {root : Bytes} {base : Location} (leads : h.Leads root base)
    (plain : HostPath.IsPlain root) : HostPath.components root = .top :: base.map .name := by
  have start : h.startOf root = .at [] := by rw [startOf, if_pos plain.1]
  have walked := leads.walk
  rw [start] at walked
  have place := place_of_walk plain.2 walked
  injection place with place
  rw [HostPath.components, if_pos plain.1, HostPath.filterMap_ofName? plain.2, place,
    List.nil_append]

namespace HostStore

variable {s : HostStore} {h : Host} {base : Location} {path other : Text} {target target' : Bytes}
  {location location' : Location}

/-! ### Places -/

/-- Where the names of a path go on from if the root leads to `base`. -/
def baseOf (base : Location) (path : Text) : Location :=
  if Path.isAbsolute path then [] else base

/-- The place that a path stands for if the root leads to `base`. -/
def StandsFor (base : Location) (path : Text) (location : Location) : Prop :=
  ∃ ns, AreNames ns ∧ resolve Path.top path = .ok (ofNames ns) ∧
    location = locationBelow (baseOf base path) ns

theorem leads_anchor (leads : h.Leads s.root base) (path : Text) :
    h.Leads (s.anchor path) (baseOf base path) := by
  unfold anchor baseOf
  split
  · exact h.leads_top
  · exact leads

theorem isPlain_anchor (plain : HostPath.IsPlain s.root) (path : Text) :
    HostPath.IsPlain (s.anchor path) := by
  unfold anchor
  split
  · decide
  · exact plain

theorem standsFor_of_find (leads : h.Leads s.root base) (located : (s.hostPath path).1 = .ok target)
    (found : h.find target = .ok (.at location)) : StandsFor base path location := by
  obtain ⟨ns, areNames, resolved, rfl⟩ := exists_names_of_hostPath located
  have walked := (Host.find_eq_ok.mp found).2
  rw [Host.names_pathBelow _ areNames, Host.startOf_pathBelow h _ areNames,
    Host.walk_append_of_ok (leads_anchor leads path).walk] at walked
  have notAbove : HostPath.above ∉ ns.map Text.utf8 := by
    rw [List.mem_map]
    rintro ⟨name, member, same⟩
    exact HostPath.utf8_ne_above (areNames name member) same
  have kept : (ns.map Text.utf8).filter (· ≠ HostPath.here) = ns.map Text.utf8 := by
    refine List.filter_eq_self.mpr fun piece member => ?_
    obtain ⟨name, inside, rfl⟩ := List.mem_map.mp member
    simpa using HostPath.utf8_ne_here (areNames name inside)
  have place := Host.place_of_walk notAbove walked
  rw [kept] at place
  injection place with place
  exact ⟨ns, areNames, resolved, place⟩

/-! ### Comparison -/

theorem components_of_standsFor (leads : h.Leads s.root base) (plain : HostPath.IsPlain s.root)
    (located : (s.hostPath path).1 = .ok target) (stands : StandsFor base path location) :
    HostPath.components target = .top :: location.map .name := by
  obtain ⟨ns, areNames, resolved, rfl⟩ := stands
  rw [hostPath_of_ok resolved areNames] at located
  cases located
  rw [pathBelow, HostPath.components_join _ areNames,
    (leads_anchor leads path).components (isPlain_anchor plain path), locationBelow,
    List.map_append, List.map_map, List.cons_append]
  rfl

/-- Host paths of the two texts compare equal exactly if they lead to one place. -/
def Comparable (root : Bytes) (path other : Text) : Prop :=
  HostPath.IsPlain root ∨ Path.isAbsolute path = Path.isAbsolute other

theorem same_iff (leads : h.Leads s.root base) (comparable : Comparable s.root path other)
    (located : (s.hostPath path).1 = .ok target) (stands : StandsFor base path location)
    (located' : (s.hostPath other).1 = .ok target') (stands' : StandsFor base other location') :
    HostPath.same target target' = true ↔ location = location' := by
  rw [HostPath.same, decide_eq_true_eq]
  rcases comparable with plain | kind
  · rw [components_of_standsFor leads plain located stands,
      components_of_standsFor leads plain located' stands', List.cons.injEq]
    refine (and_iff_right rfl).trans (List.map_inj_right fun name name' same => ?_)
    injection same
  · obtain ⟨ns, areNames, resolved, rfl⟩ := stands
    obtain ⟨others, otherNames, resolved', rfl⟩ := stands'
    rw [hostPath_of_ok resolved areNames] at located
    rw [hostPath_of_ok resolved' otherNames] at located'
    cases located
    cases located'
    have anchor : s.anchor other = s.anchor path := by rw [HostStore.anchor, HostStore.anchor, kind]
    have start : baseOf base other = baseOf base path := by rw [baseOf, baseOf, kind]
    rw [anchor, start, Host.locationBelow_inj, pathBelow, pathBelow,
      HostPath.components_join _ areNames, HostPath.components_join _ otherNames,
      List.append_cancel_left_eq]
    refine List.map_inj_right fun name name' same => ?_
    injection same with same
    exact Text.utf8_injective same

end HostStore

end FileRemoval

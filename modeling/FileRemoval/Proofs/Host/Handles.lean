import FileRemoval.Host.Listing
import FileRemoval.Proofs.Host.Files
import FileRemoval.Proofs.Host.Places
import FileRemoval.Proofs.Step.Simulation

/-! # Handles and the files they are open on

A session knows the handle of an open file by a host path. Which file that is stands in a ledger
beside the session, which no call looks at. A removal closes exactly the handles on the file that
it takes away, as long as the paths in use are such that host paths compare as places. -/

namespace FileRemoval

open HostStore (Comparable StandsFor)

/-! ### The ledger -/

/-- A file for as long as it is there: its place, and how many files were taken away from there
before it came. -/
structure FileId where
  location : Location
  earlier : Nat
deriving DecidableEq, Repr

/-- How many files were taken away from each place, and the file that each handle was last opened
on. -/
structure Ledger where
  removals : Location → Nat
  opened : Nat → Option FileId

namespace Ledger

def empty : Ledger :=
  ⟨fun _ => 0, fun _ => none⟩

def fileAt (l : Ledger) (location : Location) : FileId :=
  ⟨location, l.removals location⟩

def opening (l : Ledger) (index : Nat) (location : Option Location) : Ledger :=
  { l with opened := fun other => if other = index then location.map l.fileAt else l.opened other }

def removing (l : Ledger) (location : Option Location) : Ledger :=
  { l with removals := fun other =>
      if location = some other then l.removals other + 1 else l.removals other }

end Ledger

namespace HostSession

def location? (s : HostSession) (path : Text) : Option Location :=
  match (s.store.hostPath path).1 with
  | .error _ => none
  | .ok target =>
    match s.host.find target with
    | .ok (.at location) => some location
    | _ => none

/-- A step of the session after which the ledger is led on. -/
def leading {α : Type} (lead : HostSession → Outcome HostSession α → Ledger → Ledger)
    (x : Step HostSession α) : Step (HostSession × Ledger) α := fun t =>
  let o := x.run t.1
  ⟨o.answer, (o.state, lead t.1 o t.2), o.events⟩

/-- Once a file is opened, its path leads to it. -/
def leadCreation (path : Text) (_ : HostSession)
    (o : Outcome HostSession (Except FileError Handle)) (l : Ledger) : Ledger :=
  match o.answer with
  | .error _ => l
  | .ok handle => l.opening handle.index (o.state.location? path)

/-- As long as a file is not removed, its path leads to it. -/
def leadRemoval (path : Text) (before : HostSession)
    (o : Outcome HostSession (Except FileError Unit)) (l : Ledger) : Ledger :=
  match o.answer with
  | .error _ => l
  | .ok () => l.removing (before.location? path)

/-- The file system of a session with a ledger beside it. -/
def ledgered : FileSystem (Step (HostSession × Ledger)) where
  create path := leading (leadCreation path) (create path)
  close handle := leading (fun _ _ l => l) (close handle)
  remove path := leading (leadRemoval path) (remove path)
  holds path := leading (fun _ _ l => l) (holds path)

theorem matches_leading {α : Type} (lead : HostSession → Outcome HostSession α → Ledger → Ledger)
    (x : Step HostSession α) : Step.Matches (fun t s => t.1 = s) (leading lead x) x := by
  rintro t s rfl
  exact ⟨rfl, rfl⟩

/-- The ledger is not looked at. -/
theorem matches_ledgered : ledgered.Matches (fun t s => t.1 = s) fileSystem where
  create path := matches_leading (leadCreation path) (create path)
  close handle := matches_leading (fun _ _ l => l) (close handle)
  remove path := matches_leading (leadRemoval path) (remove path)
  holds path := matches_leading (fun _ _ l => l) (holds path)

/-! ### What calls keep -/

section

variable {used : Text → Prop} {root : Bytes} {base : Location} {s s' : HostSession} {l : Ledger}
  {path : Text} {target : Bytes} {location : Location}

/-- The host path belongs to a file that is there, and comes from a path in use. -/
structure IsOpenOn (used : Text → Prop) (base : Location) (s : HostSession) (target : Bytes)
    (location : Location) : Prop where
  opener : ∃ path, used path ∧ (s.store.hostPath path).1 = .ok target ∧ StandsFor base path location
  file : ∃ content, s.host.node? location = some (.file content)

/-- The ledger has the file of every handle. -/
structure Tracks (used : Text → Prop) (root : Bytes) (base : Location) (s : HostSession)
    (l : Ledger) : Prop where
  sameRoot : s.store.root = root
  leads : s.host.Leads root base
  handles : ∀ index target, s.store.handles.get? index = some target →
    ∃ location, IsOpenOn used base s target location ∧ l.opened index = some (l.fileAt location)

theorem IsOpenOn.congr (isOpenOn : IsOpenOn used base s target location)
    (sameRoot : s'.store.root = s.store.root)
    (file : ∃ content, s'.host.node? location = some (.file content)) :
    IsOpenOn used base s' target location where
  opener := by
    obtain ⟨path, isUsed, located, stands⟩ := isOpenOn.opener
    refine ⟨path, isUsed, ?_, stands⟩
    rw [← located, HostStore.hostPath, sameRoot]
    rfl
  file := file

theorem location?_of_find (located : (s.store.hostPath path).1 = .ok target)
    (found : s.host.find target = .ok (.at location)) : s.location? path = some location := by
  simp only [location?, located, found]

namespace Tracks

variable (tracks : Tracks used root base s l)
include tracks

theorem standsFor (located : (s.store.hostPath path).1 = .ok target)
    (found : s.host.find target = .ok (.at location)) : StandsFor base path location := by
  have leads := tracks.leads
  rw [← tracks.sameRoot] at leads
  exact HostStore.standsFor_of_find leads located found

/-- A file that is made or emptied is none that a handle could lose. -/
theorem withFile (nonempty : location ≠ [])
    (notDirectory : s.host.node? location ≠ some .directory) :
    Tracks used root base ⟨s.store, s.host.withFile location⟩ l where
  sameRoot := tracks.sameRoot
  leads := tracks.leads.congr (Host.directories_withFile nonempty notDirectory) rfl rfl
  handles index target isLive := by
    obtain ⟨other, isOpenOn, entry⟩ := tracks.handles index target isLive
    refine ⟨other, isOpenOn.congr rfl ?_, entry⟩
    rw [Host.node?_withFile nonempty]
    split
    · exact ⟨[], rfl⟩
    · exact isOpenOn.file

theorem insert (isOpenOn : IsOpenOn used base s target location) :
    Tracks used root base ⟨{ s.store with handles := (s.store.handles.insert target).1 }, s.host⟩
      (l.opening (s.store.handles.insert target).2 (some location)) where
  sameRoot := tracks.sameRoot
  leads := tracks.leads
  handles index other isLive := by
    rw [SlotTable.get?_insert] at isLive
    by_cases isNew : index = (s.store.handles.insert target).2
    · rw [if_pos isNew] at isLive
      cases isLive
      refine ⟨location, isOpenOn.congr rfl isOpenOn.file, ?_⟩
      simp only [Ledger.opening, isNew, ↓reduceIte, Option.map_some]
      rfl
    · rw [if_neg isNew] at isLive
      obtain ⟨before, wasOpenOn, entry⟩ := tracks.handles index other isLive
      refine ⟨before, wasOpenOn.congr rfl wasOpenOn.file, ?_⟩
      simp only [Ledger.opening, isNew, ↓reduceIte, entry]
      rfl

theorem erase (index : Nat) :
    Tracks used root base
      ⟨{ s.store with handles := s.store.handles.erase index }, s.host⟩ l where
  sameRoot := tracks.sameRoot
  leads := tracks.leads
  handles other target isLive := by
    rw [SlotTable.get?_erase] at isLive
    split at isLive
    · cases isLive
    · obtain ⟨before, wasOpenOn, entry⟩ := tracks.handles other target isLive
      exact ⟨before, wasOpenOn.congr rfl wasOpenOn.file, entry⟩

section

variable (comparable : ∀ path other, used path → used other → Comparable root path other)
  (isUsed : used path) (located : (s.store.hostPath path).1 = .ok target)
  (stands : StandsFor base path location)
include comparable isUsed located stands

/-- The host path of a handle compares equal to that of a path in use exactly if the path stands
for the place of its file. -/
theorem same_iff {other : Bytes} {place : Location} (isOpenOn : IsOpenOn used base s other place) :
    HostPath.same other target = true ↔ place = location := by
  obtain ⟨opener, isUsed', located', stands'⟩ := isOpenOn.opener
  have leads := tracks.leads
  have comparable' := comparable opener path isUsed' isUsed
  rw [← tracks.sameRoot] at leads comparable'
  exact HostStore.same_iff leads comparable' located' stands' located stands

theorem without (nonempty : location ≠ [])
    (notDirectory : s.host.node? location ≠ some .directory) :
    Tracks used root base
      ⟨{ s.store with handles :=
          (s.store.handles.retain fun other => !HostPath.same other target).1 },
        s.host.without location⟩ (l.removing (some location)) where
  sameRoot := tracks.sameRoot
  leads := tracks.leads.congr (Host.directories_without nonempty notDirectory) rfl rfl
  handles index other isLive := by
    rw [SlotTable.get?_retain, Option.filter_eq_some_iff] at isLive
    obtain ⟨wasLive, kept⟩ := isLive
    obtain ⟨place, wasOpenOn, entry⟩ := tracks.handles index other wasLive
    -- what is left is on files in other places, of which as many were removed as before
    have apart : place ≠ location := by
      rw [Ne, ← tracks.same_iff comparable isUsed located stands wasOpenOn]
      simpa using kept
    refine ⟨place, wasOpenOn.congr rfl ?_, ?_⟩
    · rw [Host.node?_without nonempty, if_neg apart]
      exact wasOpenOn.file
    · refine entry.trans ?_
      simp only [Ledger.removing, Ledger.fileAt, Option.some.injEq, Ne.symm apart, ↓reduceIte]

end

end Tracks

/-! ### Calls -/

theorem tracks_create (tracks : Tracks used root base s l) (isUsed : used path) :
    Tracks used root base ((create path).run s).state
      (leadCreation path s ((create path).run s) l) := by
  rcases create_cases s path with ⟨cause, failed, same⟩ |
    ⟨target, directory, name, located, -, aimed, -, notDirectory, opened, state⟩
  · rw [same, leadCreation, failed]
    exact tracks
  · obtain ⟨found, file⟩ := Host.fileAt_withFile aimed notDirectory
    have touched := tracks.withFile (List.concat_ne_nil name directory) notDirectory
    have stands := touched.standsFor located found
    have there : ((create path).run s).state.location? path = some (directory ++ [name]) := by
      rw [state]
      exact location?_of_find located found
    rw [leadCreation, opened]
    simp only [there]
    rw [state]
    exact touched.insert ⟨⟨path, isUsed, located, stands⟩, file⟩

theorem tracks_remove (comparable : ∀ path other, used path → used other → Comparable root path other)
    (tracks : Tracks used root base s l) (isUsed : used path) :
    Tracks used root base ((remove path).run s).state
      (leadRemoval path s ((remove path).run s) l) := by
  rcases remove_cases s path with ⟨cause, failed, same⟩ |
    ⟨target, directory, name, content, located, aimed, -, file, removed, state⟩
  · rw [same, leadRemoval, failed]
    exact tracks
  · have found := (Host.fileAt_of_target aimed file).1
    have stands := tracks.standsFor located found
    have there := location?_of_find located found
    rw [leadRemoval, removed]
    simp only [there]
    rw [state]
    exact tracks.without comparable isUsed located stands
      (List.concat_ne_nil name directory) (by rw [file]; simp)

theorem tracks_close (tracks : Tracks used root base s l) (handle : Handle) :
    Tracks used root base ((close handle).run s).state l := by
  rcases close_cases s handle with ⟨-, -, same⟩ | ⟨-, -, state⟩
  · rw [same]
    exact tracks
  · rw [state]
    exact tracks.erase handle.index

end

end HostSession

/-- A single call, with a path in use. -/
def Request.IsCall (used : Text → Prop) : Request → Prop
  | .create path => used path
  | .close _ => True
  | .remove path => used path
  | .holds _ => True
  | .run .. => False

namespace HostSession

variable {used : Text → Prop} {root : Bytes} {base : Location}

theorem tracks_perform
    (comparable : ∀ path other, used path → used other → Comparable root path other)
    {t : HostSession × Ledger} (tracks : Tracks used root base t.1 t.2) {request : Request}
    (isCall : request.IsCall used) :
    Tracks used root base ((ledgered.perform request).run t).state.1
      ((ledgered.perform request).run t).state.2 := by
  cases request with
  | create path => exact tracks_create tracks isCall
  | close handle => exact tracks_close tracks handle
  | remove path => exact tracks_remove comparable tracks isCall
  | holds path =>
    have same : ((holds path).run t.1).state = t.1 := state_holds
    show Tracks used root base ((holds path).run t.1).state t.2
    rw [same]
    exact tracks
  | run createFirst paths room => exact isCall.elim

theorem tracks_performAll
    (comparable : ∀ path other, used path → used other → Comparable root path other)
    {t : HostSession × Ledger} (tracks : Tracks used root base t.1 t.2) {requests : List Request}
    (calls : ∀ request ∈ requests, request.IsCall used) :
    Tracks used root base ((ledgered.performAll requests).run t).state.1
      ((ledgered.performAll requests).run t).state.2 := by
  induction requests generalizing t with
  | nil => exact tracks
  | cons request rest ih =>
    rw [FileSystem.state_performAll_cons]
    exact ih (tracks_perform comparable tracks (calls request List.mem_cons_self))
      fun other member => calls other (List.mem_cons_of_mem request member)

theorem tracks_anchoredAt {h : Host} (leads : h.Leads root base) :
    Tracks used root base ⟨.anchoredAt root, h⟩ .empty where
  sameRoot := rfl
  leads := leads
  handles _ _ isLive := by
    cases isLive

/-- After any calls by paths whose host paths compare as places, every handle is on a file that is
there, and a removal that succeeds closes the handles on the file that it takes away and no others. -/
theorem remove_closes_its_file {h : Host} (leads : h.Leads root base)
    (comparable : ∀ path other, used path → used other → Comparable root path other)
    {requests : List Request} (calls : ∀ request ∈ requests, request.IsCall used) :
    let t := ((ledgered.performAll requests).run (⟨.anchoredAt root, h⟩, .empty)).state
    let s := t.1
    let l := t.2
    s = ((fileSystem.performAll requests).run ⟨.anchoredAt root, h⟩).state ∧
    (∀ index, (s.store.handles.get? index).isSome → ∃ location content,
      l.opened index = some (l.fileAt location) ∧
        s.host.node? location = some (.file content)) ∧
    ∀ path, used path → ((remove path).run s).answer = .ok () →
      let s' := ((remove path).run s).state
      ∃ location content, s.location? path = some location ∧
        s.host.node? location = some (.file content) ∧
        ∀ index file, l.opened index = some file →
          (file = l.fileAt location → ((close ⟨index⟩).run s').answer = .error .badHandle) ∧
          (file ≠ l.fileAt location →
            s'.store.handles.get? index = s.store.handles.get? index) := by
  intro t s l
  have tracks : Tracks used root base s l :=
    tracks_performAll comparable (tracks_anchoredAt leads) calls
  have plain := FileSystem.matches_performAll matches_ledgered requests
  refine ⟨(plain _ _ rfl).2, fun index isLive => ?_, fun path isUsed success => ?_⟩
  · obtain ⟨target, live⟩ := Option.isSome_iff_exists.mp isLive
    obtain ⟨location, isOpenOn, entry⟩ := tracks.handles index target live
    obtain ⟨content, file⟩ := isOpenOn.file
    exact ⟨location, content, entry, file⟩
  · intro s'
    rcases remove_cases s path with ⟨cause, failed, -⟩ |
      ⟨target, directory, name, content, located, aimed, -, isFile, -, state⟩
    · cases success.symm.trans failed
    have found := (Host.fileAt_of_target aimed isFile).1
    have stands := tracks.standsFor located found
    have left (index : Nat) : s'.store.handles.get? index =
        (s.store.handles.get? index).filter fun other => !HostPath.same other target := by
      rw [show s' = _ from state, SlotTable.get?_retain]
    refine ⟨directory ++ [name], content, location?_of_find located found, isFile,
      fun index file entry => ?_⟩
    have same_iff {other : Bytes} (live : s.store.handles.get? index = some other) :
        HostPath.same other target = true ↔ file = l.fileAt (directory ++ [name]) := by
      obtain ⟨place, isOpenOn, entry'⟩ := tracks.handles index other live
      cases entry.symm.trans entry'
      rw [tracks.same_iff comparable isUsed located stands isOpenOn]
      exact ⟨fun same => by rw [same], fun same => congrArg FileId.location same⟩
    constructor
    · intro same
      refine close_of_free ?_
      rw [left, Option.filter_eq_none_iff]
      intro other live
      simpa using (same_iff live).mpr same
    · intro apart
      rw [left]
      cases live : s.store.handles.get? index with
      | none => rfl
      | some other =>
        refine Option.filter_some_pos ?_
        simpa using mt (same_iff live).mp apart

theorem remove_closes_both_spellings :
    let bytes (text : String) : Bytes := Text.utf8 text.toList
    let h := Host.bare.addDirectory [bytes "srv"]
    let root := bytes "/srv/."
    let requests : List Request :=
      [.create "f".toList, .create "/srv/f".toList, .create "g".toList]
    let s := ((ledgered.performAll requests).run (⟨.anchoredAt root, h⟩, .empty)).state.1
    let s' := ((remove "./f".toList).run s).state
    h.Leads root [bytes "srv"] ∧
      (∀ path other, Comparable root path other) ∧
      (∀ request ∈ requests, request.IsCall fun _ => True) ∧
      ((close ⟨0⟩).run s').answer = .error .badHandle ∧
      ((close ⟨1⟩).run s').answer = .error .badHandle ∧
      s'.store.handles.get? 2 = s.store.handles.get? 2 := by
  intro bytes h root requests s s'
  have leads : h.Leads root [bytes "srv"] := ⟨by decide, by decide⟩
  have comparable (path other : Text) : Comparable root path other := .inl (by decide)
  have calls : ∀ request ∈ requests, request.IsCall fun _ => True := by
    simp [requests, Request.IsCall]
  obtain ⟨-, -, removal⟩ := remove_closes_its_file leads
    (fun path other _ _ => comparable path other) calls
  obtain ⟨location, content, there, -, closes⟩ := removal "./f".toList trivial (by decide)
  have led : s.location? "./f".toList = some [bytes "srv", bytes "f"] := by decide
  cases led.symm.trans there
  have first := (closes 0 ⟨[bytes "srv", bytes "f"], 0⟩ (by decide)).1 (by decide)
  have second := (closes 1 ⟨[bytes "srv", bytes "f"], 0⟩ (by decide)).1 (by decide)
  have third := (closes 2 ⟨[bytes "srv", bytes "g"], 0⟩ (by decide)).2 (by decide)
  -- the sessions are spelled out, or unification would run the calls
  subst s' s
  exact ⟨leads, comparable, calls, first, second, third⟩

/-- If the root is relative, or goes up on its way, a handle that was opened by a relative path
stays open when an absolute path removes its file. -/
theorem handle_outlives_file :
    let bytes (text : String) : Bytes := Text.utf8 text.toList
    let h : Host :=
      { Host.bare.addDirectory [bytes "srv"] with workingDirectory := .at [bytes "srv"] }
    ∀ root ∈ [bytes ".", bytes "/srv/../srv"],
      let t := ((ledgered.performAll [.create "f".toList]).run (⟨.anchoredAt root, h⟩, .empty)).state
      let removal := (remove "/srv/f".toList).run t.1
      h.Leads root [bytes "srv"] ∧
        t.2.opened 0 = some (t.2.fileAt [bytes "srv", bytes "f"]) ∧
        t.1.location? "/srv/f".toList = some [bytes "srv", bytes "f"] ∧
        removal.answer = .ok () ∧
        ((close ⟨0⟩).run removal.state).answer = .ok () := by
  intro bytes h root member
  simp only [List.mem_cons, List.not_mem_nil, or_false] at member
  rcases member with rfl | rfl
  · exact ⟨⟨by decide, by decide⟩, by decide, by decide, by decide, by decide⟩
  · exact ⟨⟨by decide, by decide⟩, by decide, by decide, by decide, by decide⟩

end HostSession

end FileRemoval

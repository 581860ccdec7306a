import AgentRelay.Storage.Disk
import Mathlib.Tactic.Common

/-!
# What operations on files leave alone

A path leads to the same place as long as the folders on its way stay folders. Writing to a file and
making folders keep all folders, so a path that leads somewhere leads there afterwards too.

* `Disk.LeadsTo d path place`: the path leads to a place where a file may stand.
* `Disk.KeepsFolders` and `Disk.Grows` compare two disks; `LeadsTo.mono` carries a path over.
* `read_eq_ok`, `opened_eq_ok`, `write_eq_ok` and `rename_eq_ok` are the operations in terms of places.
-/

namespace AgentRelay.Disk

variable {d d' : Disk} {path place : String}

/-- Every folder stays a folder. -/
def KeepsFolders (d d' : Disk) : Prop :=
  ∀ place, d.entry? place = some .folder → d'.entry? place = some .folder

/-- Everything stays as it is; more may be added. -/
def Grows (d d' : Disk) : Prop := ∀ place e, d.entry? place = some e → d'.entry? place = some e

theorem Grows.keepsFolders (h : Grows d d') : KeepsFolders d d' := fun place => h place .folder

theorem Grows.refl (d : Disk) : Grows d d := fun _ _ h => h

theorem Grows.trans {d'' : Disk} (h : Grows d d') (h' : Grows d' d'') : Grows d d'' :=
  fun place e he => h' place e (h place e he)

/-! ### Entries -/

theorem lookup_filter_ne (entries : List (String × Entry)) {q : String} (h : q ≠ place) :
    (entries.filter fun x => x.1 != place).lookup q = entries.lookup q := by
  induction entries with
  | nil => rfl
  | cons x entries ih =>
    obtain ⟨p, e⟩ := x
    by_cases hp : p = place
    · have hq : (q == p) = false := by simpa [hp] using h
      simp [hp, List.lookup_cons, ih, hp ▸ hq]
    · simp [hp, List.lookup_cons, ih]

/-- The root stays, and every other place but the one that is put. -/
theorem entry?_put (d : Disk) (place : String) (e : Entry) (q : String) :
    entry? (d.put place e) q =
      if q.isEmpty then some .folder else if q = place then some e else d.entry? q := by
  unfold entry? put remove
  split
  · rfl
  · by_cases hq : q = place
    · simp [hq]
    · have hbeq : (q == place) = false := by simpa using hq
      simp [hq, List.lookup_cons, hbeq, lookup_filter_ne d.entries hq]

theorem entry?_put_self (e : Entry) (h : place.isEmpty = false) :
    entry? (d.put place e) place = some e := by
  simp [entry?_put, h]

/-- What is put where no folder stands takes no folder away. -/
theorem keepsFolders_put {e : Entry} (h : d.entry? place ≠ some .folder) :
    KeepsFolders d (d.put place e) := by
  intro q hq
  have hne : q ≠ place := by
    rintro rfl
    exact h hq
  rw [entry?_put, if_neg hne, hq, ite_self]

/-- What is put where nothing stands takes nothing away. -/
theorem grows_put {e : Entry} (h : d.entry? place = none) : Grows d (d.put place e) := by
  intro q e' hq
  have hne : q ≠ place := by
    rintro rfl
    simp [h] at hq
  rw [entry?_put, if_neg hne]
  split
  -- the root is a folder already
  · rename_i hroot
    rw [← hq, entry?, if_pos hroot]
  · exact hq

/-! ### Paths -/

theorem readable_eq_ok :
    readable path = .ok () ↔ '\x00' ∉ path.toList ∧ path.utf8ByteSize ≤ longestPath ∧ path ≠ "" := by
  unfold readable
  split_ifs with hnul hlong hempty
  · simp [List.contains_iff_mem.1 hnul]
  · simp [Nat.not_le.2 hlong]
  · simp [String.isEmpty_iff.1 hempty]
  · have hne : path ≠ "" := fun h => hempty (String.isEmpty_iff.2 h)
    simpa [Nat.not_lt.1 hlong, hne] using hnul

theorem missing_eq_notFound {name : String} : missing name = .notFound ↔ name.utf8ByteSize ≤ longestName := by
  have hother : OsError.nameTooLong ≠ .notFound := by decide
  unfold missing
  split_ifs <;> simp_all

/-- The path leads to a place where a file may stand. -/
def LeadsTo (d : Disk) (path place : String) : Prop :=
  ∃ name, d.locate path = .ok (.named place name false)

theorem LeadsTo.unique {place' : String} (h : d.LeadsTo path place) (h' : d.LeadsTo path place') :
    place = place' := by
  obtain ⟨name, h⟩ := h
  obtain ⟨name', h'⟩ := h'
  have htarget := Except.ok.inj (h.symm.trans h')
  exact (Target.named.inj htarget).1

theorem enter_mono (h : KeepsFolders d d') {way way' : Way} {part : PathPart}
    (henter : d.enter way part = .ok way') : d'.enter way part = .ok way' := by
  cases part with
  | here => exact henter
  | up => exact henter
  | name n =>
    simp only [enter] at henter ⊢
    split at henter
    · rename_i hfolder
      rw [h _ hfolder]
      exact henter
    · cases henter
    · cases henter

/-- A way through folders can still be gone. -/
theorem walk_mono (h : KeepsFolders d d') {parts : List PathPart} {way : Way}
    (hwalk : d.walk parts = .ok way) : d'.walk parts = .ok way := by
  unfold walk at hwalk ⊢
  -- the walk may start anywhere
  generalize ([] : Way) = start at hwalk ⊢
  induction parts generalizing start with
  | nil => exact hwalk
  | cons part parts ih =>
    rw [List.foldlM_cons] at hwalk ⊢
    cases hpart : d.enter start part with
    | error e => simp [hpart, bind, Except.bind] at hwalk
    | ok middle =>
      rw [enter_mono h hpart]
      rw [hpart] at hwalk
      exact ih middle hwalk

theorem locate_eq_named {name : String} {mustBeFolder : Bool} :
    d.locate path = .ok (.named place name mustBeFolder) ↔
      readable path = .ok () ∧ ∃ way, (Path.parts path).getLast? = some (.name name) ∧
        d.walk (Path.parts path).dropLast = .ok way ∧ place = way.child name ∧
        mustBeFolder = Path.endsInSlash path := by
  unfold locate
  cases hreadable : readable path with
  | error e => simp [bind, Except.bind]
  | ok u =>
    simp only [bind, Except.bind, pure, Except.pure]
    split
    · rename_i n hlast
      cases hwalk : d.walk (Path.parts path).dropLast with
      | error e => simp
      | ok way => grind
    · rename_i hlast
      cases hwalk : d.walk (Path.parts path) with
      | error e => grind
      | ok way => grind

theorem LeadsTo.mono (h : d.LeadsTo path place) (hfolders : KeepsFolders d d') :
    d'.LeadsTo path place := by
  obtain ⟨name, h⟩ := h
  obtain ⟨hreadable, way, hlast, hwalk, hplace, hslash⟩ := locate_eq_named.1 h
  exact ⟨name, locate_eq_named.2 ⟨hreadable, way, hlast, walk_mono hfolders hwalk, hplace, hslash⟩⟩

/-- A place with a name is not the root. -/
theorem LeadsTo.isEmpty_eq_false (h : d.LeadsTo path place) : place.isEmpty = false := by
  obtain ⟨name, h⟩ := h
  obtain ⟨-, way, -, -, rfl, -⟩ := locate_eq_named.1 h
  simp [Way.child]

/-! ### Files -/

theorem find_eq_file {content : Bytes} : d.find path = .ok (place, .file content) ↔
    d.LeadsTo path place ∧ d.entry? place = some (.file content) := by
  unfold find LeadsTo
  cases h : d.locate path with
  | error e => simp [bind, Except.bind]
  | ok t =>
    cases t with
    | folder p => simp [bind, Except.bind, pure, Except.pure]
    | named p name must =>
      simp only [bind, Except.bind, pure, Except.pure]
      grind

theorem read_eq_ok {content : Bytes} : d.read path = .ok content ↔
    ∃ place, d.LeadsTo path place ∧ d.entry? place = some (.file content) := by
  unfold read
  cases h : d.find path with
  | error e =>
    simp only [bind, Except.bind, reduceCtorEq, false_iff]
    rintro ⟨place, hplace⟩
    simp [find_eq_file.2 hplace] at h
  | ok found =>
    obtain ⟨place, entry⟩ := found
    cases entry with
    | folder =>
      simp only [bind, Except.bind, reduceCtorEq, false_iff]
      rintro ⟨place, hplace⟩
      simp [find_eq_file.2 hplace] at h
    | file bytes =>
      obtain ⟨hleads, hentry⟩ := find_eq_file.1 h
      simp only [bind, Except.bind, Except.ok.injEq]
      constructor
      · rintro rfl
        exact ⟨place, hleads, hentry⟩
      · rintro ⟨place', hleads', hentry'⟩
        obtain rfl := hleads.unique hleads'
        simpa [hentry] using hentry'

/-- A file that can be read is found. -/
theorem find_of_read {content : Bytes} (h : d.read path = .ok content) :
    ∃ place, d.find path = .ok (place, .file content) := by
  obtain ⟨place, hplace⟩ := read_eq_ok.1 h
  exact ⟨place, find_eq_file.2 hplace⟩

/-- The size of a file is the number of its bytes. -/
theorem size_of_read {content : Bytes} (h : d.read path = .ok content) :
    d.size path = .ok content.length := by
  obtain ⟨place, hfind⟩ := find_of_read h
  rw [size, hfind]
  rfl

/-- A file that cannot be read because it is missing is not found. -/
theorem find_of_read_notFound (h : d.read path = .error .notFound) :
    d.find path = .error .notFound := by
  unfold read at h
  cases hfind : d.find path with
  | error e => simpa [hfind, bind, Except.bind] using h
  | ok found =>
    obtain ⟨place, entry⟩ := found
    have hother : OsError.isFolder ≠ .notFound := by decide
    cases entry <;> simp [hfind, bind, Except.bind, hother] at h

/-- A file that cannot be read because it is missing has no size for the same reason. -/
theorem size_of_read_notFound (h : d.read path = .error .notFound) :
    d.size path = .error .notFound := by
  rw [size, find_of_read_notFound h]
  rfl

/-- The bytes of the file at a place; none when there is no file. -/
def fileAt (d : Disk) (place : String) : Bytes :=
  match d.entry? place with
  | some (.file content) => content
  | _ => []

/-- Opening a file keeps what it holds, or empties it, and makes it when it is missing. -/
theorem opened_eq_ok {keep : Bool} (h : d.opened keep path = .ok d') :
    ∃ place, d.LeadsTo path place ∧ d.entry? place ≠ some .folder ∧
      d' = d.put place (.file (if keep then d.fileAt place else [])) := by
  unfold opened at h
  cases hlocate : d.locate path with
  | error e => simp [hlocate, bind, Except.bind] at h
  | ok t =>
    cases t with
    | folder p => simp [hlocate, bind, Except.bind] at h
    | named place name must =>
      simp only [hlocate, bind, Except.bind, pure, Except.pure] at h
      cases must with
      | true => cases h
      | false =>
        refine ⟨place, ⟨name, hlocate⟩, ?_⟩
        unfold fileAt
        grind

/-- A file can be opened where no folder stands, if it can have its name. -/
theorem opened_of_locate {name : String} (h : d.locate path = .ok (.named place name false))
    (hfolder : d.entry? place ≠ some .folder) (hname : missing name = .notFound) (keep : Bool) :
    d.opened keep path = .ok (d.put place (.file (if keep then d.fileAt place else []))) := by
  simp only [opened, h, bind, Except.bind, pure, Except.pure]
  unfold fileAt
  split <;> grind

/-- A file cannot be made when it cannot have its name. -/
theorem opened_of_missing {name : String} (h : d.locate path = .ok (.named place name false))
    (hnone : d.entry? place = none) (hname : missing name ≠ .notFound) (keep : Bool) :
    d.opened keep path = .error (missing name) := by
  simp [opened, h, bind, Except.bind, hnone, hname]

/-- Whatever is written to a file that is there goes to its end. -/
theorem write_of_leadsTo {content : Bytes} (h : d.LeadsTo path place)
    (hentry : d.entry? place = some (.file content)) (bytes : Bytes) :
    d.write path bytes = .ok (d.put place (.file (content ++ bytes))) := by
  simp [write, find_eq_file.2 ⟨h, hentry⟩, bind, Except.bind, pure, Except.pure]

theorem write_eq_ok {bytes : Bytes} (h : d.write path bytes = .ok d') :
    ∃ place content, d.LeadsTo path place ∧ d.entry? place = some (.file content) ∧
      d' = d.put place (.file (content ++ bytes)) := by
  unfold write at h
  cases hfind : d.find path with
  | error e => simp [hfind, bind, Except.bind] at h
  | ok found =>
    obtain ⟨place, entry⟩ := found
    cases entry with
    | folder => simp [hfind, bind, Except.bind] at h
    | file content =>
      obtain ⟨hleads, hentry⟩ := find_eq_file.1 hfind
      simp only [hfind, bind, Except.bind, pure, Except.pure, Except.ok.injEq] at h
      exact ⟨place, content, hleads, hentry, h.symm⟩

/-- A file takes the place of another, or a place where nothing stands. -/
theorem rename_eq_ok {target : String} (h : d.rename path target = .ok d') :
    ∃ old place content, d.LeadsTo path old ∧ d.entry? old = some (.file content) ∧
      d.LeadsTo target place ∧ d.entry? place ≠ some .folder ∧
      d' = (d.remove old).put place (.file content) := by
  unfold rename at h
  cases hfind : d.find path with
  | error e => simp [hfind, bind, Except.bind] at h
  | ok found =>
    obtain ⟨old, entry⟩ := found
    cases entry with
    | folder => simp [hfind, bind, Except.bind] at h
    | file content =>
      obtain ⟨hleads, hentry⟩ := find_eq_file.1 hfind
      refine ⟨old, ?_⟩
      cases hlocate : d.locate target with
      | error e => simp [hfind, hlocate, bind, Except.bind] at h
      | ok t =>
        cases t with
        | folder p => simp [hfind, hlocate, bind, Except.bind] at h
        | named place name must =>
          simp only [hfind, hlocate, bind, Except.bind, pure, Except.pure] at h
          unfold LeadsTo at hleads ⊢
          grind

/-- A file holds what is put at its place. -/
theorem read_put (h : d.LeadsTo path place) (hentry : d.entry? place ≠ some .folder)
    (content : Bytes) : (d.put place (.file content)).read path = .ok content :=
  read_eq_ok.2 ⟨place, h.mono (keepsFolders_put hentry), entry?_put_self _ h.isEmpty_eq_false⟩

/-- The bytes of the file that a path leads to; none when there is no file. -/
def content (d : Disk) (path : String) : Bytes := ((d.read path).toOption).getD []

theorem content_of_read {content : Bytes} (h : d.read path = .ok content) :
    d.content path = content := by
  simp [Disk.content, h, Except.toOption]

theorem content_of_read_error {e : OsError} (h : d.read path = .error e) : d.content path = [] := by
  simp [Disk.content, h, Except.toOption]

theorem fileAt_eq_content (h : d.LeadsTo path place) : d.fileAt place = d.content path := by
  cases hread : d.read path with
  | ok content =>
    obtain ⟨place', h', hentry⟩ := read_eq_ok.1 hread
    obtain rfl := h.unique h'
    rw [content_of_read hread, fileAt, hentry]
  | error e =>
    -- a file at that place could be read
    have hnone : ∀ content, d.entry? place ≠ some (.file content) := by
      intro content hentry
      rw [read_eq_ok.2 ⟨place, h, hentry⟩] at hread
      cases hread
    unfold fileAt Disk.content
    rw [hread]
    split
    · rename_i content hentry
      exact absurd hentry (hnone content)
    · rfl

/-- A file that is opened for appending can be read, and holds what it held. -/
theorem read_opened (h : d.opened true path = .ok d') : d'.read path = .ok (d.content path) := by
  obtain ⟨place, hleads, hentry, rfl⟩ := opened_eq_ok h
  rw [← fileAt_eq_content hleads]
  exact read_put hleads hentry _

/-- What is written stands behind what the file held. -/
theorem read_write {content bytes : Bytes} (h : d.write path bytes = .ok d')
    (hread : d.read path = .ok content) : d'.read path = .ok (content ++ bytes) := by
  obtain ⟨place, content', hleads, hentry, rfl⟩ := write_eq_ok h
  have hread' : d.read path = .ok content' := read_eq_ok.2 ⟨place, hleads, hentry⟩
  obtain rfl : content = content' := Except.ok.inj (hread.symm.trans hread')
  exact read_put hleads (by simp [hentry]) _

/-- What is written to a file that was opened for appending stands behind what it held. -/
theorem read_append {d₁ d₂ : Disk} {bytes : Bytes} (hopen : d.opened true path = .ok d₁)
    (hwrite : d₁.write path bytes = .ok d₂) : d₂.read path = .ok (d.content path ++ bytes) :=
  read_write hwrite (read_opened hopen)

theorem changed_eq_ok {r : Except OsError Disk} {u : Unit} (h : d.changed r = (.ok u, d')) :
    r = .ok d' := by
  cases r with
  | ok d => exact congrArg Except.ok (Prod.mk.inj h).2
  | error e => cases h

/-! ### Folders -/

theorem grows_makeEach (d : Disk) (way : Way) (parts : List PathPart) :
    Grows d (d.makeEach way parts).2 := by
  induction parts generalizing d way with
  | nil => exact .refl d
  | cons part parts ih =>
    cases part with
    | here => exact ih d way
    | up => exact ih d way.tail
    | name n =>
      unfold makeEach
      split
      · exact ih d _
      · exact .refl d
      · rename_i hnone
        split
        · exact (grows_put hnone).trans (ih _ _)
        · exact .refl d

/-- Making folders takes nothing away, also when it fails on the way. -/
theorem grows_makeFolders (d : Disk) (path : String) : Grows d (d.makeFolders path).2 := by
  unfold makeFolders
  split
  · exact .refl d
  · split
    · exact .refl d
    · exact grows_makeEach d [] _

/-- A file that can be read holds the same when more is there. -/
theorem Grows.read {content : Bytes} (h : Grows d d') (hread : d.read path = .ok content) :
    d'.read path = .ok content := by
  obtain ⟨place, hleads, hentry⟩ := read_eq_ok.1 hread
  exact read_eq_ok.2 ⟨place, hleads.mono h.keepsFolders, h place _ hentry⟩

end AgentRelay.Disk

import AgentRelay.Proofs.Storage.Disk
import AgentRelay.Proofs.Storage.Path
import AgentRelay.Proofs.Trace

/-!
# Everything lies in a folder

* `Disk.IsTree`: whatever stands somewhere stands in a folder.
* `IsTree.answer`: every operation keeps that, and `IsTree.execute` every script.
-/

namespace AgentRelay.Disk

variable {d : Disk} {place name : String}

/-- Everything lies in a folder. -/
def IsTree (d : Disk) : Prop :=
  ∀ place name, d.entry? (place ++ "/" ++ name) ≠ none → d.entry? place = some .folder

/-- Nothing stands in the place, nor below. -/
def IsBare (d : Disk) (place : String) : Prop := ∀ name, d.entry? (place ++ "/" ++ name) = none

theorem child_isEmpty (place name : String) : (place ++ "/" ++ name).isEmpty = false := by
  simp

theorem isTree_empty : IsTree {} := by
  intro place name h
  unfold entry? at h
  simp at h

theorem IsTree.isBare (h : d.IsTree) (hplace : d.entry? place ≠ some .folder) : d.IsBare place := by
  intro name
  by_contra hentry
  exact hplace (h place name hentry)

/-- A place below another is not the same. -/
theorem child_ne (place name : String) : place ++ "/" ++ name ≠ place := by
  intro h
  have hlength := congrArg (fun text => text.toList.length) h
  simp at hlength

/-- A place in a folder lies below that folder, or the folder itself lies below. -/
theorem eq_or_below {place' name' : String} (hname : '/' ∉ name.toList)
    (h : place ++ "/" ++ name = place' ++ "/" ++ name') :
    place = place' ∨ ∃ middle, place = place' ++ "/" ++ middle := by
  have hchars : place.toList ++ '/' :: name.toList = place'.toList ++ '/' :: name'.toList := by
    simpa using congrArg String.toList h
  rcases List.append_eq_append_iff.1 hchars with ⟨cs, hplace', hrest⟩ | ⟨cs, hplace, hrest⟩
  · cases cs with
    | nil => exact .inl (String.toList_inj.1 (by simpa using hplace'.symm))
    | cons c cs =>
      -- the name would hold the slash in front of the other name
      obtain ⟨-, hrest⟩ := List.cons.inj hrest
      exact absurd (hrest ▸ by simp) hname
  · cases cs with
    | nil => exact .inl (String.toList_inj.1 (by simpa using hplace))
    | cons c cs =>
      obtain ⟨rfl, -⟩ := List.cons.inj hrest
      exact .inr ⟨String.ofList cs, String.toList_inj.1 (by simpa using hplace)⟩

/-! ### What operations do to a tree -/

theorem IsTree.put (h : d.IsTree) (hplace : d.entry? place = some .folder) (hname : '/' ∉ name.toList)
    {e : Entry} (he : e = .folder ∨ d.entry? (place ++ "/" ++ name) ≠ some .folder) :
    IsTree (d.put (place ++ "/" ++ name) e) := by
  intro place' name' hentry
  have hfolder : d.entry? place' = some .folder := by
    rw [entry?_put, child_isEmpty, if_neg Bool.false_ne_true] at hentry
    split at hentry
    · rename_i hsame
      -- what is put lies in folders only
      rcases eq_or_below hname hsame.symm with rfl | ⟨middle, rfl⟩
      · exact hplace
      · exact h place' middle (by simp [hplace])
    · exact h place' name' hentry
  rw [entry?_put]
  split
  · rfl
  · split
    · rename_i hsame
      subst hsame
      rcases he with rfl | he
      · rfl
      · exact absurd hfolder he
    · exact hfolder

theorem entry?_remove (d : Disk) (place q : String) :
    entry? (d.remove place) q =
      if q.isEmpty then some .folder else if q = place then none else d.entry? q := by
  unfold entry? remove
  split
  · rfl
  · by_cases hq : q = place
    · rw [if_pos hq, List.lookup_eq_none_iff]
      rintro ⟨q', e⟩ hmem
      have hne : q' ≠ place := by simpa using (List.mem_filter.1 hmem).2
      simpa [hq] using Ne.symm hne
    · simp [hq, lookup_filter_ne d.entries hq]

/-- What is no folder can be removed, and the folders are the same. -/
theorem entry?_remove_eq_folder {q : String} (h : d.entry? place ≠ some .folder) :
    entry? (d.remove place) q = some .folder ↔ d.entry? q = some .folder := by
  by_cases hq : q = place
  · subst hq
    have hroot : q.isEmpty = false := by
      by_contra hroot
      refine h ?_
      unfold entry?
      rw [if_pos (Bool.not_eq_false _ ▸ hroot)]
    simp [entry?_remove, hroot, h]
  · rw [entry?_remove, if_neg hq]
    unfold entry?
    split <;> simp

theorem keepsFolders_remove (h : d.entry? place ≠ some .folder) : KeepsFolders d (d.remove place) :=
  fun _ => (entry?_remove_eq_folder h).2

theorem IsTree.remove (h : d.IsTree) (hplace : d.entry? place ≠ some .folder) :
    IsTree (d.remove place) := by
  intro place' name' hentry
  rw [entry?_remove_eq_folder hplace]
  rw [entry?_remove, child_isEmpty, if_neg Bool.false_ne_true] at hentry
  split at hentry
  · exact absurd rfl hentry
  · exact h place' name' hentry

/-! ### Ways -/

/-- The parts of a path lead from one folder to another. -/
def Reaches (d : Disk) (start : Way) (parts : List PathPart) (way : Way) : Prop :=
  parts.foldlM d.enter start = .ok way

variable {start way : Way} {part : PathPart} {parts rest : List PathPart}

@[simp] theorem reaches_nil : d.Reaches start [] way ↔ start = way := by
  show (.ok start : Except OsError Way) = .ok way ↔ start = way
  rw [Except.ok.injEq]

theorem reaches_append :
    d.Reaches start (parts ++ rest) way ↔
      ∃ middle, d.Reaches start parts middle ∧ d.Reaches middle rest way := by
  unfold Reaches
  rw [List.foldlM_append]
  cases parts.foldlM d.enter start with
  | error e => simp [bind, Except.bind]
  | ok middle => simp [bind, Except.bind]

theorem reaches_cons :
    d.Reaches start (part :: parts) way ↔
      ∃ middle, d.enter start part = .ok middle ∧ d.Reaches middle parts way := by
  unfold Reaches
  rw [List.foldlM_cons]
  cases d.enter start part with
  | error e => simp [bind, Except.bind]
  | ok middle => simp [bind, Except.bind]

theorem enter_eq_ok {way' : Way} :
    d.enter way part = .ok way' ↔ match part with
      | .here => way' = way
      | .up => way' = way.tail
      | .name n => d.entry? (way.child n) = some .folder ∧ way' = way.child n :: way := by
  cases part with
  | here => simp [enter, eq_comm]
  | up => simp [enter, eq_comm]
  | name n =>
    unfold enter
    grind

/-- A way goes through folders. -/
def IsWay (d : Disk) (way : Way) : Prop := ∀ place ∈ way, d.entry? place = some .folder

theorem isWay_nil : d.IsWay [] := by simp [IsWay]

theorem IsWay.isFolder (h : d.IsWay way) : d.entry? way.place = some .folder := by
  cases way with
  | nil => rfl
  | cons place way => exact h place List.mem_cons_self

theorem IsWay.reaches (h : d.IsWay start) (hreaches : d.Reaches start parts way) : d.IsWay way := by
  induction parts generalizing start with
  | nil =>
    obtain rfl := reaches_nil.1 hreaches
    exact h
  | cons part parts ih =>
    obtain ⟨middle, henter, hrest⟩ := reaches_cons.1 hreaches
    refine ih ?_ hrest
    have hmiddle := enter_eq_ok.1 henter
    cases part with
    | here => exact hmiddle ▸ h
    | up =>
      rw [hmiddle]
      exact fun place hplace => h place (List.mem_of_mem_tail hplace)
    | name n =>
      obtain ⟨hfolder, rfl⟩ := hmiddle
      exact fun place hplace => (List.mem_cons.1 hplace).elim (· ▸ hfolder) (h place)

/-- A folder that is made can be reached. -/
theorem exists_reaches_of_makeEach {d' : Disk} (h : d.makeEach start parts = (.ok (), d')) :
    ∃ way, d'.Reaches start parts way := by
  induction parts generalizing d start with
  | nil => exact ⟨start, rfl⟩
  | cons part parts ih =>
    -- what is made first is there in the end
    have hgrows (d₁ : Disk) (way : Way) (hrest : d₁.makeEach way parts = (.ok (), d')) : Grows d₁ d' := by
      simpa only [hrest] using grows_makeEach d₁ way parts
    cases part with
    | here =>
      obtain ⟨way, hway⟩ := ih h
      exact ⟨way, reaches_cons.2 ⟨start, rfl, hway⟩⟩
    | up =>
      obtain ⟨way, hway⟩ := ih h
      exact ⟨way, reaches_cons.2 ⟨start.tail, rfl, hway⟩⟩
    | name n =>
      unfold Disk.makeEach at h
      split at h
      · rename_i hfolder
        obtain ⟨way, hway⟩ := ih h
        exact ⟨way, reaches_cons.2 ⟨_, enter_eq_ok.2 ⟨hgrows _ _ h _ _ hfolder, rfl⟩, hway⟩⟩
      · cases (Prod.mk.inj h).1
      · split at h
        · obtain ⟨way, hway⟩ := ih h
          have hfolder := hgrows _ _ h _ _ (entry?_put_self .folder (child_isEmpty _ _))
          exact ⟨way, reaches_cons.2 ⟨_, enter_eq_ok.2 ⟨hfolder, rfl⟩, hway⟩⟩
        · cases (Prod.mk.inj h).1

theorem exists_reaches_of_makeFolders {d' : Disk} {path : String} (h : d.makeFolders path = (.ok (), d')) :
    ∃ way, d'.Reaches [] (Path.parts path) way := by
  unfold Disk.makeFolders at h
  split at h
  · rename_i hempty
    obtain rfl := String.isEmpty_iff.1 hempty
    exact ⟨[], rfl⟩
  · split at h
    · cases (Prod.mk.inj h).1
    · exact exists_reaches_of_makeEach h

/-- A file in a folder is known by its name there. -/
theorem locate_join {folder : String} (hway : d.Reaches [] (Path.parts folder) way) (hslash : '/' ∉ name.toList)
    (hlong : 2 < name.toList.length) (hreadable : readable (Path.join folder name) = .ok ()) :
    d.locate (Path.join folder name) = .ok (.named (way.child name) name false) := by
  have hne : name.toList ≠ [] := fun hnil => by simp [hnil] at hlong
  have hparts : Path.parts (Path.join folder name) = Path.parts folder ++ [.name name] := by
    rw [Path.parts_join (Path.head?_ne_slash hslash), Path.parts_of_length_gt hslash hlong]
  refine locate_eq_named.2 ⟨hreadable, way, ?_, ?_, rfl, (Path.endsInSlash_join hslash hne folder).symm⟩
  · rw [hparts, List.getLast?_concat]
  · rw [hparts, List.dropLast_concat]
    exact hway

/-- What a path leads to lies in a folder, and its name holds no slash. -/
theorem LeadsTo.lies {path : String} (h : d.LeadsTo path place) :
    ∃ folder name, place = folder ++ "/" ++ name ∧ d.entry? folder = some .folder ∧
      '/' ∉ name.toList := by
  obtain ⟨name, h⟩ := h
  obtain ⟨-, way, hlast, hwalk, hplace, -⟩ := locate_eq_named.1 h
  have hway : d.IsWay way := isWay_nil.reaches hwalk
  exact ⟨way.place, name, hplace, hway.isFolder, Path.slash_notMem_name (List.mem_of_getLast? hlast)⟩

/-! ### What operations do to a tree -/

theorem IsTree.makeEach (h : d.IsTree) (hway : d.IsWay way)
    (hnames : ∀ name, .name name ∈ parts → '/' ∉ name.toList) : IsTree (d.makeEach way parts).2 := by
  induction parts generalizing d way with
  | nil => exact h
  | cons part parts ih =>
    have hrest : ∀ name, .name name ∈ parts → '/' ∉ name.toList :=
      fun name hname => hnames name (List.mem_cons_of_mem _ hname)
    cases part with
    | here => exact ih h hway hrest
    | up => exact ih h (fun place hplace => hway place (List.mem_of_mem_tail hplace)) hrest
    | name n =>
      unfold Disk.makeEach
      split
      · rename_i hfolder
        exact ih h (List.forall_mem_cons.2 ⟨hfolder, hway⟩) hrest
      · exact h
      · rename_i hnone
        split
        · have hn := hnames n List.mem_cons_self
          refine ih (h.put hway.isFolder hn (.inl rfl)) (List.forall_mem_cons.2 ⟨?_, ?_⟩) hrest
          · exact entry?_put_self _ (child_isEmpty _ _)
          · exact fun place hplace => grows_put hnone place _ (hway place hplace)
        · exact h

theorem IsTree.makeFolders (h : d.IsTree) (path : String) : IsTree (d.makeFolders path).2 := by
  unfold Disk.makeFolders
  split
  · exact h
  · split
    · exact h
    · exact h.makeEach isWay_nil fun _ => Path.slash_notMem_name

/-- A file may stand where no folder stands. -/
theorem IsTree.putFile (h : d.IsTree) {path : String} (hleads : d.LeadsTo path place)
    (hentry : d.entry? place ≠ some .folder) (content : Bytes) : IsTree (d.put place (.file content)) := by
  obtain ⟨folder, name, rfl, hfolder, hname⟩ := hleads.lies
  exact h.put hfolder hname (.inr hentry)

theorem IsTree.changed (h : d.IsTree) {r : Except OsError Disk} (hr : ∀ d', r = .ok d' → d'.IsTree) :
    IsTree (d.changed r).2 := by
  cases r with
  | error e => exact h
  | ok d' => exact hr d' rfl

/-- Every operation leaves a tree. -/
theorem IsTree.answer (h : d.IsTree) (q : FileQuestion) : IsTree (d.answer q).2 := by
  cases q with
  | read path => exact h
  | size path => exact h
  | sync path => exact h
  | makeFolders path => exact h.makeFolders path
  | openAppend path =>
    refine h.changed fun d' hopened => ?_
    obtain ⟨place, hleads, hentry, rfl⟩ := opened_eq_ok hopened
    exact h.putFile hleads hentry _
  | truncate path =>
    refine h.changed fun d' hopened => ?_
    obtain ⟨place, hleads, hentry, rfl⟩ := opened_eq_ok hopened
    exact h.putFile hleads hentry _
  | write path bytes =>
    refine h.changed fun d' hwrite => ?_
    obtain ⟨place, content, hleads, hentry, rfl⟩ := write_eq_ok hwrite
    exact h.putFile hleads (by simp [hentry]) _
  | rename source target =>
    refine h.changed fun d' hrename => ?_
    obtain ⟨old, place, content, -, hold, hleads, hentry, rfl⟩ := rename_eq_ok hrename
    obtain ⟨folder, name, rfl, hfolder, hname⟩ := hleads.lies
    have hfile : d.entry? old ≠ some .folder := by simp [hold]
    rw [← entry?_remove_eq_folder hfile] at hfolder
    exact (h.remove hfile).put hfolder hname (.inr fun h' => hentry ((entry?_remove_eq_folder hfile).1 h'))

theorem IsTree.execute (h : d.IsTree) {α : Type} (s : Script FileQuestion FileAnswer α) :
    IsTree (d.execute s).2 :=
  Script.run_keeps (I := IsTree) (fun q _ _ h => h.answer q) h

end AgentRelay.Disk

import AgentRelay.Proofs.Storage.Tree

/-!
# Paths that lead to nothing

A path may lead to nothing because a folder on it is missing. To make folders may change what it leads to:
when the path steps back out of a folder that was missing, it leads somewhere else afterwards.

* `Disk.CanHold` excludes that, `Disk.Lacks` is a path that leads to nothing and will lead to nothing when
  folders on it are made (`lacks_of_read`, `Lacks.makeEach`).
* `LeadsTo.ne_beside` and `Lacks.putBeside`: a file whose path has one more extension is another file.
-/

namespace AgentRelay.Disk

variable {d d' : Disk} {path place : String}

/-- A part that stays in a folder, or goes into one by a name that a folder may have. -/
def IsPlain : PathPart → Prop
  | .here => True
  | .up => False
  | .name n => missing n = .notFound

instance : DecidablePred IsPlain
  | .here => inferInstanceAs (Decidable True)
  | .up => inferInstanceAs (Decidable False)
  | .name n => inferInstanceAs (Decidable (missing n = .notFound))

/-- Behind the first folder that is missing, the path goes on into folders only. -/
def CanHold (d : Disk) (path : String) : Prop :=
  ∀ before name after way, Path.parts path = before ++ .name name :: after → d.Reaches [] before way →
    d.entry? (way.child name) = none → ∀ part ∈ after, IsPlain part

/-- A path that never steps back, and has no name that is too long, is always of that kind. -/
theorem canHold_of_isPlain (h : ∀ part ∈ Path.parts path, IsPlain part) (d : Disk) : d.CanHold path := by
  intro before name after way hparts _ _ part hpart
  refine h part ?_
  rw [hparts]
  exact List.mem_append_right _ (List.mem_cons_of_mem _ hpart)

/-- The path leads to nothing, also when folders on it are made. -/
def Lacks (d : Disk) (path : String) : Prop :=
  path = "" ∨ readable path = .ok () ∧ ∃ before name after way,
    Path.parts path = before ++ .name name :: after ∧ d.Reaches [] before way ∧
      d.entry? (way.child name) = none ∧ d.IsBare (way.child name) ∧
      ∀ part ∈ PathPart.name name :: after, IsPlain part

variable {way way' : Way} {before after parts : List PathPart} {name : String}

theorem walk_missing (hway : d.Reaches [] before way) (hnone : d.entry? (way.child name) = none)
    (after : List PathPart) : d.walk (before ++ .name name :: after) = .error (missing name) := by
  unfold walk
  rw [List.foldlM_append, show before.foldlM d.enter [] = .ok way from hway]
  show ((PathPart.name name :: after).foldlM d.enter way : Except OsError Way) = _
  simp [List.foldlM_cons, enter, hnone, bind, Except.bind]

theorem Lacks.read (h : d.Lacks path) : d.read path = .error .notFound := by
  rcases h with rfl | ⟨hreadable, before, name, after, way, hparts, hway, hnone, -, hplain⟩
  · rfl
  have hmissing : missing name = .notFound := hplain _ List.mem_cons_self
  have hfind : d.find path = .error .notFound := by
    unfold find locate
    simp only [hreadable, hparts, bind, Except.bind, pure, Except.pure]
    rcases List.eq_nil_or_concat' after with rfl | ⟨after, last, rfl⟩
    · rw [List.getLast?_concat, List.dropLast_concat]
      simp only [show d.walk before = .ok way from hway, hnone, hmissing]
    · have hlast : before ++ PathPart.name name :: (after ++ [last]) =
          (before ++ .name name :: after) ++ [last] := by simp
      rw [hlast, List.getLast?_concat, List.dropLast_concat]
      cases last with
      | name n => simp only [walk_missing hway hnone, hmissing]
      | here | up => simp only [← hlast, walk_missing hway hnone, hmissing]
  unfold Disk.read
  rw [hfind]
  rfl

theorem exists_of_walk_notFound (h : d.walk parts = .error .notFound) :
    ∃ before name after way, parts = before ++ .name name :: after ∧ d.Reaches [] before way ∧
      d.entry? (way.child name) = none ∧ missing name = .notFound := by
  unfold walk at h
  -- the walk may start anywhere
  unfold Reaches
  generalize ([] : Way) = start at h ⊢
  induction parts generalizing start with
  | nil => cases h
  | cons part parts ih =>
    rw [List.foldlM_cons] at h
    cases hpart : d.enter start part with
    | ok middle =>
      rw [hpart] at h
      obtain ⟨before, name, after, way, rfl, hway, hnone, hmissing⟩ := ih middle h
      exact ⟨part :: before, name, after, way, rfl, reaches_cons.2 ⟨middle, hpart, hway⟩, hnone, hmissing⟩
    | error e =>
      rw [hpart] at h
      obtain rfl : e = .notFound := Except.error.inj h
      cases part with
      | here | up => cases hpart
      | name n =>
        cases hentry : d.entry? (Way.child start n) with
        | none =>
          simp only [enter, hentry] at hpart
          exact ⟨[], n, parts, start, rfl, rfl, hentry, Except.error.inj hpart⟩
        | some e =>
          cases e with
          | folder => simp [enter, hentry] at hpart
          | file content => simp [enter, hentry, OsError.notFolder, OsError.notFound] at hpart

theorem exists_of_find_notFound (hreadable : readable path = .ok ())
    (h : d.find path = .error .notFound) :
    ∃ before name after way, Path.parts path = before ++ .name name :: after ∧
      d.Reaches [] before way ∧ d.entry? (way.child name) = none ∧ missing name = .notFound := by
  unfold find at h
  cases hlocate : d.locate path with
  | error e =>
    -- the path could not be followed
    simp only [hlocate, bind, Except.bind] at h
    obtain rfl := Except.error.inj h
    unfold locate at hlocate
    simp only [hreadable, bind, Except.bind, pure, Except.pure] at hlocate
    split at hlocate
    · rename_i n hlast
      have hparts := List.dropLast_append_getLast? _ hlast
      cases hwalk : d.walk (Path.parts path).dropLast with
      | ok way => simp [hwalk] at hlocate
      | error e =>
        rw [hwalk] at hlocate
        obtain rfl := Except.error.inj hlocate
        obtain ⟨before, name, after, way, hfront, hrest⟩ := exists_of_walk_notFound hwalk
        exact ⟨before, name, after ++ [.name n], way, by rw [← hparts, hfront]; simp, hrest⟩
    · cases hwalk : d.walk (Path.parts path) with
      | ok way => simp [hwalk] at hlocate
      | error e =>
        rw [hwalk] at hlocate
        obtain rfl := Except.error.inj hlocate
        exact exists_of_walk_notFound hwalk
  | ok target =>
    cases target with
    | folder place => simp [hlocate, bind, Except.bind, pure, Except.pure] at h
    | named place n must =>
      obtain ⟨-, way, hlast, hwalk, rfl, -⟩ := locate_eq_named.1 hlocate
      have hparts := List.dropLast_append_getLast? _ hlast
      simp only [hlocate, bind, Except.bind, pure, Except.pure] at h
      have hother : OsError.notFolder ≠ .notFound := by decide
      refine ⟨_, n, [], way, hparts.symm, hwalk, ?_⟩
      grind

theorem eq_empty_of_readable (h : readable path = .error .notFound) : path = "" := by
  unfold readable at h
  split at h
  · cases h
  · split at h
    · cases h
    · split at h
      · simpa using ‹path.isEmpty = true›
      · cases h

/-- What cannot be read because it is missing stays missing when folders are made, unless the path steps
back out of a folder that is missing. -/
theorem lacks_of_read (h : d.read path = .error .notFound) (htree : d.IsTree) (hold : d.CanHold path) :
    d.Lacks path := by
  cases hreadable : readable path with
  | error e =>
    have hread : d.read path = .error e := by
      unfold Disk.read find locate
      rw [hreadable]
      rfl
    rw [h] at hread
    obtain rfl := Except.error.inj hread
    exact .inl (eq_empty_of_readable hreadable)
  | ok u =>
    obtain ⟨before, name, after, way, hparts, hway, hnone, hmissing⟩ :=
      exists_of_find_notFound hreadable (find_of_read_notFound h)
    refine .inr ⟨hreadable, before, name, after, way, hparts, hway, hnone, ?_, ?_⟩
    · exact htree.isBare (by simp [hnone])
    · exact List.forall_mem_cons.2 ⟨hmissing, hold _ _ _ _ hparts hway hnone⟩

/-! ### Making folders on the way -/

theorem makeEach_of_reaches {start : Way} (h : d.Reaches start parts way) (after : List PathPart) :
    d.makeEach start (parts ++ after) = d.makeEach way after := by
  induction parts generalizing start with
  | nil => rw [reaches_nil.1 h, List.nil_append]
  | cons part parts ih =>
    obtain ⟨middle, henter, hrest⟩ := reaches_cons.1 h
    have hmiddle := enter_eq_ok.1 henter
    rw [← ih hrest]
    cases part with
    | here => rw [hmiddle]; rfl
    | up => rw [hmiddle]; rfl
    | name n =>
      obtain ⟨hfolder, rfl⟩ := hmiddle
      rw [List.cons_append, makeEach, hfolder]

theorem KeepsFolders.reaches {start : Way} (h : KeepsFolders d d') (hway : d.Reaches start parts way) :
    d'.Reaches start parts way := by
  induction parts generalizing start with
  | nil => exact hway
  | cons part parts ih =>
    obtain ⟨middle, henter, hrest⟩ := reaches_cons.1 hway
    exact reaches_cons.2 ⟨middle, enter_mono h henter, ih hrest⟩

theorem IsBare.child (h : d.IsBare place) (name : String) : d.IsBare (place ++ "/" ++ name) := by
  intro below
  have hentry := h (name ++ "/" ++ below)
  rwa [← String.append_assoc, ← String.append_assoc] at hentry

/-- A folder that is made is empty. -/
theorem IsBare.put (h : d.IsBare place) (e : Entry) : (d.put place e).IsBare place := by
  intro name
  rw [entry?_put, child_isEmpty, if_neg Bool.false_ne_true, if_neg (child_ne _ _)]
  exact h name

/-- Where nothing stands, folders can be made, and nothing stands in the last of them. -/
theorem exists_reaches_makeEach (hbare : d.IsBare way.place) (hplain : ∀ part ∈ parts, IsPlain part) :
    ∃ way', (d.makeEach way parts).2.Reaches way parts way' ∧
      (d.makeEach way parts).2.IsBare way'.place := by
  induction parts generalizing d way with
  | nil => exact ⟨way, rfl, hbare⟩
  | cons part parts ih =>
    obtain ⟨hpart, hparts⟩ := List.forall_mem_cons.1 hplain
    cases part with
    | here =>
      obtain ⟨way', hway', hbare'⟩ := ih hbare hparts
      exact ⟨way', reaches_cons.2 ⟨way, rfl, hway'⟩, hbare'⟩
    | up => exact hpart.elim
    | name n =>
      have hnone : d.entry? (way.child n) = none := hbare n
      have hmake : d.makeEach way (.name n :: parts) =
          (d.put (way.child n) .folder).makeEach (way.child n :: way) parts := by
        simp only [makeEach, hnone, show missing n = .notFound from hpart, if_true]
      have hbelow : (d.put (way.child n) .folder).IsBare (way.child n) := (hbare.child n).put _
      obtain ⟨way', hway', hbare'⟩ := @ih _ (way.child n :: way) hbelow hparts
      rw [hmake]
      refine ⟨way', reaches_cons.2 ⟨_, enter_eq_ok.2 ⟨?_, rfl⟩, hway'⟩, hbare'⟩
      exact grows_makeEach _ _ _ _ _ (entry?_put_self _ (child_isEmpty _ _))

/-- The folder that is missing is made, and others in it. -/
theorem exists_reaches_makeEach_missing {made : List PathPart} (hway : d.Reaches [] before way)
    (hnone : d.entry? (way.child name) = none) (hbare : d.IsBare (way.child name))
    (hplain : ∀ part ∈ PathPart.name name :: made, IsPlain part) :
    ∃ way', (d.makeEach [] (before ++ .name name :: made)).2.Reaches [] (before ++ .name name :: made) way' ∧
      (d.makeEach [] (before ++ .name name :: made)).2.IsBare way'.place := by
  obtain ⟨hname, hmade⟩ := List.forall_mem_cons.1 hplain
  have hmake : d.makeEach [] (before ++ .name name :: made) =
      (d.put (way.child name) .folder).makeEach (way.child name :: way) made := by
    rw [makeEach_of_reaches hway]
    simp only [makeEach, hnone, show missing name = .notFound from hname, if_true]
  have hempty : Disk.IsBare (d.put (way.child name) .folder) (Way.place (way.child name :: way)) :=
    hbare.put _
  obtain ⟨way', hway', hbare'⟩ := exists_reaches_makeEach hempty hmade
  have hgrows := grows_makeEach (d.put (way.child name) .folder) (way.child name :: way) made
  rw [hmake]
  refine ⟨way', ?_, hbare'⟩
  refine reaches_append.2 ⟨way, ((grows_put hnone).trans hgrows).keepsFolders.reaches hway,
    reaches_cons.2 ⟨way.child name :: way, enter_eq_ok.2 ⟨?_, rfl⟩, hway'⟩⟩
  exact hgrows _ _ (entry?_put_self _ (child_isEmpty _ _))

/-- Parts that are not just dots go on to a name. -/
theorem exists_name (hplain : ∀ part ∈ parts, IsPlain part) (h : ∃ part ∈ parts, part ≠ .here) :
    ∃ dots name rest, parts = dots ++ .name name :: rest ∧
      ∀ (d : Disk) (way : Way), d.Reaches way dots way := by
  induction parts with
  | nil =>
    obtain ⟨part, hpart, -⟩ := h
    cases hpart
  | cons part parts ih =>
    obtain ⟨hpart, hparts⟩ := List.forall_mem_cons.1 hplain
    cases part with
    | up => exact hpart.elim
    | name n => exact ⟨[], n, parts, rfl, fun _ _ => rfl⟩
    | here =>
      have hrest : ∃ part ∈ parts, part ≠ .here := by simpa using h
      obtain ⟨dots, name, rest, rfl, hdots⟩ := ih hparts hrest
      exact ⟨.here :: dots, name, rest, rfl, fun d way => reaches_cons.2 ⟨way, rfl, hdots d way⟩⟩

/-- A path that leads to nothing leads to nothing when some of the folders on it are made. -/
theorem Lacks.makeEach {rest : List PathPart} (h : d.Lacks path) (hparts : Path.parts path = parts ++ rest)
    (hrest : ∃ part ∈ rest, part ≠ .here) : Lacks (d.makeEach [] parts).2 path := by
  have hkept : ∀ {parts way}, d.Reaches [] parts way → (d.makeEach [] parts).2 = d := by
    intro parts way hreaches
    have hmake := makeEach_of_reaches hreaches []
    rw [List.append_nil] at hmake
    rw [hmake]
    rfl
  rcases h with rfl | ⟨hreadable, before, name, after, way, hsplit, hway, hnone, hbare, hplain⟩
  · exact .inl rfl
  have hlacks : d.Lacks path := .inr ⟨hreadable, _, _, _, _, hsplit, hway, hnone, hbare, hplain⟩
  rcases List.append_eq_append_iff.1 (hsplit.symm.trans hparts) with ⟨made, rfl, hmade⟩ | ⟨more, hmore, -⟩
  · cases made with
    | nil =>
      rw [List.append_nil, hkept hway]
      exact hlacks
    | cons part made =>
      -- behind the folders that are made, the next name is missing
      obtain ⟨rfl, rfl⟩ := List.cons.inj hmade
      obtain ⟨hmadePlain, hrestPlain⟩ := List.forall_mem_append.1 (List.cons_append ▸ hplain)
      obtain ⟨way', hway', hbare'⟩ := exists_reaches_makeEach_missing hway hnone hbare hmadePlain
      obtain ⟨dots, next, rest, rfl, hdots⟩ := exists_name hrestPlain hrest
      refine .inr ⟨hreadable, before ++ .name name :: made ++ dots, next, rest, way', ?_,
        reaches_append.2 ⟨way', hway', hdots _ _⟩, hbare' next, hbare'.child next,
        (List.forall_mem_append.1 hrestPlain).2⟩
      rw [hparts]
      simp
  · obtain ⟨middle, hreaches, -⟩ := reaches_append.1 (hmore ▸ hway)
    rw [hkept hreaches]
    exact hlacks

/-! ### A file beside a path -/

/-- A path with an extension leads to a place beside what the path leads to. -/
theorem LeadsTo.exists_way {extension : List Char} (hslash : '/' ∉ extension)
    (hlong : 2 < extension.length) (h : d.LeadsTo (path ++ String.ofList extension) place) :
    ∃ front last way, Path.parts path = front ++ (Path.part? last).toList ∧ d.Reaches [] front way ∧
      place = way.child (String.ofList (last ++ extension)) := by
  obtain ⟨front, last, hparts, hextended⟩ := Path.parts_append_extension hslash hlong path
  obtain ⟨name, hlocate⟩ := h
  obtain ⟨-, way, hlast, hwalk, rfl, -⟩ := locate_eq_named.1 hlocate
  rw [hextended, List.getLast?_concat] at hlast
  rw [hextended, List.dropLast_concat] at hwalk
  obtain rfl := PathPart.name.inj (Option.some.inj hlast)
  exact ⟨front, last, way, hparts, hwalk, rfl⟩

theorem child_extended_ne {extension : List Char} (hlong : 2 < extension.length) (way : Way)
    (name : String) : way.child name ≠ way.child (String.ofList (name.toList ++ extension)) := by
  intro h
  have hempty : extension = [] := by simpa [Way.child] using congrArg String.toList h
  simp [hempty] at hlong

section Beside

variable {extension : List Char} {beside : String} (hslash : '/' ∉ extension) (hlong : 2 < extension.length)
  (hbeside : d.LeadsTo (path ++ String.ofList extension) beside)
include hslash hlong hbeside

theorem LeadsTo.ne_beside (h : d.LeadsTo path place) : place ≠ beside := by
  obtain ⟨front, last, way, hparts, hway, rfl⟩ := hbeside.exists_way hslash hlong
  obtain ⟨name, hlocate⟩ := h
  obtain ⟨-, way', hlast, hwalk, rfl, -⟩ := locate_eq_named.1 hlocate
  have hpath := List.dropLast_append_getLast? _ hlast
  cases hpart : Path.part? last with
  | none =>
    -- the file beside lies in what the path leads to
    rw [hpart, Option.toList_none, List.append_nil] at hparts
    rw [← hparts, ← hpath] at hway
    obtain ⟨middle, hmiddle, hname⟩ := reaches_append.1 hway
    obtain rfl : middle = way' := Except.ok.inj (hmiddle.symm.trans hwalk)
    obtain ⟨_, henter, hrest⟩ := reaches_cons.1 hname
    obtain ⟨-, rfl⟩ := enter_eq_ok.1 henter
    obtain rfl := reaches_nil.1 hrest
    exact (child_ne _ _).symm
  | some part =>
    rw [hpart, Option.toList_some] at hparts
    rw [hparts, List.getLast?_concat] at hlast
    rw [hparts, List.dropLast_concat] at hwalk
    obtain rfl : part = .name name := Option.some.inj hlast
    obtain rfl : way = way' := Except.ok.inj (hway.symm.trans hwalk)
    rw [Path.part?_eq_name hpart]
    exact child_extended_ne hlong way name

theorem Lacks.putBeside (h : d.Lacks path) (hentry : d.entry? beside ≠ some .folder) (content : Bytes) :
    Lacks (d.put beside (.file content)) path := by
  rcases h with rfl | ⟨hreadable, before, name, after, way, hsplit, hway, hnone, hbare, hplain⟩
  · exact .inl rfl
  obtain ⟨front, last, way', hparts, hway', rfl⟩ := hbeside.exists_way hslash hlong
  -- only the last part can be missing, for the folders on the way to the file beside it are there
  have hmissing : ∀ more, front ≠ before ++ .name name :: more := by
    rintro more rfl
    have hreached : d.walk (before ++ .name name :: more) = .ok way' := hway'
    rw [walk_missing hway hnone] at hreached
    cases hreached
  obtain ⟨rfl, hpart⟩ : before = front ∧ .name name :: after = (Path.part? last).toList := by
    rcases List.append_eq_append_iff.1 (hsplit.symm.trans hparts) with
      ⟨more, hfront, hrest⟩ | ⟨more, hfront, hrest⟩
    · cases more with
      | nil => exact ⟨by simpa using hfront.symm, hrest⟩
      | cons part more =>
        obtain ⟨rfl, -⟩ := List.cons.inj hrest
        exact absurd hfront (hmissing more)
    · cases more with
      | nil => exact ⟨by simpa using hfront, hrest.symm⟩
      | cons part more => cases hlast : Path.part? last <;> simp [hlast] at hrest
  have hname : last = name.toList := by
    refine Path.part?_eq_name ?_
    cases hlast : Path.part? last <;> simp_all
  obtain rfl : way = way' := Except.ok.inj (hway.symm.trans hway')
  rw [hname] at hentry ⊢
  have hne := child_extended_ne hlong way name
  refine .inr ⟨hreadable, before, name, after, way, hsplit, ?_, ?_, fun below => ?_, hplain⟩
  · exact (keepsFolders_put hentry).reaches hway
  · rw [entry?_put, if_neg hne, show (way.child name).isEmpty = false from child_isEmpty _ _]
    exact hnone
  · have hbelow : way.child name ++ "/" ++ below ≠ way.child (String.ofList (name.toList ++ extension)) := by
      intro h
      have hextension : '/' :: below.toList = extension := by
        simpa [Way.child] using congrArg String.toList h
      exact hslash (hextension ▸ List.mem_cons_self)
    rw [entry?_put, child_isEmpty, if_neg Bool.false_ne_true, if_neg hbelow]
    exact hbare below

end Beside

end AgentRelay.Disk

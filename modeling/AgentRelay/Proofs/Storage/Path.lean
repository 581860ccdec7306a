import AgentRelay.Storage.Path
import Mathlib.Data.List.DropRight

/-!
# Paths and their parts

* `splitSlash_eq_splitOn` and `splitSlash_joinSlash` are the two ways between a path and its texts.
* `parts_of_parent?`: the parts of a folder are the first parts of a path in it.
* `parts_append_extension`: a text at the end of a path is a text at the end of its last part.
* `parts_join`: a path inside a folder goes on from the folder.
-/

namespace AgentRelay.Path

theorem splitSlash_eq_splitOn (cs : List Char) : splitSlash cs = cs.splitOn '/' := by
  induction cs with
  | nil => rfl
  | cons c cs ih =>
    rw [List.splitOn_cons_eq_if_modifyHead, splitSlash, List.foldr_cons, ← splitSlash, ih]
    split
    · rfl
    · cases hcs : cs.splitOn '/' with
      | nil => exact absurd hcs (List.splitOn_ne_nil _ _)
      | cons text texts => rfl

theorem splitSlash_ne_nil (cs : List Char) : splitSlash cs ≠ [] := by
  rw [splitSlash_eq_splitOn]
  exact List.splitOn_ne_nil _ _

theorem splitSlash_of_notMem {cs : List Char} (h : '/' ∉ cs) : splitSlash cs = [cs] := by
  rw [splitSlash_eq_splitOn, List.splitOn_eq_singleton h]

theorem splitSlash_joinSlash {texts : List (List Char)} (h : ∀ text ∈ texts, '/' ∉ text)
    (hne : texts ≠ []) : splitSlash (joinSlash texts) = texts := by
  rw [splitSlash_eq_splitOn, joinSlash, List.splitOn_intercalate _ h hne]

theorem splitSlash_cons (c : Char) (cs : List Char) :
    splitSlash (c :: cs) =
      if c == '/' then [] :: splitSlash cs else (splitSlash cs).modifyHead (c :: ·) := by
  simp only [splitSlash_eq_splitOn, List.splitOn_cons_eq_if_modifyHead]

/-- No text between slashes holds one. -/
theorem slash_notMem {cs text : List Char} (h : text ∈ splitSlash cs) : '/' ∉ text := by
  induction cs generalizing text with
  | nil =>
    obtain rfl : text = [] := by simpa [splitSlash] using h
    exact List.not_mem_nil
  | cons c cs ih =>
    rw [splitSlash_cons] at h
    split at h
    · rcases List.mem_cons.1 h with rfl | h
      · exact List.not_mem_nil
      · exact ih h
    · rename_i hc
      obtain ⟨first, texts, hcs⟩ := List.exists_cons_of_ne_nil (splitSlash_ne_nil cs)
      rw [hcs] at h ih
      rcases List.mem_cons.1 h with rfl | h
      · have hfirst := ih List.mem_cons_self
        simp only [beq_iff_eq] at hc
        simp [Ne.symm hc, hfirst]
      · exact ih (List.mem_cons_of_mem _ h)

/-- A text at the end goes on in the last text. -/
theorem splitSlash_append {t : List Char} (h : '/' ∉ t) (cs : List Char) :
    ∃ texts last, splitSlash cs = texts ++ [last] ∧ splitSlash (cs ++ t) = texts ++ [last ++ t] := by
  induction cs with
  | nil => exact ⟨[], [], rfl, splitSlash_of_notMem h⟩
  | cons c cs ih =>
    obtain ⟨texts, last, hcs, happend⟩ := ih
    rw [List.cons_append, splitSlash_cons, splitSlash_cons, hcs, happend]
    split
    · exact ⟨[] :: texts, last, rfl, rfl⟩
    · cases texts with
      | nil => exact ⟨[], c :: last, rfl, rfl⟩
      | cons text texts => exact ⟨(c :: text) :: texts, last, rfl, rfl⟩

/-- A slash cuts the texts in front of it from those behind it. -/
theorem splitSlash_append_slash (cs t : List Char) :
    splitSlash (cs ++ '/' :: t) = splitSlash cs ++ splitSlash t := by
  simp only [splitSlash_eq_splitOn, List.splitOn_append_cons_self]

/-! ### Parts -/

theorem part?_eq_name {text : List Char} {name : String} (h : part? text = some (.name name)) :
    text = name.toList := by
  unfold part? at h
  split at h
  · cases h
  · cases h
  · cases h
  · cases h
    simp

/-- A name in a path holds no slash. -/
theorem slash_notMem_name {path name : String} (h : .name name ∈ parts path) : '/' ∉ name.toList := by
  obtain ⟨text, hmem, hpart⟩ := List.mem_filterMap.1 h
  rw [← part?_eq_name hpart]
  exact slash_notMem hmem

/-- The path of texts that a path is made of has their parts. -/
theorem parts_joinSlash {texts : List (List Char)} (h : ∀ text ∈ texts, '/' ∉ text) :
    parts (String.ofList (if texts == [[]] then ['/'] else joinSlash texts)) =
      texts.filterMap part? := by
  split
  · rename_i hroot
    rw [eq_of_beq hroot]
    rfl
  · unfold parts
    rw [String.toList_ofList]
    by_cases hne : texts = []
    · rw [hne]
      rfl
    · rw [splitSlash_joinSlash h hne]

/-- What is dropped at the end is void, and what is left ends in a text that is not. -/
theorem dropVoid_append (texts : List (List Char)) : ∃ void, texts = dropVoid texts ++ void :=
  ⟨texts.rtakeWhile isVoid, List.rdropWhile_append_rtakeWhile.symm⟩

theorem part?_of_not_isVoid {text : List Char} (h : isVoid text = false) :
    ∃ part, part? text = some part ∧ part ≠ .here := by
  unfold isVoid at h
  unfold part?
  split <;> simp_all

/-- The parts of a folder are the first parts of a path that lies in it; the others are not just dots. -/
theorem parts_of_parent? {path folder : String} (h : parent? path = some folder)
    (hfolder : folder.isEmpty = false) :
    ∃ rest, parts path = parts folder ++ rest ∧ ∃ part ∈ rest, part ≠ .here := by
  unfold parent? at h
  extract_lets texts start at h
  split at h
  · split at h
    · cases h
      cases hfolder
    · cases h
  · rename_i hbody
    -- the last text that is not void ends the path, and the folder ends somewhere in front of it
    set body := dropVoid (texts.drop start) with hdef
    obtain ⟨void, hvoid⟩ := dropVoid_append (texts.drop start)
    obtain ⟨void', hvoid'⟩ := dropVoid_append body.dropLast
    have hlast : isVoid (body.getLast hbody) = false :=
      Bool.eq_false_iff.2 (List.rdropWhile_last_not isVoid (texts.drop start) hbody)
    obtain ⟨part, hpart, hhere⟩ := part?_of_not_isVoid hlast
    have htexts : texts = (texts.take start ++ dropVoid body.dropLast) ++
        (void' ++ body.getLast hbody :: void) := by
      conv_lhs => rw [← List.take_append_drop start texts, hvoid, ← hdef,
        ← List.dropLast_append_getLast hbody, hvoid']
      simp
    have hslash : ∀ text ∈ texts.take start ++ dropVoid body.dropLast, '/' ∉ text := by
      intro text htext
      have hmem : text ∈ texts := by
        rw [htexts]
        exact List.mem_append_left _ htext
      exact slash_notMem hmem
    obtain rfl := Option.some.inj h
    refine ⟨(void' ++ body.getLast hbody :: void).filterMap part?, ?_, part, ?_, hhere⟩
    · rw [parts_joinSlash hslash, ← List.filterMap_append, ← htexts]
      rfl
    · exact List.mem_filterMap.2 ⟨_, by simp, hpart⟩

/-- The texts that mean something else than a name are short. -/
theorem part?_of_length_gt {text : List Char} (h : 2 < text.length) :
    part? text = some (.name (String.ofList text)) := by
  unfold part?
  split
  · simp at h
  · simp at h
  · simp at h
  · rfl

/-- With an extension a path has the same parts up to its last one, which is a name. -/
theorem parts_append_extension {extension : List Char} (hslash : '/' ∉ extension)
    (hlong : 2 < extension.length) (path : String) :
    ∃ front last, parts path = front ++ (part? last).toList ∧
      parts (path ++ String.ofList extension) =
        front ++ [.name (String.ofList (last ++ extension))] := by
  obtain ⟨texts, last, hpath, happend⟩ := splitSlash_append hslash path.toList
  refine ⟨texts.filterMap part?, last, ?_, ?_⟩
  · rw [parts, hpath, List.filterMap_append]
    cases hlast : part? last <;> simp [hlast]
  · have hname := part?_of_length_gt (show 2 < (last ++ extension).length by simp; omega)
    rw [parts, String.toList_append, String.toList_ofList, happend, List.filterMap_append]
    simp [hname]

/-- A name that is not just dots is all of its path. -/
theorem parts_of_length_gt {name : String} (hslash : '/' ∉ name.toList) (hlong : 2 < name.toList.length) :
    parts name = [.name name] := by
  simp [parts, splitSlash_of_notMem hslash, part?_of_length_gt hlong]

/-! ### Paths inside a folder -/

theorem head?_ne_slash {name : String} (h : '/' ∉ name.toList) : name.toList.head? ≠ some '/' :=
  fun hhead => h (List.mem_of_head? hhead)

theorem parts_append_slash (path rest : String) : parts (path ++ "/" ++ rest) = parts path ++ parts rest := by
  have hchars : (path ++ "/" ++ rest).toList = path.toList ++ '/' :: rest.toList := by simp
  rw [parts, hchars, splitSlash_append_slash, List.filterMap_append, parts, parts]

/-- A path inside a folder goes on from the folder. -/
theorem parts_join {name : String} (h : name.toList.head? ≠ some '/') (folder : String) :
    parts (join folder name) = parts folder ++ parts name := by
  have hrelative : (name.toList.head? == some '/') = false := by simpa using h
  simp only [join, hrelative, Bool.false_eq_true, if_false, Bool.or_eq_true]
  split
  next hfolder =>
    rcases hfolder with hempty | hslash
    · obtain rfl := String.isEmpty_iff.1 hempty
      rw [String.empty_append]
      rfl
    -- a slash at the end of the folder cuts off an empty text, which is no part
    · obtain ⟨cs, hcs⟩ := List.getLast?_eq_some_iff.1 (eq_of_beq hslash)
      have hfolder : folder = String.ofList cs ++ "/" ++ "" := String.toList_inj.1 (by simp [hcs])
      have hnothing : parts "" = [] := rfl
      have hends : parts folder = parts (String.ofList cs) := by
        rw [hfolder, parts_append_slash, hnothing, List.append_nil]
      rw [hends, hfolder, String.append_empty, parts_append_slash]
  next => exact parts_append_slash folder name

theorem join_ne_empty {name : String} (h : name ≠ "") (folder : String) : join folder name ≠ "" := by
  unfold join
  split_ifs <;> simp [h]

theorem endsInSlash_join {name : String} (hslash : '/' ∉ name.toList) (hname : name.toList ≠ [])
    (folder : String) : endsInSlash (join folder name) = false := by
  obtain ⟨c, hc⟩ := Option.ne_none_iff_exists'.1 (List.getLast?_eq_none_iff.not.2 hname)
  have hne : c ≠ '/' := by
    rintro rfl
    exact hslash (List.mem_of_getLast? hc)
  have hlast (front : String) : endsInSlash (front ++ name) = false := by
    simp [endsInSlash, List.getLast?_append, hc, hne]
  unfold join
  split_ifs
  · simp [endsInSlash, hc, hne]
  · exact hlast folder
  · exact hlast (folder ++ "/")

/-- A path inside a folder holds what the folder and the name hold, and slashes. -/
theorem mem_join {c : Char} (hc : c ≠ '/') {folder name : String} (h : name.toList.head? ≠ some '/') :
    c ∈ (join folder name).toList ↔ c ∈ folder.toList ∨ c ∈ name.toList := by
  have hrelative : (name.toList.head? == some '/') = false := by simpa using h
  simp only [join, hrelative, Bool.false_eq_true, if_false]
  split <;> simp [hc]

end AgentRelay.Path

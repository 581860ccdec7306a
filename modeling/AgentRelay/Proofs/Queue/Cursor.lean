import AgentRelay.Proofs.Json.Integer
import AgentRelay.Proofs.Json.Record
import AgentRelay.Proofs.Storage.Halfway
import AgentRelay.Proofs.Storage.Missing
import AgentRelay.Queue.Cursor

/-!
# A cursor is replaced in one step

While a cursor is saved, the program may stop at any time and any operation may fail. What is loaded
afterwards is the old offset or the new one, and the new one when the temporary file was renamed.

* `Shows` is what a cursor file shows. It stays so when folders on the way are made and when the temporary
  file is written.
* `Outcome` is what a save has come to; `outcome_of_save` follows its steps, one lemma for each.
* `load_of_save` is the result. It needs a path that stays where it leads when its folders are made
  (`not_load_of_save`).
-/

namespace AgentRelay.Cursor

open Json Disk

variable {d d' : Disk} {path : String} {n m : Nat}

/-- A written offset is read back. -/
theorem decode_json (path : String) (hm : m < UInt64.size) : decode path (json m) = .ok m := by
  have hread : Reads (integer "u64" 0 (UInt64.size - 1)) (intText m) (m : Int) :=
    reads_integer "u64" (by omega) (by omega) (by omega)
  have hfind (r : Reader Int) (store : Int → Option Nat → Option Nat) :
      MemberReader.find? [field "offset" r store] "offset" = some (field "offset" r store) := rfl
  have hreader : Reads reader (json m) m :=
    (reads_checkedRecord "CursorRecord"
      (.cons (moves_field (hfind _ fun v _ => some v.toNat) hread List.not_mem_nil none) (.nil _))
      rfl).map _
  rw [decode, readAll_of_reads hreader]
  rfl

/-! ### What a cursor file shows -/

/-- The file at a path, or nothing, and nothing when folders are made either. -/
def Shows (d : Disk) (path : String) : Option Bytes → Prop
  | some content => d.read path = .ok content
  | none => d.Lacks path

/-- The offset that is loaded. -/
def shown (path : String) : Option Bytes → Except CursorError Nat
  | some content => decode path content
  | none => .ok 0

theorem execute_load (d : Disk) (path : String) :
    (d.execute (load path)).1 = match d.read path with
      | .ok content => decode path content
      | .error e => if e = OsError.notFound then .ok 0 else .error (.storage path e) := rfl

theorem load_of_shows {c : Option Bytes} (h : Shows d path c) :
    (d.execute (load path)).1 = shown path c := by
  rw [execute_load]
  cases c with
  | some content => rw [show d.read path = .ok content from h]; rfl
  | none => rw [Lacks.read h]; rfl

theorem exists_shows (htree : d.IsTree) (hold : d.CanHold path)
    (h : (d.execute (load path)).1 = .ok n) : ∃ c, Shows d path c ∧ shown path c = .ok n := by
  rw [execute_load] at h
  cases hread : d.read path with
  | ok content =>
    rw [hread] at h
    exact ⟨some content, hread, h⟩
  | error e =>
    rw [hread] at h
    by_cases he : e = .notFound
    · subst he
      exact ⟨none, lacks_of_read hread htree hold, h⟩
    · simp [he] at h

variable {c : Option Bytes}

/-- Making folders on the way changes nothing. -/
theorem Shows.makeEach (h : Shows d path c) {parts rest : List PathPart}
    (hparts : Path.parts path = parts ++ rest) (hrest : ∃ part ∈ rest, part ≠ .here) :
    Shows (d.makeEach [] parts).2 path c := by
  cases c with
  | some content => exact (grows_makeEach d [] parts).read h
  | none => exact Lacks.makeEach h hparts hrest

/-- A file beside the cursor file may be written. -/
theorem Shows.putTemporary (h : Shows d path c) {place : String} (hleads : d.LeadsTo (temporary path) place)
    (hentry : d.entry? place ≠ some .folder) (content : Bytes) :
    Shows (d.put place (.file content)) path c := by
  have hslash : '/' ∉ ['.', 't', 'm', 'p'] := by decide
  have hlong : 2 < ['.', 't', 'm', 'p'].length := by decide
  have hbeside : d.LeadsTo (path ++ String.ofList ['.', 't', 'm', 'p']) place := hleads
  cases c with
  | some old =>
    obtain ⟨target, htarget, hold⟩ := read_eq_ok.1 h
    have hne := LeadsTo.ne_beside hslash hlong hbeside htarget
    refine read_eq_ok.2 ⟨target, htarget.mono (keepsFolders_put hentry), ?_⟩
    rw [entry?_put, htarget.isEmpty_eq_false, if_neg Bool.false_ne_true, if_neg hne]
    exact hold
  | none => exact Lacks.putBeside hslash hlong hbeside h hentry content

/-! ### The steps of a replacement -/

theorem does_fileStep {α : Type} {q : FileQuestion} {wrap : OsError → CursorError}
    {next : q.Result → Script FileQuestion FileAnswer (Except CursorError α)}
    {finished : List FileQuestion} {result : Option (Except CursorError α)}
    (h : Does (fileStep onFile q wrap next) d finished result d') :
    (finished = [] ∧ (∀ a, result ≠ some (.ok a)) ∧ Halfway d q d') ∨
      ∃ a d₁ rest, d.answer q = (.ok a, d₁) ∧ finished = q :: rest ∧
        Does (next a) d₁ rest result d' := by
  unfold fileStep onFile at h
  rw [Script.bind_ask] at h
  cases h with
  | stopped => exact .inl ⟨rfl, by simp, .untouched q⟩
  | stoppedIn halfway => exact .inl ⟨rfl, by simp, halfway⟩
  | failed e halfway rest =>
    cases rest with
    | ended => exact .inl ⟨rfl, by simp, halfway⟩
    | stopped => exact .inl ⟨rfl, by simp, halfway⟩
  | succeeded answered rest => exact .inr ⟨_, _, _, answered, rfl, rest⟩

/-- What a replacement has come to: the new content is there when the file was renamed, and that is what
the result tells. -/
structure Outcome (path : String) (c : Option Bytes) (m : Nat) (finished : List FileQuestion)
    (result : Option (Except CursorError Unit)) (d : Disk) : Prop where
  holds : Shows d path (if .rename (temporary path) path ∈ finished then some (json m) else c)
  of_ok (u : Unit) : result = some (.ok u) → .rename (temporary path) path ∈ finished
  of_error (e : CursorError) : result = some (.error e) → .rename (temporary path) path ∉ finished

variable {finished : List FileQuestion} {result : Option (Except CursorError Unit)}

theorem Outcome.early (h : Shows d path c) (hresult : ∀ u, result ≠ some (.ok u)) :
    Outcome path c m [] result d where
  holds := h
  of_ok u hu := absurd hu (hresult u)
  of_error _ _ := List.not_mem_nil

theorem Outcome.cons (h : Outcome path c m finished result d) {q : FileQuestion}
    (hq : .rename (temporary path) path ≠ q) : Outcome path c m (q :: finished) result d := by
  have hmem : .rename (temporary path) path ∈ q :: finished ↔
      .rename (temporary path) path ∈ finished := by simp [hq]
  exact ⟨by simpa only [hmem] using h.holds, fun u hu => hmem.2 (h.of_ok u hu),
    fun e he => mt hmem.1 (h.of_error e he)⟩

theorem Shows.halfFolders (h : Shows d path c) {folder : String} (hparent : Path.parent? path = some folder)
    (hfolder : folder.isEmpty = false) (halfway : Halfway d (.makeFolders folder) d') :
    Shows d' path c := by
  cases halfway with
  | untouched => exact h
  | @folders _ parts isPrefix =>
    obtain ⟨more, hmore⟩ := isPrefix
    obtain ⟨rest, hparts, part, hmem, hpart⟩ := Path.parts_of_parent? hparent hfolder
    have hsplit : Path.parts path = parts ++ (more ++ rest) := by
      rw [hparts, ← hmore, List.append_assoc]
    exact h.makeEach hsplit ⟨part, List.mem_append_right _ hmem, hpart⟩

/-- What was renamed is found under the new name. -/
theorem read_rename {source : String} {content : Bytes} (h : d.rename source path = .ok d')
    (hread : d.read source = .ok content) : d'.read path = .ok content := by
  obtain ⟨old, place, content', hsource, hold, htarget, hentry, rfl⟩ := rename_eq_ok h
  have hfile : d.entry? old ≠ some .folder := by simp [hold]
  obtain rfl : content = content' :=
    Except.ok.inj (hread.symm.trans (read_eq_ok.2 ⟨old, hsource, hold⟩))
  exact read_put (htarget.mono (keepsFolders_remove hfile)) (mt (entry?_remove_eq_folder hfile).1 hentry) _

theorem outcome_of_rename (hc : Shows d path c) (hread : d.read (temporary path) = .ok (json m))
    (h : Does (fileStep onFile (.rename (temporary path) path) (.storage path) fun _ =>
      .done (.ok ())) d finished result d') : Outcome path c m finished result d' := by
  rcases does_fileStep h with ⟨rfl, hresult, halfway⟩ | ⟨_, d₁, rest, hanswer, rfl, hrest⟩
  · cases halfway
    exact .early hc hresult
  · have hnew : Shows d₁ path (some (json m)) := read_rename (changed_eq_ok hanswer) hread
    cases hrest with
    | ended => exact ⟨by simpa using hnew, by simp, by simp⟩
    | stopped => exact ⟨by simpa using hnew, by simp, by simp⟩

/-- The temporary file is written, and nothing of that is seen. -/
theorem Shows.opened (hc : Shows d path c) (h : d.opened false (temporary path) = .ok d') :
    Shows d' path c ∧ d'.read (temporary path) = .ok [] := by
  obtain ⟨place, hleads, hentry, rfl⟩ := opened_eq_ok h
  exact ⟨hc.putTemporary hleads hentry _, read_put hleads hentry _⟩

theorem Shows.write (hc : Shows d path c) {bytes : Bytes} (h : d.write (temporary path) bytes = .ok d') :
    Shows d' path c := by
  obtain ⟨place, content, hleads, hentry, rfl⟩ := write_eq_ok h
  exact hc.putTemporary hleads (by simp [hentry]) _

theorem outcome_of_write (hc : Shows d path c) (hread : d.read (temporary path) = .ok [])
    (h : Does (fileStep onFile (.write (temporary path) (json m)) (.storage path) fun _ =>
      fileStep onFile (.sync (temporary path)) (.storage path) fun _ =>
        fileStep onFile (.rename (temporary path) path) (.storage path) fun _ => .done (.ok ()))
      d finished result d') : Outcome path c m finished result d' := by
  rcases does_fileStep h with ⟨rfl, hresult, halfway⟩ | ⟨_, d₁, rest, hanswer, rfl, hrest⟩
  · cases halfway with
    | untouched => exact .early hc hresult
    | written _ hpart => exact .early (hc.write hpart) hresult
  have hwrite := changed_eq_ok hanswer
  have hnew := read_write hwrite hread
  rw [List.nil_append] at hnew
  refine Outcome.cons ?_ (by simp)
  rcases does_fileStep hrest with ⟨rfl, hresult, halfway⟩ | ⟨_, d₂, rest, hanswer, rfl, hrest⟩
  · cases halfway
    exact .early (hc.write hwrite) hresult
  · obtain rfl : d₁ = d₂ := (Prod.mk.inj hanswer).2
    exact (outcome_of_rename (hc.write hwrite) hnew hrest).cons (by simp)

theorem outcome_of_truncate (hc : Shows d path c)
    (h : Does (fileStep onFile (.truncate (temporary path)) (.storage path) fun _ =>
      fileStep onFile (.write (temporary path) (json m)) (.storage path) fun _ =>
        fileStep onFile (.sync (temporary path)) (.storage path) fun _ =>
          fileStep onFile (.rename (temporary path) path) (.storage path) fun _ => .done (.ok ()))
      d finished result d') : Outcome path c m finished result d' := by
  rcases does_fileStep h with ⟨rfl, hresult, halfway⟩ | ⟨_, d₁, rest, hanswer, rfl, hrest⟩
  · cases halfway with
    | untouched => exact .early hc hresult
    | emptied hopened => exact .early (hc.opened hopened).1 hresult
  · obtain ⟨hc, hread⟩ := hc.opened (changed_eq_ok hanswer)
    exact (outcome_of_write hc hread hrest).cons (by simp)

theorem outcome_of_save (hc : Shows d path c) (h : Does (save path m) d finished result d') :
    Outcome path c m finished result d' := by
  unfold save makeParent at h
  cases hparent : Path.parent? path with
  | none =>
    rw [hparent] at h
    exact outcome_of_truncate hc h
  | some folder =>
    rw [hparent] at h
    cases hfolder : folder.isEmpty with
    | true =>
      simp only [hfolder, if_true] at h
      exact outcome_of_truncate hc h
    | false =>
      simp only [hfolder, Bool.false_eq_true, if_false] at h
      rcases does_fileStep h with ⟨rfl, hresult, halfway⟩ | ⟨_, d₁, rest, hanswer, rfl, hrest⟩
      · exact .early (hc.halfFolders hparent hfolder halfway) hresult
      · obtain rfl : (d.makeFolders folder).2 = d₁ := congrArg Prod.snd hanswer
        have hmade := hc.halfFolders hparent hfolder (halfway_makeFolders d folder)
        exact (outcome_of_truncate hmade hrest).cons (by simp)

/-- A cursor is replaced in one step. -/
theorem load_of_save (htree : d.IsTree) (hold : d.CanHold path) (hm : m < UInt64.size)
    (hload : (d.execute (load path)).1 = .ok n) (hsave : Does (save path m) d finished result d') :
    (d'.execute (load path)).1 = .ok (if .rename (temporary path) path ∈ finished then m else n) ∧
      (result = some (.ok ()) → .rename (temporary path) path ∈ finished) ∧
      (∀ e, result = some (.error e) → .rename (temporary path) path ∉ finished) := by
  obtain ⟨c, hc, hshown⟩ := exists_shows htree hold hload
  have houtcome := outcome_of_save hc hsave
  refine ⟨?_, houtcome.of_ok (), houtcome.of_error⟩
  rw [load_of_shows houtcome.holds]
  split
  · exact decode_json path hm
  · exact hshown

/-- A replacement is stopped while it writes, and the offset that was saved before is loaded. -/
theorem load_of_save_stopped :
    ∃ d d', Disk.execute (save "f/q.offset" 7) {} = (.ok (), d) ∧
      Does (save "f/q.offset" 5) d [.makeFolders "f", .truncate "f/q.offset.tmp"] none d' ∧
      d'.read "f/q.offset.tmp" = .ok ((json 5).take 4) ∧
      (d'.execute (load "f/q.offset")).1 = .ok 7 := by
  obtain ⟨d, d', hsaved, hload, hstopped, hread⟩ :
      ∃ d d', Disk.execute (save "f/q.offset" 7) {} = (.ok (), d) ∧
        (d.execute (load "f/q.offset")).1 = .ok 7 ∧
        Does (save "f/q.offset" 5) d [.makeFolders "f", .truncate "f/q.offset.tmp"] none d' ∧
        d'.read "f/q.offset.tmp" = .ok ((json 5).take 4) :=
    ⟨_, _, rfl, rfl,
      .succeeded rfl (.succeeded rfl (.stoppedIn (.written (List.take_prefix 4 _) rfl))), rfl⟩
  have htree : d.IsTree := by
    have htree := isTree_empty.execute (save "f/q.offset" 7)
    rwa [hsaved] at htree
  have hold : d.CanHold "f/q.offset" := canHold_of_isPlain (by decide) d
  exact ⟨d, d', hsaved, hstopped, hread, (load_of_save htree hold (by decide) hload hstopped).1⟩

/-- A path that steps back out of a folder that is missing leads to a folder when that folder is made: the
file is not replaced, and the offset that was loaded before is not loaded any more. -/
theorem not_load_of_save :
    (Disk.execute (load (pathFor "j.offset/../j")) {}).1 = .ok 0 ∧
      ∃ e d, Disk.execute (save (pathFor "j.offset/../j") 5) {} = (.error e, d) ∧
        (d.execute (load (pathFor "j.offset/../j"))).1 =
          .error (.storage (pathFor "j.offset/../j") .isFolder) :=
  ⟨rfl, _, _, rfl, rfl⟩

end AgentRelay.Cursor

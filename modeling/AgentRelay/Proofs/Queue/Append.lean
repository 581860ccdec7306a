import AgentRelay.Proofs.Storage.Disk
import AgentRelay.Queue.Append

/-!
# Lines go to the end of the queue file

A job that is kept adds its line to what the queue file held, and jobs that are kept one after the other
add their lines in that order.

* `Queue.read_appendTo` is one job, `Queue.read_appendAll` any number of them.
-/

namespace AgentRelay

/-- The disk with the folder that a path lies in. -/
def Disk.withParent (d : Disk) (path : String) : Disk :=
  match Path.parent? path with
  | none => d
  | some folder => if folder.isEmpty then d else (d.makeFolders folder).2

theorem Disk.grows_withParent (d : Disk) (path : String) : Grows d (d.withParent path) := by
  unfold withParent
  split
  · exact .refl d
  · split
    · exact .refl d
    · exact grows_makeFolders d _

/-- A file that can be read holds the same when the folder is made again. -/
theorem Disk.content_withParent {d : Disk} {path : String} {content : Bytes} (h : d.read path = .ok content) :
    (d.withParent path).content path = content :=
  content_of_read ((d.grows_withParent path).read h)

namespace Queue

variable {d d' : Disk} {path : String} {j : Job}

theorem run_fileStep_answer (cancelled : Bool) (q : FileQuestion) (next : q.Result → Writer)
    (d : Disk) :
    ((fileStep onFile q .storage next).run (soleWriter cancelled)).run d =
      ((match (d.answer q).1 with
        | .error e => .done (.error (.storage e))
        | .ok a => next a : Writer).run (soleWriter cancelled)).run (d.answer q).2 := rfl

/-- What a writer is told goes on from what the disk answers. -/
theorem run_fileStep (cancelled : Bool) (q : FileQuestion) (next : q.Result → Writer) (d : Disk) :
    ((fileStep onFile q .storage next).run (soleWriter cancelled)).run d =
      match d.answer q with
      | (.error e, d) => (.error (.storage e), d)
      | (.ok a, d) => ((next a).run (soleWriter cancelled)).run d := by
  rw [run_fileStep_answer]
  obtain ⟨r, d₁⟩ := d.answer q
  cases r <;> rfl

/-- A writer goes on only from an operation that succeeded. -/
theorem fileStep_eq_ok {cancelled : Bool} {q : FileQuestion} {next : q.Result → Writer}
    (h : ((fileStep onFile q .storage next).run (soleWriter cancelled)).run d = (.ok (), d')) :
    ∃ a d₁, d.answer q = (.ok a, d₁) ∧
      ((next a).run (soleWriter cancelled)).run d₁ = (.ok (), d') := by
  rw [run_fileStep] at h
  split at h
  · cases h
  · exact ⟨_, _, ‹_›, h⟩

/-- A writer that makes the folder of a path goes on with that folder. -/
theorem makeParent_eq_ok {cancelled : Bool} {next : Writer}
    (h : ((makeParent onFile path .storage next).run (soleWriter cancelled)).run d = (.ok (), d')) :
    (next.run (soleWriter cancelled)).run (d.withParent path) = (.ok (), d') := by
  unfold makeParent at h
  unfold Disk.withParent
  cases hparent : Path.parent? path with
  | none => simpa only [hparent] using h
  | some folder =>
    simp only [hparent] at h ⊢
    split
    · rename_i hempty
      rwa [if_pos hempty] at h
    · rename_i hfolder
      rw [if_neg hfolder] at h
      obtain ⟨a, d₁, hmade, hnext⟩ := fileStep_eq_ok h
      rwa [show (d.makeFolders folder).2 = d₁ from (Prod.mk.inj hmade).2]

/-- A line that is kept stands behind what the file held. -/
theorem read_of_appendLine {line : Bytes}
    (h : ((appendLine path line).run (soleWriter false)).run d = (.ok (), d')) :
    d'.read path = .ok ((d.withParent path).content path ++ line) := by
  -- the file is opened, the line is written, and the sync changes nothing
  obtain ⟨_, d₁, hopen, hafter⟩ := fileStep_eq_ok (makeParent_eq_ok h)
  obtain ⟨_, d₂, hwrite, hafter⟩ := fileStep_eq_ok hafter
  obtain ⟨_, d₃, hsync, hdone⟩ := fileStep_eq_ok hafter
  obtain rfl : d₂ = d₃ := (Prod.mk.inj hsync).2
  obtain rfl : d₂ = d' := (Prod.mk.inj hdone).2
  exact Disk.read_append (Disk.changed_eq_ok hopen) (Disk.changed_eq_ok hwrite)

/-- A job that is kept stands behind what the file held. -/
theorem read_appendTo (h : appendTo path false j d = (.ok (), d')) :
    d'.read path = .ok ((d.withParent path).content path ++ j.line) :=
  read_of_appendLine h

/-- Keeps jobs one after the other, up to the first that is not kept. -/
def appendAll (path : String) : List Job → Disk → Except SinkError Unit × Disk
  | [], d => (.ok (), d)
  | j :: jobs, d =>
    match appendTo path false j d with
    | (.ok (), d) => appendAll path jobs d
    | (.error e, d) => (.error e, d)

/-- Jobs that are kept one after the other add their lines in that order. -/
theorem read_appendAll {jobs : List Job} (h : appendAll path jobs d = (.ok (), d'))
    (hjobs : jobs ≠ []) :
    d'.read path = .ok ((d.withParent path).content path ++ jobs.flatMap Job.line) := by
  induction jobs generalizing d with
  | nil => contradiction
  | cons j jobs ih =>
    rw [appendAll] at h
    split at h
    · rename_i d₁ hj
      have hread := read_appendTo hj
      by_cases hrest : jobs = []
      · subst hrest
        obtain rfl : d₁ = d' := (Prod.mk.inj h).2
        simpa using hread
      · rw [ih h hrest, Disk.content_withParent hread, List.flatMap_cons, List.append_assoc]
    · cases h

end Queue
end AgentRelay

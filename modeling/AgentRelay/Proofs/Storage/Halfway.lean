import AgentRelay.Proofs.Storage.Disk

/-!
# Operations that do not come to their end

The program can stop at any time, also in the middle of an operation, and any operation can fail and leave
a part of its work behind.

* `Disk.Halfway` is what an operation leaves that does not come to its end.
* `Disk.Does` is what a script does on a disk when it may be stopped and its operations may fail. What it
  does when nothing happens is a case of that (`does_execute`).
-/

namespace AgentRelay.Disk

variable {d d' : Disk} {path place : String}

/-- What an operation leaves that does not come to its end. A file is renamed in one step. -/
inductive Halfway (d : Disk) : FileQuestion → Disk → Prop
  | untouched (q : FileQuestion) : Halfway d q d
  | folders {path : String} {parts : List PathPart} (isPrefix : parts <+: Path.parts path) :
      Halfway d (.makeFolders path) (d.makeEach [] parts).2
  | opened {path : String} {d' : Disk} (opens : d.opened true path = .ok d') :
      Halfway d (.openAppend path) d'
  | emptied {path : String} {d' : Disk} (empties : d.opened false path = .ok d') :
      Halfway d (.truncate path) d'
  | written {path : String} {part bytes : Bytes} {d' : Disk} (isPrefix : part <+: bytes)
      (writes : d.write path part = .ok d') : Halfway d (.write path bytes) d'

/-- What a script may do on a disk: the operations that succeeded, the result unless the program stopped,
and what is left on the disk. -/
inductive Does {α : Type} :
    Script FileQuestion FileAnswer α → Disk → List FileQuestion → Option α → Disk → Prop
  | ended (a : α) (d : Disk) : Does (.done a) d [] (some a) d
  | stopped (s : Script FileQuestion FileAnswer α) (d : Disk) : Does s d [] none d
  | stoppedIn {q : FileQuestion} {next : FileAnswer q → Script FileQuestion FileAnswer α} {d d' : Disk}
      (halfway : Halfway d q d') : Does (.ask q next) d [] none d'
  | failed {q : FileQuestion} {next : FileAnswer q → Script FileQuestion FileAnswer α}
      {d d' d'' : Disk} {finished : List FileQuestion} {result : Option α} (e : OsError)
      (halfway : Halfway d q d') (rest : Does (next (.error e)) d' finished result d'') :
      Does (.ask q next) d finished result d''
  | succeeded {q : FileQuestion} {next : FileAnswer q → Script FileQuestion FileAnswer α}
      {d d' d'' : Disk} {finished : List FileQuestion} {result : Option α} {a : q.Result}
      (answered : d.answer q = (.ok a, d')) (rest : Does (next (.ok a)) d' finished result d'') :
      Does (.ask q next) d (q :: finished) result d''

theorem changed_eq_error {r : Except OsError Disk} {e : OsError} (h : d.changed r = (.error e, d')) :
    d' = d := by
  cases r with
  | ok d => cases h
  | error e => exact (Prod.mk.inj h).2.symm

theorem halfway_makeFolders (d : Disk) (path : String) :
    Halfway d (.makeFolders path) (d.makeFolders path).2 := by
  unfold Disk.makeFolders
  split
  · exact .untouched _
  · split
    · exact .untouched _
    · exact .folders (List.prefix_refl _)

/-- An operation that reports an error has not come to its end. -/
theorem halfway_of_error {q : FileQuestion} {e : OsError} (h : d.answer q = (.error e, d')) :
    Halfway d q d' := by
  cases q with
  | makeFolders path =>
    have hmade := halfway_makeFolders d path
    rwa [show d.makeFolders path = (.error e, d') from h] at hmade
  | read path | size path | sync path =>
    obtain rfl := (Prod.mk.inj h).2
    exact .untouched _
  | openAppend path | truncate path | write path bytes | rename source target =>
    obtain rfl := changed_eq_error h
    exact .untouched _

theorem does_execute {α : Type} (s : Script FileQuestion FileAnswer α) (d : Disk) :
    ∃ finished, Does s d finished (some (d.execute s).1) (d.execute s).2 := by
  induction s generalizing d with
  | done a => exact ⟨[], .ended a d⟩
  | ask q next ih =>
    rcases hanswer : d.answer q with ⟨r, d'⟩
    have hrun : d.execute (.ask q next) = d'.execute (next r) := by
      show ((next (d.answer q).1).run perform).run (d.answer q).2 = _
      rw [hanswer]
      rfl
    obtain ⟨finished, hrest⟩ := ih r d'
    rw [hrun]
    cases r with
    | error e => exact ⟨finished, .failed e (halfway_of_error hanswer) hrest⟩
    | ok a => exact ⟨q :: finished, .succeeded hanswer hrest⟩

end AgentRelay.Disk

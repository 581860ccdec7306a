import AgentRelay.Proofs.Queue.Once
import AgentRelay.Proofs.Queue.Torn
import AgentRelay.Proofs.Queue.Turn
import AgentRelay.Proofs.Storage.Disk

/-!
# What a cycle does, line by line

A cycle of a worker is a loop over a file that asks at every step. What comes of it is said without the
loop: the complete lines of the file are gone through one by one, each is one of four kinds, and the
first failure ends it. The worker, its report, the saved offset and the jobs that were handed over are
kept in one record, which every line changes as a whole.

* `LineKind` is what a line is, `Books` what a cycle changes.
* `Books.take` is one line, `Books.consume` are lines in a row, `Books.cycle` is a cycle over a file.
* `Books.Taken` and `Books.Consumed` say what a line and lines in a row leave behind.
* `Worker.drain_eq_cycle` says that a cycle of the worker is that, for any file, any jobs that fail and
  any offsets that are not saved.
-/

namespace AgentRelay

open Script

/-! ### Surroundings -/

/-- What is kept apart from the worker. -/
structure Ledger where
  /-- The offset that is saved. -/
  cursor : Nat
  /-- How many offsets were to be saved. -/
  saves : Nat := 0
  /-- The jobs that were handed over, in order. -/
  handed : List Job := []

namespace Ledger

/-- An offset is to be saved; `saving` says of each time whether it is. -/
def save (saving : Nat → Except CursorError Unit) (offset : Nat) (l : Ledger) :
    Except CursorError Unit × Ledger :=
  match saving l.saves with
  | .error e => (.error e, { l with saves := l.saves + 1 })
  | .ok () => (.ok (), { l with saves := l.saves + 1, cursor := offset })

/-- A job is handed over. -/
def hand (j : Job) (l : Ledger) : Ledger := { l with handed := l.handed ++ [j] }

/-- Surroundings that keep the ledger. They never stop the worker, and `process` says how jobs end. -/
def surroundings (process : Job → Except Failure Unit) (saving : Nat → Except CursorError Unit) :
    Worker.Surroundings (StateT Ledger (StateM Disk)) where
  cursor :=
    { load := do return .ok (← getThe Ledger).cursor
      save offset := modifyGetThe Ledger (save saving offset) }
  isCancelled := return false
  process j := modifyGetThe Ledger fun l => (process j, l.hand j)
  pause := return true

end Ledger

variable {process : Job → Except Failure Unit} {saving : Nat → Except CursorError Unit}

/-- A part of the work of a worker with the ledger and a disk. -/
def Script.runWith {α : Type} (process : Job → Except Failure Unit)
    (saving : Nat → Except CursorError Unit) (s : WorkerScript α) (l : Ledger) (disk : Disk) :
    (α × Ledger) × Disk :=
  ((s.run (Worker.onDisk (Ledger.surroundings process saving))).run l).run disk

section

variable {α β : Type} {l l' : Ledger} {disk disk' : Disk}

theorem runWith_bind {s : WorkerScript α} {f : α → WorkerScript β} {a : α}
    (h : s.runWith process saving l disk = ((a, l'), disk')) :
    (s.bind f).runWith process saving l disk = (f a).runWith process saving l' disk' := by
  induction s generalizing l disk with
  | done b =>
    cases h
    rfl
  | ask q next ih => exact ih _ h

theorem runWith_isCancelled (next : Bool → WorkerScript α) :
    runWith process saving (.ask .isCancelled next) l disk =
      (next false).runWith process saving l disk := rfl

theorem runWith_save (offset : Nat) (next : Except CursorError Unit → WorkerScript α) :
    runWith process saving (.ask (.saveCursor offset) next) l disk =
      (next (l.save saving offset).1).runWith process saving (l.save saving offset).2 disk := rfl

theorem runWith_process (j : Job) (next : Except Failure Unit → WorkerScript α) :
    runWith process saving (.ask (.process j) next) l disk =
      (next (process j)).runWith process saving (l.hand j) disk := rfl

theorem runWith_size (path : String) (next : Except OsError Nat → WorkerScript α) :
    runWith process saving (.ask (.size path) next) l disk =
      (next (disk.size path)).runWith process saving l disk := rfl

theorem runWith_openQueue (path : String) (next : Except OsError Unit → WorkerScript α) :
    runWith process saving (.ask (.openQueue path) next) l disk =
      (next ((disk.find path).map fun _ => ())).runWith process saving l disk := rfl

theorem runWith_line (path : String) (offset : Nat) (next : Except OsError Bytes → WorkerScript α) :
    runWith process saving (.ask (.line path offset) next) l disk =
      (next ((disk.read path).map fun content => firstLine (content.drop offset))).runWith
        process saving l disk := rfl

end

/-! ### Lines -/

/-- How many lines a report counts. -/
def DrainReport.total (r : DrainReport) : Nat := r.processed + r.duplicates + r.blank

/-- What a line is to a worker that has seen some keys. -/
inductive LineKind
  | blank
  | malformed (error : Job.LineError)
  | duplicate
  | work (job : Job)

/-- A line without anything in it is blank; a job whose key was seen is a duplicate, and a job without a
key never is. -/
def LineKind.of (seen : List String) (line : Bytes) : LineKind :=
  if (Bytes.trimAscii line).isEmpty then .blank
  else match Job.ofLine line with
    | .error e => .malformed e
    | .ok j => if j.key ≠ "" ∧ j.key ∈ seen then .duplicate else .work j

theorem LineKind.ofLine_of_malformed {seen : List String} {line : Bytes} {e : Job.LineError}
    (h : LineKind.of seen line = .malformed e) : Job.ofLine line = .error e := by
  unfold LineKind.of at h
  split at h
  · cases h
  · split at h
    · cases h
      assumption
    · split at h <;> cases h

/-- What a cycle changes. -/
structure Books where
  offset : Nat
  seen : List String
  report : DrainReport := {}
  ledger : Ledger

namespace Books

/-- An offset is to be saved. Only when it is, the worker goes on from there. -/
def save (saving : Nat → Except CursorError Unit) (offset : Nat) (b : Books) :
    Except WorkerError Unit × Books :=
  match b.ledger.save saving offset with
  | (.error e, ledger) => (.error (.checkpoint e), { b with ledger })
  | (.ok (), ledger) => (.ok (), { b with offset, ledger })

/-- One line. -/
def take (process : Job → Except Failure Unit) (saving : Nat → Except CursorError Unit)
    (line : Bytes) (b : Books) : Except WorkerError Unit × Books :=
  let next := b.offset + line.length
  match LineKind.of b.seen line with
  | .blank => { b with report.blank := b.report.blank + 1 }.save saving next
  | .malformed e => (.error (.record b.offset e), b)
  | .duplicate => { b with report.duplicates := b.report.duplicates + 1 }.save saving next
  | .work j =>
    match process j with
    | .error cause => (.error (.processor j.id cause), { b with ledger := b.ledger.hand j })
    | .ok () =>
      { b with
        seen := if j.key = "" then b.seen else j.key :: b.seen
        report.processed := b.report.processed + 1
        ledger := b.ledger.hand j }.save saving next

/-- Lines in a row, up to the first failure. -/
def consume (process : Job → Except Failure Unit) (saving : Nat → Except CursorError Unit) :
    List Bytes → Books → Except WorkerError Unit × Books
  | [], b => (.ok (), b)
  | line :: lines, b =>
    match b.take process saving line with
    | (.error e, b) => (.error e, b)
    | (.ok (), b) => consume process saving lines b

/-- A cycle over a file. When the file is shorter than the offset, it starts over. -/
def cycle (process : Job → Except Failure Unit) (saving : Nat → Except CursorError Unit)
    (content : Bytes) (b : Books) : Except WorkerError Unit × Books :=
  if content.length < b.offset then
    match b.save saving 0 with
    | (.error e, b) => (.error e, b)
    | (.ok (), b) => consume process saving (records content) b
  else consume process saving (records (content.drop b.offset)) b

end Books

/-! ### How many records there are -/

theorem length_records_le (b : Bytes) : (records b).length ≤ b.length := by
  induction b with
  | nil => simp
  | cons x b ih =>
    by_cases hx : x = 10
    · subst hx
      simpa using ih
    · rw [records_cons hx]
      cases hlines : records b with
      | nil => simp
      | cons line lines =>
        rw [hlines] at ih
        simp only [List.length_cons] at ih ⊢
        omega

/-- Without records the first line has no line feed. -/
theorem getLast?_firstLine {b : Bytes} (h : records b = []) : (firstLine b).getLast? ≠ some 10 := by
  intro hlast
  obtain ⟨a, rest, ha, rfl⟩ := exists_isOneLine hlast
  rw [(cut_line ha rest).1] at h
  cases h

/-! ### The worker does what the books say -/

namespace Books

variable {config : WorkerConfig} {b : Books} {content : Bytes} {disk : Disk}

/-- A cycle at the state of the books. -/
def drain (config : WorkerConfig) (b : Books) (outcome : Option (Except WorkerError Unit)) : Drain :=
  { worker := ⟨config, b.offset, b.seen⟩, report := b.report, outcome }

/-- A failure ends a cycle, and nothing else does before the lines are at their end. -/
def failure? : Except WorkerError Unit → Option (Except WorkerError Unit)
  | .ok () => none
  | .error e => some (.error e)

/-- The state of a cycle and the ledger after a part of the work. -/
def after (config : WorkerConfig) (disk : Disk) (r : Except WorkerError Unit × Books) :
    (Drain × Ledger) × Disk :=
  ((r.2.drain config (failure? r.1), r.2.ledger), disk)

theorem runWith_checkpoint (offset : Nat) :
    ((b.drain config none).checkpoint offset .done).runWith process saving b.ledger disk =
      after config disk (b.save saving offset) := by
  rw [Drain.checkpoint, runWith_save, save]
  rcases b.ledger.save saving offset with ⟨_ | _, ledger⟩ <;> rfl

theorem isDuplicate_drain {outcome : Option (Except WorkerError Unit)} (key : String) :
    Drain.isDuplicate (b.drain config outcome).worker key = true ↔ key ≠ "" ∧ key ∈ b.seen := by
  simp [Drain.isDuplicate, drain]

theorem remember_drain {outcome : Option (Except WorkerError Unit)} (key : String) :
    Drain.remember (b.drain config outcome).worker key =
      ⟨config, b.offset, if key = "" then b.seen else key :: b.seen⟩ := by
  unfold Drain.remember
  by_cases hkey : key = "" <;> simp [hkey, drain]

theorem runWith_takeLine (line : Bytes) :
    ((b.drain config none).takeLine line (b.offset + line.length)).runWith process saving b.ledger disk =
      after config disk (b.take process saving line) := by
  by_cases hblank : (Bytes.trimAscii line).isEmpty = true
  · rw [Drain.takeLine, if_pos hblank, take, LineKind.of, if_pos hblank]
    exact runWith_checkpoint (b := { b with report.blank := b.report.blank + 1 }) _
  · rw [Drain.takeLine, if_neg hblank, take, LineKind.of, if_neg hblank]
    cases Job.ofLine line with
    | error e => rfl
    | ok j =>
      dsimp only
      by_cases hkey : j.key ≠ "" ∧ j.key ∈ b.seen
      · rw [if_pos ((isDuplicate_drain j.key).2 hkey), if_pos hkey]
        exact runWith_checkpoint (b := { b with report.duplicates := b.report.duplicates + 1 }) _
      · rw [if_neg fun h => hkey ((isDuplicate_drain j.key).1 h), if_neg hkey, Drain.processJob,
          runWith_process]
        dsimp only
        cases process j with
        | error cause => rfl
        | ok u =>
          simp only [remember_drain]
          exact runWith_checkpoint (b := { b with
            seen := if j.key = "" then b.seen else j.key :: b.seen
            report.processed := b.report.processed + 1
            ledger := b.ledger.hand j }) _

/-- A turn looks at the line from the offset on. -/
theorem runWith_look (hread : disk.read config.queuePath = .ok content) :
    (b.drain config none).turn.runWith process saving b.ledger disk =
      runWith process saving
        (if (firstLine (content.drop b.offset)).getLast? = some 10 then
          (b.drain config none).takeLine (firstLine (content.drop b.offset))
            (b.offset + (firstLine (content.drop b.offset)).length)
        else .done (b.drain config (some (.ok ())))) b.ledger disk := by
  rw [Drain.turn, runWith_isCancelled, if_neg (by simp), runWith_line,
    show (b.drain config none).worker.config.queuePath = config.queuePath from rfl, hread]
  rfl

/-- A turn takes the next record. -/
theorem runWith_turn (hread : disk.read config.queuePath = .ok content) {line : Bytes}
    {lines : List Bytes} (hlines : records (content.drop b.offset) = line :: lines) :
    (b.drain config none).turn.runWith process saving b.ledger disk =
      after config disk (b.take process saving line) := by
  obtain ⟨hfirst, hlast, -⟩ := firstLine_of_records hlines
  rw [runWith_look hread, hfirst, if_pos hlast]
  exact runWith_takeLine line

/-- Without another record a turn ends the cycle. -/
theorem runWith_turn_nil (hread : disk.read config.queuePath = .ok content)
    (hlines : records (content.drop b.offset) = []) :
    (b.drain config none).turn.runWith process saving b.ledger disk =
      ((b.drain config (some (.ok ())), b.ledger), disk) := by
  rw [runWith_look hread, if_neg (getLast?_firstLine hlines)]
  rfl

/-! ### What a line leaves behind -/

/-- An offset that is saved is the worker's and the saved one; otherwise both stay. -/
theorem save_cases (saving : Nat → Except CursorError Unit) (offset : Nat) (b : Books) :
    (∃ ledger, b.save saving offset = (.ok (), { b with offset, ledger }) ∧ ledger.cursor = offset) ∨
    ∃ e ledger, b.save saving offset = (.error (.checkpoint e), { b with ledger }) ∧
      ledger.cursor = b.ledger.cursor := by
  unfold save Ledger.save
  cases saving b.ledger.saves with
  | error e => exact .inr ⟨e, _, rfl, rfl⟩
  | ok u => exact .inl ⟨_, rfl, rfl⟩

/-- What a line leaves behind: it is passed, or the cycle fails in front of it. -/
inductive Taken (line : Bytes) (b : Books) : Except WorkerError Unit × Books → Prop
  /-- The worker and the saved offset are behind the line, which is counted. -/
  | passed {b' : Books} (hoffset : b'.offset = b.offset + line.length)
      (hcursor : b'.ledger.cursor = b'.offset) (htotal : b'.report.total = b.report.total + 1) :
      Taken line b (.ok (), b')
  /-- They are where they were. A failure to read the line tells its offset. -/
  | failed {e : WorkerError} {b' : Books} (hoffset : b'.offset = b.offset)
      (hcursor : b'.ledger.cursor = b.ledger.cursor)
      (hrecord : ∀ o fault, e = .record o fault → o = b.offset ∧ Job.ofLine line = .error fault) :
      Taken line b (.error e, b')

theorem taken_save {b₀ b : Books} {line : Bytes} (hoffset : b.offset = b₀.offset)
    (hcursor : b.ledger.cursor = b₀.ledger.cursor) (htotal : b.report.total = b₀.report.total + 1) :
    Taken line b₀ (b.save saving (b₀.offset + line.length)) := by
  obtain ⟨ledger, hsave, hledger⟩ | ⟨e, ledger, hsave, hledger⟩ :=
    save_cases saving (b₀.offset + line.length) b
  · rw [hsave]
    exact .passed rfl hledger htotal
  · rw [hsave]
    exact .failed hoffset (hledger.trans hcursor) fun o fault h => by cases h

theorem taken_take (process : Job → Except Failure Unit) (saving : Nat → Except CursorError Unit)
    (line : Bytes) (b : Books) : Taken line b (b.take process saving line) := by
  unfold take
  dsimp only
  split
  · exact taken_save rfl rfl (by simp only [DrainReport.total]; omega)
  · rename_i e hkind
    refine .failed rfl rfl ?_
    rintro o fault ⟨⟩
    exact ⟨rfl, LineKind.ofLine_of_malformed hkind⟩
  · exact taken_save rfl rfl (by simp only [DrainReport.total]; omega)
  · split
    · exact .failed rfl rfl fun o fault h => by cases h
    · exact taken_save rfl rfl (by simp only [DrainReport.total]; omega)

/-! ### What lines in a row leave behind -/

/-- What a cycle has done when it has gone through some lines: the lines `passed` are behind it, and the
first of the lines `left`, if any, is where it failed. -/
structure Consumed (lines : List Bytes) (b : Books) (r : Except WorkerError Unit × Books)
    (passed left : List Bytes) : Prop where
  split : lines = passed ++ left
  offset : r.2.offset = b.offset + passed.flatten.length
  total : r.1 = .ok () → r.2.report.total = b.report.total + passed.length
  cursor : b.ledger.cursor = b.offset → r.2.ledger.cursor = r.2.offset
  /-- The cycle ends well just when no line is left. -/
  ends : r.1 = .ok () ↔ left = []
  /-- A line that cannot be read is the first that is left, and the failure tells its offset. -/
  record : ∀ o fault, r.1 = .error (.record o fault) → o = r.2.offset ∧
    ∃ line, left.head? = some line ∧ Job.ofLine line = .error fault

theorem consumed_consume (process : Job → Except Failure Unit)
    (saving : Nat → Except CursorError Unit) (lines : List Bytes) (b : Books) :
    ∃ passed left, Consumed lines b (b.consume process saving lines) passed left := by
  induction lines generalizing b with
  | nil => exact ⟨[], [], rfl, rfl, fun _ => rfl, id, by simp [consume], by simp [consume]⟩
  | cons line lines ih =>
    have htaken := taken_take process saving line b
    cases htake : b.take process saving line with
    | mk r b' =>
      rw [htake] at htaken
      cases htaken with
      | passed hoffset hcursor htotal =>
        obtain ⟨passed, left, h⟩ := ih b'
        have hconsume : b.consume process saving (line :: lines) = b'.consume process saving lines := by
          rw [consume, htake]
        rw [hconsume]
        refine ⟨line :: passed, left, by rw [h.split, List.cons_append], ?_, ?_, ?_, h.ends, h.record⟩
        · rw [h.offset, hoffset, List.flatten_cons, List.length_append, Nat.add_assoc]
        · intro hok
          rw [h.total hok, htotal, List.length_cons]
          omega
        · exact fun _ => h.cursor hcursor
      | @failed e _ hoffset hcursor hrecord =>
        have hconsume : b.consume process saving (line :: lines) = (.error e, b') := by
          rw [consume, htake]
        rw [hconsume]
        refine ⟨[], line :: lines, rfl, by simpa using hoffset, fun h => (nomatch h), ?_, by simp, ?_⟩
        · exact fun h => hcursor.trans (h.trans hoffset.symm)
        · intro o fault h
          obtain ⟨ho, hline⟩ := hrecord o fault (Except.error.inj h)
          exact ⟨ho.trans hoffset.symm, line, rfl, hline⟩

/-! ### Turns in a row -/

theorem take_offset {line : Bytes} {b b' : Books} (h : b.take process saving line = (.ok (), b')) :
    b'.offset = b.offset + line.length := by
  have htaken := taken_take process saving line b
  rw [h] at htaken
  cases htaken with
  | passed hoffset => exact hoffset

/-- The turns of a cycle go through the records from the offset on. -/
theorem runWith_turns (hread : disk.read config.queuePath = .ok content) {n : Nat}
    {lines : List Bytes} (hlines : records (content.drop b.offset) = lines) (hn : lines.length < n) :
    (Drain.turns n (b.drain config none)).runWith process saving b.ledger disk =
      (((b.consume process saving lines).2.drain config (some (b.consume process saving lines).1),
        (b.consume process saving lines).2.ledger), disk) := by
  induction lines generalizing n b with
  | nil =>
    obtain ⟨n, rfl⟩ : ∃ k, n = k + 1 := ⟨n - 1, by simp at hn; omega⟩
    rw [Drain.turns_succ rfl, runWith_bind (runWith_turn_nil hread hlines),
      Drain.turns_of_outcome (by simp [drain])]
    rfl
  | cons line lines ih =>
    obtain ⟨n, rfl⟩ : ∃ k, n = k + 1 := ⟨n - 1, by omega⟩
    rw [Drain.turns_succ rfl, runWith_bind (runWith_turn hread hlines)]
    rcases htake : b.take process saving line with ⟨e | u, b'⟩
    · rw [Drain.turns_of_outcome (by simp [drain, failure?]), consume, htake]
      rfl
    · have hrest : records (content.drop b'.offset) = lines := by
        rw [take_offset htake, ← List.drop_drop]
        exact (firstLine_of_records hlines).2.2
      rw [consume, htake]
      exact ih hrest (by simpa using hn)

theorem runWith_openFile (hread : disk.read config.queuePath = .ok content) :
    (b.drain config none).openFile.runWith process saving b.ledger disk =
      ((b.drain config none, b.ledger), disk) := by
  obtain ⟨place, hfind⟩ := Disk.find_of_read hread
  rw [Drain.openFile, runWith_openQueue,
    show (b.drain config none).worker.config.queuePath = config.queuePath from rfl, hfind]
  rfl

/-- A cycle begins where the worker stands, or at the start of a file that is shorter. -/
theorem runWith_begin (hread : disk.read config.queuePath = .ok content) (hreport : b.report = {}) :
    (Drain.begin ⟨config, b.offset, b.seen⟩).runWith process saving b.ledger disk =
      after config disk (if content.length < b.offset then b.save saving 0 else (.ok (), b)) := by
  have hstart : ({ worker := ⟨config, b.offset, b.seen⟩ } : Drain) = b.drain config none := by
    rw [drain, hreport]
  rw [Drain.begin, runWith_isCancelled, if_neg (by simp), runWith_size, Disk.size_of_read hread, hstart]
  dsimp only
  split
  · rw [Drain.checkpoint, runWith_save, save]
    rcases b.ledger.save saving 0 with ⟨e | u, ledger⟩
    · rfl
    · exact runWith_openFile (b := { b with offset := 0, ledger }) hread
  · exact runWith_openFile hread

/-- A cycle of the worker goes through the records from its offset on, or from the start of the file. -/
theorem runWith_drain (hread : disk.read config.queuePath = .ok content) {n : Nat}
    (hn : content.length < n) (hreport : b.report = {}) :
    (Worker.drain n ⟨config, b.offset, b.seen⟩).runWith process saving b.ledger disk =
      (((b.cycle process saving content).2.drain config (some (b.cycle process saving content).1),
        (b.cycle process saving content).2.ledger), disk) := by
  have hcount : ∀ c : Bytes, c.length ≤ content.length → (records c).length < n := fun c hc => by
    have := length_records_le c
    omega
  rw [Worker.drain, runWith_bind (runWith_begin hread hreport), cycle]
  by_cases hshort : content.length < b.offset
  · rw [if_pos hshort, if_pos hshort]
    obtain ⟨ledger, hsave, -⟩ | ⟨e, ledger, hsave, -⟩ := save_cases saving 0 b
    · rw [hsave]
      exact runWith_turns hread rfl (hcount _ (Nat.le_refl _))
    · rw [hsave, Drain.turns_of_outcome (by simp [drain, failure?])]
      rfl
  · rw [if_neg hshort, if_neg hshort]
    exact runWith_turns hread rfl (hcount _ (by simp))

end Books

/-! ### A cycle as a whole -/

/-- The records behind some of the records of a file. -/
theorem records_drop_flatten {b : Bytes} {passed left : List Bytes} (h : records b = passed ++ left) :
    records (b.drop passed.flatten.length) = left := by
  induction passed generalizing b with
  | nil => simpa using h
  | cons line passed ih =>
    rw [List.flatten_cons, List.length_append, ← List.drop_drop]
    exact ih (firstLine_of_records h).2.2

/-- What is torn at the end of a file does not depend on what stands in front of a record. -/
theorem torn_append_of_records {b : Bytes} (h : records b ≠ []) (a : Bytes) :
    torn (a ++ b) = torn b := by
  obtain ⟨line, lines, hlines⟩ := List.exists_cons_of_ne_nil h
  obtain ⟨hfirst, hlast, -⟩ := firstLine_of_records hlines
  obtain ⟨l, rest, hl, rfl⟩ := exists_isOneLine (hfirst ▸ hlast)
  rw [(cut_line hl rest).2, ← List.append_assoc, torn_append, (cut_line (isOneLine_torn _) rest).2]

/-- Records from an offset on end in front of what is torn. -/
theorem length_passed_le {content : Bytes} {start : Nat} {passed left : List Bytes}
    (hstart : start ≤ content.length) (h : records (content.drop start) = passed ++ left)
    (hpassed : passed ≠ []) : start + passed.flatten.length + (torn content).length ≤ content.length := by
  have hne : records (content.drop start) ≠ [] := by simp [h, hpassed]
  have htorn : torn content = torn (content.drop start) := by
    conv_lhs => rw [← List.take_append_drop start content, torn_append_of_records hne]
  have hlength := congrArg List.length (flatten_records (content.drop start))
  rw [h, List.flatten_append, List.length_append, List.length_append, List.length_drop] at hlength
  rw [htorn]
  omega

/-- Where a cycle over a content starts: from the front when the content is shorter than the offset. -/
def Books.start (b : Books) (content : Bytes) : Nat := if content.length < b.offset then 0 else b.offset

/-- A cycle fails to start over, or it goes through the records from where it starts. -/
theorem Books.cycle_cases (process : Job → Except Failure Unit)
    (saving : Nat → Except CursorError Unit) (content : Bytes) (b : Books) :
    (∃ e ledger, b.cycle process saving content = (.error (.checkpoint e), { b with ledger }) ∧
      ledger.cursor = b.ledger.cursor) ∨
    ∃ b₁ passed left, b₁.offset = b.start content ∧
      b₁.report = b.report ∧
      (b.ledger.cursor = b.offset → b₁.ledger.cursor = b₁.offset) ∧
      Consumed (records (content.drop b₁.offset)) b₁ (b.cycle process saving content) passed left := by
  unfold cycle start
  split
  · obtain ⟨ledger, hsave, hledger⟩ | ⟨e, ledger, hsave, hledger⟩ := save_cases saving 0 b
    · obtain ⟨passed, left, h⟩ :=
        consumed_consume process saving (records content) { b with offset := 0, ledger }
      rw [hsave]
      exact .inr ⟨{ b with offset := 0, ledger }, passed, left, rfl, rfl, fun _ => hledger, h⟩
    · rw [hsave]
      exact .inl ⟨e, ledger, rfl, hledger⟩
  · obtain ⟨passed, left, h⟩ := consumed_consume process saving (records (content.drop b.offset)) b
    exact .inr ⟨b, passed, left, rfl, rfl, id, h⟩

/-- What the result of a cycle says of the content that it went through. -/
structure Books.Tells (b : Books) (content : Bytes) (r : Except WorkerError Unit × Books) : Prop where
  /-- A cycle that ends well has counted all records. -/
  counted : r.1 = .ok () → r.2.report.processed + r.2.report.duplicates + r.2.report.blank =
    (records (content.drop (b.start content))).length
  /-- It stands behind them. -/
  stands : r.1 = .ok () →
    r.2.offset = b.start content + (records (content.drop (b.start content))).flatten.length
  /-- It never goes into what is torn at the end. -/
  spares_torn : r.2.offset = b.offset ∨ r.2.offset + (torn content).length ≤ content.length
  /-- A record that cannot be read stands at the offset that the failure tells. -/
  record : ∀ o fault, r.1 = .error (.record o fault) →
    o = r.2.offset ∧ Job.ofLine (firstLine (content.drop o)) = .error fault
  /-- The saved offset agrees with that of the worker when it did before. -/
  agrees : b.ledger.cursor = b.offset → r.2.ledger.cursor = r.2.offset

/-- A cycle that begins with nothing reported tells all of this. -/
theorem Books.tells_cycle (process : Job → Except Failure Unit) (saving : Nat → Except CursorError Unit)
    (content : Bytes) {b : Books} (hnew : b.report = {}) : b.Tells content (b.cycle process saving content) := by
  obtain ⟨e, ledger, hfails, hledger⟩ | ⟨b₁, passed, left, hstart, hreport, hagree, h⟩ :=
    Books.cycle_cases process saving content b
  -- the offset could not be set back: nothing was read
  · rw [hfails]
    exact ⟨fun h => (nomatch h), fun h => (nomatch h), .inl rfl, fun o fault h => (nomatch h),
      fun h => hledger.trans h⟩
  generalize b.cycle process saving content = r at h
  rw [hstart] at h
  have hsplit : records (content.drop (b.start content)) = passed ++ left := h.split
  have hoffset : r.2.offset = b.start content + passed.flatten.length := h.offset.trans (by rw [hstart])
  have hleft (hok : r.1 = .ok ()) : records (content.drop (b.start content)) = passed := by
    rw [hsplit, h.ends.1 hok, List.append_nil]
  refine ⟨fun hok => ?_, fun hok => ?_, ?_, fun o fault hrecord => ?_, fun hcursor => h.cursor (hagree hcursor)⟩
  · have htotal := h.total hok
    rw [hreport, hnew] at htotal
    rw [hleft hok]
    exact htotal.trans (Nat.zero_add _)
  · rw [hleft hok, hoffset]
  · by_cases hpassed : passed = []
    · rw [hoffset, hpassed]
      by_cases hshort : content.length < b.offset
      · have htorn := congrArg List.length (flatten_records content)
        rw [List.length_append] at htorn
        rw [show b.start content = 0 from if_pos hshort]
        exact .inr (by simp; omega)
      · exact .inl (if_neg hshort)
    · right
      rw [hoffset]
      exact length_passed_le (by unfold start; split <;> omega) hsplit hpassed
  · obtain ⟨ho, line, hline, hfault⟩ := h.record o fault hrecord
    have hrest := records_drop_flatten hsplit
    rw [List.drop_drop, ← hoffset, ← ho] at hrest
    obtain ⟨lines, rfl⟩ : ∃ lines, left = line :: lines := by
      cases left with
      | nil => cases hline
      | cons x lines => exact ⟨lines, by rw [Option.some.inj hline]⟩
    exact ⟨ho, by rw [(firstLine_of_records hrest).1, hfault]⟩

namespace Worker

/-- **A cycle is what its reference says.** The file holds any bytes, the worker stands at any offset
and has seen any keys, jobs succeed or fail as `process` says and offsets are saved as `saving` says; the
worker is not stopped. Then the cycle, what it reports and how it ends, the saved offset and the jobs
that are handed over are those of `Books.cycle`. When it ends well it has counted all records and stands
behind them. It never goes into what is torn at the end of the file. A record that cannot be read stands
at the offset that the failure tells. And when the worker and the saved offset agreed before, they agree
afterwards, however the cycle ends. -/
theorem drain_eq_cycle (process : Job → Except Failure Unit)
    (saving : Nat → Except CursorError Unit) {w : Worker} {disk : Disk} {content : Bytes} {n : Nat}
    (hread : disk.read w.config.queuePath = .ok content) (hn : content.length < n) (l : Ledger) :
    let b : Books := { offset := w.offset, seen := w.seen, ledger := l }
    let r := b.cycle process saving content
    (w.drain n).runWith process saving l disk = ((r.2.drain w.config (some r.1), r.2.ledger), disk) ∧
      b.Tells content r := by
  intro b r
  exact ⟨Books.runWith_drain (b := b) hread hn rfl, b.tells_cycle process saving content rfl⟩

/-- Every offset is saved but the third. -/
def thirdUnsaved (i : Nat) : Except CursorError Unit :=
  if i = 2 then .error (.storage "q.offset" .notFound) else .ok ()

/-- A worker with an offset from a larger file starts over, passes over an empty line and has a job
processed. The offset behind the job is not saved, so the worker stays in front of it, but it has seen
its key. What follows is torn. -/
theorem drain_eq_cycle_unsaved :
    ∃ (j : Job) (disk : Disk) (content : Bytes) (d : Drain) (l : Ledger),
      disk.read "q" = .ok content ∧ content.length < 5000 ∧
      (drain (content.length + 1) ⟨{ queuePath := "q" }, 5000, []⟩).runWith (fun _ => .ok ()) thirdUnsaved
        { cursor := 5000 } disk = ((d, l), disk) ∧
      d.outcome = some (.error (.checkpoint (.storage "q.offset" .notFound))) ∧
      d.worker.offset = 1 ∧ d.worker.seen = [j.key] ∧ l.cursor = 1 ∧ l.handed = [j] := by
  let j := jobOfKey "a"
  let content : Bytes := 10 :: (j.line ++ [120])
  have hj : Job.ofLine j.line = .ok j := ofLine_jobOfKey (by decide)
  have hkey : j.key ≠ "" := by decide +kernel
  have hread : (⟨[("/q", .file content)]⟩ : Disk).read "q" = .ok content := rfl
  have hshort : content.length < 5000 := by decide +kernel
  have hrecords : records content = [[10], j.line] := by
    have hline := (cut_line (isOneLine_jobOfKey "a") [120]).1
    have htorn : records [120] = [] := rfl
    simpa [content, j, Job.line, htorn] using hline
  have hcycle := (drain_eq_cycle (fun _ => .ok ()) thirdUnsaved (w := ⟨{ queuePath := "q" }, 5000, []⟩)
    hread (Nat.lt_succ_self _) { cursor := 5000 }).1
  have hblank : (Bytes.trimAscii [10]).isEmpty = true := by decide
  have hresult : (Books.mk 5000 [] {} { cursor := 5000 }).cycle (fun _ => .ok ()) thirdUnsaved content =
      (.error (.checkpoint (.storage "q.offset" .notFound)),
        ⟨1, [j.key], ⟨1, 0, 1⟩, ⟨1, 3, [j]⟩⟩) := by
    simp [Books.cycle, hshort, Books.save, Ledger.save, thirdUnsaved, hrecords, Books.consume, Books.take,
      LineKind.of, hblank, hj, hkey, Ledger.hand]
  rw [hresult] at hcycle
  exact ⟨j, _, content, _, _, hread, hshort, hcycle, rfl, rfl, rfl, rfl, rfl⟩

end Worker
end AgentRelay

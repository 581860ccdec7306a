import AgentRelay.Proofs.Queue.Append
import Mathlib.Data.List.Basic
import Mathlib.Logic.Function.Basic
import Mathlib.Logic.Relation

/-!
# Writers at the same time

Calls that append to one queue file run at the same time, and the system may carry out each write in
several parts. The file grows by whole lines all the same, in the order in which the calls get their turn.

* `Writers.Step` are the moves of all calls. An operation may fail in any way and leave anything behind.
* `Writers.Phase` is how far a call has come, `Phase.Goes` how the call whose turn it is comes further.
* `Writers.IsOrderly` is what is right at any time: the call that got the last turn says what the file
  holds. `Shift.isOrderly` says that every move keeps it so, unless an operation fails.
* `Writers.finish_in_turn` is the result.
-/

namespace AgentRelay.Queue

/-- A call that keeps a job. -/
structure Call where
  job : Job
  /-- The caller has given up by the time that the call looks, which it does once. -/
  isCancelled : Bool := false

/-- Calls under way on one queue file. -/
structure Writers (ι : Type) where
  disk : Disk
  /-- What each call has still to do. -/
  left : ι → Writer
  /-- Whose turn it is. -/
  turn : Option ι := none
  /-- The calls that got a turn, in that order. -/
  order : List ι := []

namespace Writers

variable {ι : Type}

/-- Calls that have done nothing yet. -/
def ofCalls (path : String) (calls : ι → Call) (d : Disk) : Writers ι :=
  { disk := d, left := fun i => append path (calls i).job }

/-- A call comes to the rest of its work. -/
def goOn [DecidableEq ι] (w : Writers ι) (i : ι) (rest : Writer) : Writers ι :=
  { w with left := Function.update w.left i rest }

/-- The moves. Only one call has the turn at a time, and it has it until it is done. -/
inductive Step [DecidableEq ι] (calls : ι → Call) (w : Writers ι) : Writers ι → Prop
  | looks {i : ι} {next : Bool → Writer} (asks : w.left i = .ask .isCancelled next) :
      Step calls w (w.goOn i (next (calls i).isCancelled))
  | enters {i : ι} {next : Unit → Writer} (asks : w.left i = .ask .turn next) (isFree : w.turn = none) :
      Step calls w { w.goOn i (next ()) with turn := some i, order := w.order ++ [i] }
  | performs {i : ι} {q : FileQuestion} {next : FileAnswer q → Writer}
      (asks : w.left i = .ask (.file q) next) :
      Step calls w { w.goOn i (next (w.disk.answer q).1) with disk := (w.disk.answer q).2 }
  /-- The system takes a part of what is to be written; the rest is still to be written. -/
  | writesPart {i : ι} {path : String} {part rest : Bytes}
      {next : FileAnswer (.write path rest) → Writer} {d : Disk}
      (asks : w.left i = .ask (.file (.write path (part ++ rest))) next)
      (writes : w.disk.write path part = .ok d) :
      Step calls w { w.goOn i (.ask (.file (.write path rest)) next) with disk := d }
  /-- An operation fails and may leave anything behind. -/
  | fails {i : ι} {q : FileQuestion} {next : FileAnswer q → Writer}
      (asks : w.left i = .ask (.file q) next) (e : OsError) (d : Disk) :
      Step calls w { w.goOn i (next (.error e)) with disk := d }
  | leaves {i : ι} {r : Except SinkError Unit} (has : w.turn = some i) (isDone : w.left i = .done r) :
      Step calls w { w with turn := none }

/-- Any number of moves in a row. -/
abbrev Run [DecidableEq ι] (calls : ι → Call) : Writers ι → Writers ι → Prop :=
  Relation.ReflTransGen (Step calls)

/-! ### How far a call has come -/

/-- How far a call has come. -/
inductive Phase
  | new
  | refused
  | waiting
  /-- It makes the folder of the file. -/
  | making (folder : String)
  | opening
  /-- It has written so many bytes of its line. -/
  | writing (count : Nat)
  | syncing
  | kept

namespace Phase

/-- The call has the turn and uses it. -/
def isInside : Phase → Bool
  | making _ | opening | writing _ | syncing => true
  | _ => false

/-- The call has had a turn, or has it. -/
def hasEntered : Phase → Bool
  | kept => true
  | p => p.isInside

/-- How far a call has come that just got its turn. -/
def entered (path : String) : Phase :=
  match Path.parent? path with
  | none => opening
  | some folder => if folder.isEmpty then opening else making folder

/-- What is left to do when the line is written. -/
def atSync (path : String) : Writer := fileStep onFile (.sync path) .storage fun _ => .done (.ok ())

/-- What is left to do when the file is open. -/
def atWrite (path : String) (bytes : Bytes) : Writer :=
  fileStep onFile (.write path bytes) .storage fun _ => atSync path

/-- What is left to do when the folder is there. -/
def atOpen (path : String) (line : Bytes) : Writer :=
  fileStep onFile (.openAppend path) .storage fun _ => atWrite path line

/-- What a call has still to do. -/
def script (path : String) (j : Job) : Phase → Writer
  | new => append path j
  | refused => .done (.error .cancelled)
  | waiting => .ask .turn fun _ => appendLine path j.line
  | making folder => fileStep onFile (.makeFolders folder) .storage fun _ => atOpen path j.line
  | opening => atOpen path j.line
  | writing n => atWrite path (j.line.drop n)
  | syncing => atSync path
  | kept => .done (.ok ())

/-- What of its line a call has written. -/
def written (line : Bytes) : Phase → Bytes
  | writing n => line.take n
  | syncing | kept => line
  | _ => []

/-- The file holds a text, as far as the call that got the last turn has come. -/
def Holds (path : String) (text : Bytes) (d : Disk) : Phase → Prop
  | making folder => (d.makeFolders folder).2.content path = text
  | opening => d.content path = text
  | _ => d.read path = .ok text

/-- The call whose turn it is comes further. -/
inductive Goes (path : String) (line : Bytes) (d : Disk) : Phase → Phase → Disk → Prop
  | makes {folder : String} {d' : Disk} (made : d.makeFolders folder = (.ok (), d')) :
      Goes path line d (making folder) opening d'
  | opens {d' : Disk} (isOpen : d.opened true path = .ok d') :
      Goes path line d opening (writing 0) d'
  | writes {n : Nat} {part rest : Bytes} {d' : Disk} (isPart : line.drop n = part ++ rest)
      (writes : d.write path part = .ok d') :
      Goes path line d (writing n) (writing (n + part.length)) d'
  | ends {n : Nat} {d' : Disk} (writes : d.write path (line.drop n) = .ok d') :
      Goes path line d (writing n) syncing d'
  | syncs : Goes path line d syncing kept d

variable {path : String} {j : Job} {line text : Bytes} {d d' : Disk} {p p' : Phase}

theorem entered_cases (path : String) :
    (entered path = opening ∧ (∀ next, makeParent onFile path .storage next = (next : Writer)) ∧
      ∀ d, Disk.withParent d path = d) ∨
    ∃ folder, entered path = making folder ∧
      (∀ next, makeParent onFile path .storage next =
        (fileStep onFile (.makeFolders folder) .storage fun _ => next : Writer)) ∧
      ∀ d, Disk.withParent d path = (d.makeFolders folder).2 := by
  unfold entered makeParent Disk.withParent
  cases Path.parent? path with
  | none => exact .inl ⟨rfl, fun _ => rfl, fun _ => rfl⟩
  | some folder =>
    by_cases hempty : folder.isEmpty
    · exact .inl (by simp [hempty])
    · simp only [if_neg hempty]
      exact .inr ⟨folder, rfl, fun _ => rfl, fun _ => rfl⟩

theorem isInside_entered (path : String) : (entered path).isInside = true := by
  rcases entered_cases path with ⟨h, -⟩ | ⟨folder, h, -⟩ <;> rw [h] <;> rfl

theorem written_entered (path : String) (line : Bytes) : (entered path).written line = [] := by
  rcases entered_cases path with ⟨h, -⟩ | ⟨folder, h, -⟩ <;> rw [h] <;> rfl

theorem script_entered (path : String) (j : Job) :
    (entered path).script path j = appendLine path j.line := by
  rcases entered_cases path with ⟨h, hnext, -⟩ | ⟨folder, h, hnext, -⟩
  · rw [h]
    exact (hnext (atOpen path j.line)).symm
  · rw [h]
    exact (hnext (atOpen path j.line)).symm

theorem holds_entered (h : (d.withParent path).content path = text) :
    (entered path).Holds path text d := by
  rcases entered_cases path with ⟨hentered, -, hparent⟩ | ⟨folder, hentered, -, hparent⟩
  · rwa [hentered, Holds, ← hparent d]
  · rwa [hentered, Holds, ← hparent d]

theorem hasEntered_of_isInside (h : p.isInside = true) : p.hasEntered = true := by
  cases p with
  | making | opening | writing | syncing => rfl
  | new | refused | waiting | kept => cases h

theorem eq_kept (hentered : p.hasEntered = true) (houtside : p.isInside = false) : p = kept := by
  cases p with
  | kept => rfl
  | new | refused | waiting => cases hentered
  | making | opening | writing | syncing => cases houtside

theorem Goes.isInside (h : Goes path line d p p' d') : p.isInside = true := by cases h <;> rfl

theorem Goes.hasEntered (h : Goes path line d p p' d') : p'.hasEntered = true := by cases h <;> rfl

/-- What a call writes stands at the end of the file. -/
theorem Goes.holds (h : Goes path line d p p' d') (hp : p.Holds path (text ++ p.written line) d) :
    p'.Holds path (text ++ p'.written line) d' := by
  cases h with
  | makes made =>
    show d'.content path = text ++ []
    rwa [Holds, made] at hp
  | opens isOpen =>
    show d'.read path = .ok (text ++ [])
    rw [Disk.read_opened isOpen, show d.content path = text ++ [] from hp]
  | @writes n part rest _ isPart writes =>
    show d'.read path = .ok (text ++ line.take (n + part.length))
    rw [Disk.read_write writes hp, List.take_add, isPart, List.take_left, List.append_assoc]
    rfl
  | @ends n _ writes =>
    show d'.read path = .ok (text ++ line)
    rw [Disk.read_write writes hp, List.append_assoc]
    show Except.ok (text ++ (line.take n ++ line.drop n)) = _
    rw [List.take_append_drop]
  | syncs => exact hp

/-! The script of a phase asks one question, and its answer says which phase comes next. -/

theorem eq_new_of_script {next : Bool → Writer} (h : p.script path j = .ask .isCancelled next) :
    p = new ∧ ∀ b, next b = (if b then refused else waiting : Phase).script path j := by
  cases p with
  | new =>
    cases h
    refine ⟨rfl, fun b => ?_⟩
    cases b <;> rfl
  | waiting | refused | making | opening | writing | syncing | kept => cases h

theorem eq_waiting_of_script {next : Unit → Writer} (h : p.script path j = .ask .turn next) :
    p = waiting ∧ next () = (entered path).script path j := by
  cases p with
  | waiting =>
    cases h
    exact ⟨rfl, (script_entered path j).symm⟩
  | new | refused | making | opening | writing | syncing | kept => cases h

theorem ended_of_script {r : Except SinkError Unit} (h : p.script path j = .done r) :
    p = refused ∧ r = .error .cancelled ∨ p = kept ∧ r = .ok () := by
  cases p with
  | refused =>
    cases h
    exact .inl ⟨rfl, rfl⟩
  | kept =>
    cases h
    exact .inr ⟨rfl, rfl⟩
  | new | waiting | making | opening | writing | syncing => cases h

/-- A call that is told of an error ends with it. -/
theorem next_error {q : FileQuestion} {next : FileAnswer q → Writer}
    (h : p.script path j = .ask (.file q) next) (e : OsError) :
    next (.error e) = .done (.error (.storage e)) := by
  cases p with
  | making | opening | writing | syncing =>
    cases h
    rfl
  | new | refused | waiting | kept => cases h

/-- A call that is not told of an error comes further. -/
theorem goes_of_answer {q : FileQuestion} {next : FileAnswer q → Writer}
    (h : p.script path j = .ask (.file q) next) {a : q.Result} (hanswer : d.answer q = (.ok a, d')) :
    ∃ p', p.Goes path j.line d p' d' ∧ next (.ok a) = p'.script path j := by
  cases p with
  | making folder =>
    cases h
    exact ⟨opening, .makes hanswer, rfl⟩
  | opening =>
    cases h
    exact ⟨writing 0, .opens (Disk.changed_eq_ok hanswer), rfl⟩
  | writing n =>
    cases h
    exact ⟨syncing, .ends (Disk.changed_eq_ok hanswer), rfl⟩
  | syncing =>
    cases h
    obtain rfl : d = d' := (Prod.mk.inj hanswer).2
    exact ⟨kept, .syncs, rfl⟩
  | new | refused | waiting | kept => cases h

/-- A call that writes a part of what it has to write comes further. -/
theorem goes_of_part {path' : String} {part rest : Bytes}
    {next : FileAnswer (.write path' rest) → Writer}
    (h : p.script path j = .ask (.file (.write path' (part ++ rest))) next)
    (hwrite : d.write path' part = .ok d') :
    ∃ p', p.Goes path j.line d p' d' ∧ .ask (.file (.write path' rest)) next = p'.script path j := by
  cases p with
  | writing n =>
    -- the bytes that are left are the part and the rest
    change atWrite path (j.line.drop n) = _ at h
    generalize hpart : j.line.drop n = bytes at h
    cases h
    have hrest : j.line.drop (n + part.length) = rest := by
      rw [← List.drop_drop, hpart, List.drop_left]
    refine ⟨writing (n + part.length), .writes hpart hwrite, ?_⟩
    rw [script, hrest]
    refine congrArg (Script.ask _) (funext fun r => ?_)
    cases r <;> rfl
  | new | refused | waiting | making | opening | syncing | kept => cases h

end Phase

/-! ### What is right at any time -/

variable {path : String} {calls : ι → Call} {d : Disk} {phase : ι → Phase} {w w' : Writers ι}

/-- What the calls have written, in the order of their turns. -/
def lines (calls : ι → Call) (phase : ι → Phase) (order : List ι) : Bytes :=
  order.flatMap fun i => (phase i).written (calls i).job.line

/-- What is right while no operation has failed. -/
structure IsOrderly (path : String) (calls : ι → Call) (d : Disk) (phase : ι → Phase)
    (w : Writers ι) : Prop where
  left (i : ι) : w.left i = (phase i).script path (calls i).job
  looked (i : ι) : phase i ≠ .new → ((calls i).isCancelled = true ↔ phase i = .refused)
  /-- The call that uses the turn got the last one. -/
  alone (i : ι) : (phase i).isInside = true → w.turn = some i ∧ w.order.getLast? = some i
  entered (i : ι) : i ∈ w.order ↔ (phase i).hasEntered = true
  nodup : w.order.Nodup
  untouched : w.order = [] → w.disk = d
  file (i : ι) : w.order.getLast? = some i →
    (phase i).Holds path ((d.withParent path).content path ++ lines calls phase w.order) w.disk

/-- A call has ended because an operation failed. -/
def HasFailed (w : Writers ι) : Prop := ∃ i e, w.left i = .done (.error (.storage e))

theorem isOrderly_ofCalls (path : String) (calls : ι → Call) (d : Disk) :
    IsOrderly path calls d (fun _ => .new) (ofCalls path calls d) where
  left i := rfl
  looked i h := absurd rfl h
  alone i h := nomatch h
  entered i := by
    show i ∈ [] ↔ false = true
    simp
  nodup := List.nodup_nil
  untouched _ := rfl
  file i h := nomatch h

theorem lines_concat (order : List ι) (i : ι) :
    lines calls phase (order ++ [i]) =
      lines calls phase order ++ (phase i).written (calls i).job.line := by
  simp [lines]

/-- While the turn is free, the file ends with a line. -/
theorem IsOrderly.content_of_isFree (h : IsOrderly path calls d phase w) (isFree : w.turn = none) :
    (w.disk.withParent path).content path =
      (d.withParent path).content path ++ lines calls phase w.order := by
  cases hlast : w.order.getLast? with
  | none =>
    have hnil : w.order = [] := List.getLast?_eq_none_iff.1 hlast
    rw [h.untouched hnil, hnil]
    exact (List.append_nil _).symm
  | some k =>
    -- the last call that got a turn is done
    have houtside : (phase k).isInside = false := by
      by_contra hinside
      have hturn := (h.alone k (by simpa using hinside)).1
      rw [isFree] at hturn
      cases hturn
    have hkept := Phase.eq_kept ((h.entered k).1 (List.mem_of_getLast? hlast)) houtside
    have hread := h.file k hlast
    rw [hkept] at hread
    exact Disk.content_withParent hread

/-- A call that has ended gives the turn back. -/
theorem IsOrderly.leaves (h : IsOrderly path calls d phase w) {i : ι} (has : w.turn = some i)
    (isOutside : (phase i).isInside = false) :
    IsOrderly path calls d phase { w with turn := none } := by
  refine ⟨h.left, h.looked, fun k hk => ?_, h.entered, h.nodup, h.untouched, h.file⟩
  -- the call that uses the turn is the one that leaves
  obtain rfl : i = k := Option.some.inj (has.symm.trans (h.alone k hk).1)
  rw [isOutside] at hk
  cases hk

variable [DecidableEq ι]

theorem lines_update {order : List ι} {i : ι} (h : i ∉ order) (p : Phase) :
    lines calls (Function.update phase i p) order = lines calls phase order := by
  refine List.flatMap_congr fun k hk => ?_
  have hne : k ≠ i := by
    rintro rfl
    exact h hk
  rw [Function.update_of_ne hne]

/-! ### Moves -/

/-- What the moves do to calls that have come so far, as long as no operation fails. -/
inductive Shift (path : String) (calls : ι → Call) (phase : ι → Phase) (w : Writers ι) :
    (ι → Phase) → Writers ι → Prop
  | looks {i : ι} {p : Phase} (isNew : phase i = .new)
      (answered : p = if (calls i).isCancelled then .refused else .waiting) :
      Shift path calls phase w (Function.update phase i p) (w.goOn i (p.script path (calls i).job))
  | enters {i : ι} (waits : phase i = .waiting) (isFree : w.turn = none) :
      Shift path calls phase w (Function.update phase i (.entered path))
        { w.goOn i ((Phase.entered path).script path (calls i).job) with
          turn := some i, order := w.order ++ [i] }
  | goes {i : ι} {p : Phase} {d : Disk} (goes : (phase i).Goes path (calls i).job.line w.disk p d) :
      Shift path calls phase w (Function.update phase i p)
        { w.goOn i (p.script path (calls i).job) with disk := d }
  | leaves {i : ι} (has : w.turn = some i) (isOutside : (phase i).isInside = false) :
      Shift path calls phase w phase { w with turn := none }

theorem Step.shift (hleft : ∀ i, w.left i = (phase i).script path (calls i).job)
    (step : Step calls w w') : w'.HasFailed ∨ ∃ phase', Shift path calls phase w phase' w' := by
  cases step with
  | @looks i next asks =>
    obtain ⟨hnew, hnext⟩ := Phase.eq_new_of_script ((hleft i).symm.trans asks)
    rw [hnext]
    exact .inr ⟨_, .looks hnew rfl⟩
  | @enters i next asks isFree =>
    obtain ⟨hwaits, hnext⟩ := Phase.eq_waiting_of_script ((hleft i).symm.trans asks)
    rw [hnext]
    exact .inr ⟨_, .enters hwaits isFree⟩
  | @performs i q next asks =>
    rw [hleft i] at asks
    rcases hanswer : w.disk.answer q with ⟨r, d⟩
    cases r with
    | error e => exact .inl ⟨i, e, by simp [goOn, Phase.next_error asks]⟩
    | ok a =>
      obtain ⟨p, hgoes, hnext⟩ := Phase.goes_of_answer asks hanswer
      rw [hnext]
      exact .inr ⟨_, .goes hgoes⟩
  | @writesPart i path' part rest next d asks hwrite =>
    rw [hleft i] at asks
    obtain ⟨p, hgoes, hnext⟩ := Phase.goes_of_part asks hwrite
    rw [hnext]
    exact .inr ⟨_, .goes hgoes⟩
  | @fails i q next asks e d =>
    rw [hleft i] at asks
    exact .inl ⟨i, e, by simp [goOn, Phase.next_error asks]⟩
  | @leaves i r has isDone =>
    refine .inr ⟨_, .leaves has ?_⟩
    rcases Phase.ended_of_script ((hleft i).symm.trans isDone) with ⟨hphase, -⟩ | ⟨hphase, -⟩ <;>
      rw [hphase] <;> rfl

theorem left_goOn (hleft : ∀ k, w.left k = (phase k).script path (calls k).job) (i : ι) (p : Phase) :
    ∀ k, (w.goOn i (p.script path (calls i).job)).left k =
      (Function.update phase i p k).script path (calls k).job := by
  rw [Function.forall_update_iff phase fun k q =>
    (w.goOn i (p.script path (calls i).job)).left k = q.script path (calls k).job]
  constructor
  · simp [goOn]
  · intro k hk
    simp [goOn, hk, hleft k]

/-- A call that looks is still outside. -/
theorem IsOrderly.looks (h : IsOrderly path calls d phase w) {i : ι} {p : Phase}
    (isNew : phase i = .new) (answered : p = if (calls i).isCancelled then .refused else .waiting) :
    IsOrderly path calls d (Function.update phase i p) (w.goOn i (p.script path (calls i).job)) := by
  have hrefused : (calls i).isCancelled = true ↔ p = .refused := by
    rw [answered]
    cases (calls i).isCancelled <;> simp
  have houtside : p.isInside = false ∧ p.hasEntered = false := by
    rw [answered]
    split <;> exact ⟨rfl, rfl⟩
  have hnotin : i ∉ w.order := by
    rw [h.entered, isNew]
    exact Bool.false_ne_true
  refine ⟨left_goOn h.left i p, ?_, ?_, ?_, h.nodup, h.untouched, ?_⟩
  · exact (Function.forall_update_iff phase fun k q =>
      q ≠ .new → ((calls k).isCancelled = true ↔ q = .refused)).2
        ⟨fun _ => hrefused, fun k _ => h.looked k⟩
  · exact (Function.forall_update_iff phase fun k q =>
      q.isInside = true → w.turn = some k ∧ w.order.getLast? = some k).2
        ⟨by simp [houtside.1], fun k _ => h.alone k⟩
  · exact (Function.forall_update_iff phase fun k q => k ∈ w.order ↔ q.hasEntered = true).2
      ⟨by simp [houtside.2, hnotin], fun k _ => h.entered k⟩
  · intro k hlast
    have hne : k ≠ i := by
      rintro rfl
      exact hnotin (List.mem_of_getLast? hlast)
    rw [Function.update_of_ne hne]
    exact (lines_update hnotin p).symm ▸ h.file k hlast

/-- A call that is past its look and was not refused is not cancelled, and is not refused later. -/
theorem IsOrderly.looked_update (h : IsOrderly path calls d phase w) {i : ι} {p : Phase}
    (isAdmitted : phase i = .waiting ∨ (phase i).isInside = true) (hentered : p.hasEntered = true) (k : ι) :
    Function.update phase i p k ≠ .new →
      ((calls k).isCancelled = true ↔ Function.update phase i p k = .refused) := by
  have hlooked : (calls i).isCancelled = true ↔ phase i = .refused := by
    refine h.looked i ?_
    rcases isAdmitted with hi | hi <;> intro hnew <;> simp [hnew, Phase.isInside] at hi
  have hphase : phase i ≠ .refused := by
    rcases isAdmitted with hi | hi <;> intro hrefused <;> simp [hrefused, Phase.isInside] at hi
  have hp : p ≠ .refused := by
    rintro rfl
    cases hentered
  exact (Function.forall_update_iff phase fun k q =>
    q ≠ .new → ((calls k).isCancelled = true ↔ q = .refused)).2
      ⟨fun _ => by simp [hlooked, hphase, hp], fun k _ => h.looked k⟩ k

/-- A call that gets the turn finds the file as the calls before it left it. -/
theorem IsOrderly.enters (h : IsOrderly path calls d phase w) {i : ι} (waits : phase i = .waiting)
    (isFree : w.turn = none) :
    IsOrderly path calls d (Function.update phase i (.entered path))
      { w.goOn i ((Phase.entered path).script path (calls i).job) with
        turn := some i, order := w.order ++ [i] } := by
  have hentered := Phase.hasEntered_of_isInside (Phase.isInside_entered path)
  have hnotin : i ∉ w.order := by
    rw [h.entered, waits]
    exact Bool.false_ne_true
  refine ⟨left_goOn h.left i _, h.looked_update (.inl waits) hentered, ?_, ?_, ?_, fun hnil => ?_, ?_⟩
  · refine (Function.forall_update_iff phase fun k q =>
      q.isInside = true → some i = some k ∧ (w.order ++ [i]).getLast? = some k).2 ⟨by simp, ?_⟩
    -- nobody else uses the turn
    intro k _ hk
    have hturn := (h.alone k hk).1
    rw [isFree] at hturn
    cases hturn
  · refine (Function.forall_update_iff phase fun k q => k ∈ w.order ++ [i] ↔ q.hasEntered = true).2
      ⟨by simp [hentered], ?_⟩
    intro k hk
    simp [h.entered k, hk]
  · exact List.nodup_append.2 ⟨h.nodup, by simp, by
      rintro k hk _ hi rfl
      exact hnotin (List.mem_singleton.1 hi ▸ hk)⟩
  · simp at hnil
  · intro k hlast
    obtain rfl : i = k := by simpa using hlast
    rw [Function.update_self, lines_concat, lines_update hnotin, Function.update_self,
      Phase.written_entered, List.append_nil]
    exact Phase.holds_entered (h.content_of_isFree isFree)

/-- A call that comes further writes at the end of the file. -/
theorem IsOrderly.goes (h : IsOrderly path calls d phase w) {i : ι} {p : Phase} {d' : Disk}
    (goes : (phase i).Goes path (calls i).job.line w.disk p d') :
    IsOrderly path calls d (Function.update phase i p)
      { w.goOn i (p.script path (calls i).job) with disk := d' } := by
  obtain ⟨hturn, hlast⟩ := h.alone i goes.isInside
  have hmem : i ∈ w.order := List.mem_of_getLast? hlast
  obtain ⟨earlier, horder⟩ : ∃ earlier, w.order = earlier ++ [i] :=
    ⟨_, (List.dropLast_append_getLast? i hlast).symm⟩
  have hnotin : i ∉ earlier := by
    have hnodup := h.nodup
    rw [horder, List.nodup_append] at hnodup
    exact fun hi => hnodup.2.2 i hi i (List.mem_singleton_self i) rfl
  refine ⟨left_goOn h.left i p, h.looked_update (.inr goes.isInside) goes.hasEntered, ?_, ?_, h.nodup,
    fun hnil => absurd hnil (List.ne_nil_of_mem hmem), ?_⟩
  · exact (Function.forall_update_iff phase fun k q =>
      q.isInside = true → w.turn = some k ∧ w.order.getLast? = some k).2
        ⟨fun _ => ⟨hturn, hlast⟩, fun k _ => h.alone k⟩
  · exact (Function.forall_update_iff phase fun k q => k ∈ w.order ↔ q.hasEntered = true).2
      ⟨by simp [goes.hasEntered, hmem], fun k _ => h.entered k⟩
  · intro k hk
    obtain rfl : i = k := Option.some.inj (hlast.symm.trans hk)
    have hfile := h.file i hlast
    rw [horder, lines_concat, ← List.append_assoc] at hfile
    show (Function.update phase i p i).Holds path
      ((d.withParent path).content path ++ lines calls (Function.update phase i p) w.order) d'
    rw [horder, lines_concat, lines_update hnotin, Function.update_self, ← List.append_assoc]
    exact goes.holds hfile

theorem Shift.isOrderly (h : IsOrderly path calls d phase w) {phase' : ι → Phase}
    (shift : Shift path calls phase w phase' w') : IsOrderly path calls d phase' w' := by
  cases shift with
  | looks isNew answered => exact h.looks isNew answered
  | enters waits isFree => exact h.enters waits isFree
  | goes goes => exact h.goes goes
  | leaves has isOutside => exact h.leaves has isOutside

/-- A call that has ended stays as it is. -/
theorem Step.left_of_done (step : Step calls w w') {i : ι} {r : Except SinkError Unit}
    (hdone : w.left i = .done r) : w'.left i = .done r := by
  have hother : ∀ {k : ι} {q : AppendQuestion} {next : AppendAnswer q → Writer} (rest : Writer),
      w.left k = .ask q next → (w.goOn k rest).left i = .done r := by
    intro k q next rest asks
    have hne : i ≠ k := by
      rintro rfl
      rw [hdone] at asks
      cases asks
    simp [goOn, hne, hdone]
  cases step with
  | looks asks => exact hother _ asks
  | enters asks _ => exact hother _ asks
  | performs asks => exact hother _ asks
  | writesPart asks _ => exact hother _ asks
  | fails asks e d => exact hother _ asks
  | leaves _ _ => exact hdone

theorem Run.isOrderly (run : Run calls (ofCalls path calls d) w) :
    w.HasFailed ∨ ∃ phase, IsOrderly path calls d phase w := by
  induction run with
  | refl => exact .inr ⟨_, isOrderly_ofCalls path calls d⟩
  | tail _ step ih =>
    rcases ih with ⟨i, e, hfailed⟩ | ⟨phase, horderly⟩
    · exact .inl ⟨i, e, step.left_of_done hfailed⟩
    · rcases step.shift horderly.left with hfailed | ⟨phase', hshift⟩
      · exact .inl hfailed
      · exact .inr ⟨phase', hshift.isOrderly horderly⟩

/-- What is left when the calls have ended. -/
structure TookTurns (calls : ι → Call) (path : String) (d : Disk) (w : Writers ι)
    (result : ι → Except SinkError Unit) : Prop where
  result_eq : ∀ i, result i = if (calls i).isCancelled then .error .cancelled else .ok ()
  nodup : w.order.Nodup
  mem_order_iff : ∀ i, i ∈ w.order ↔ (calls i).isCancelled = false
  untouched : w.order = [] → w.disk = d
  /-- The file has grown by the lines of the calls in the order of their turns. -/
  grown : w.order ≠ [] → w.disk.read path =
    .ok ((d.withParent path).content path ++ w.order.flatMap fun i => (calls i).job.line)

/-- When all calls have ended and no operation has failed, the calls that were not cancelled have had one
turn each, and the file has grown by their lines in the order of their turns. -/
theorem finish_in_turn (run : Run calls (ofCalls path calls d) w) {result : ι → Except SinkError Unit}
    (isDone : ∀ i, w.left i = .done (result i)) (isSound : ∀ i e, result i ≠ .error (.storage e)) :
    TookTurns calls path d w result := by
  rcases run.isOrderly with ⟨i, e, hfailed⟩ | ⟨phase, h⟩
  · rw [isDone i] at hfailed
    exact absurd (Script.done.inj hfailed) (isSound i e)
  have hends (i : ι) : phase i = .refused ∧ result i = .error .cancelled ∨
      phase i = .kept ∧ result i = .ok () :=
    Phase.ended_of_script ((h.left i).symm.trans (isDone i))
  have hlooked (i : ι) : (calls i).isCancelled = true ↔ phase i = .refused := by
    refine h.looked i ?_
    rcases hends i with ⟨hphase, -⟩ | ⟨hphase, -⟩ <;> simp [hphase]
  have hkept (i : ι) : i ∈ w.order ↔ phase i = .kept := by
    rw [h.entered]
    rcases hends i with ⟨hphase, -⟩ | ⟨hphase, -⟩ <;> simp [hphase, Phase.hasEntered, Phase.isInside]
  refine ⟨fun i => ?_, h.nodup, fun i => ?_, h.untouched, fun hne => ?_⟩
  · rcases hends i with ⟨hphase, hresult⟩ | ⟨hphase, hresult⟩ <;>
      simp [hresult, hlooked, hphase]
  · rw [hkept, ← Bool.not_eq_true, hlooked]
    rcases hends i with ⟨hphase, -⟩ | ⟨hphase, -⟩ <;> simp [hphase]
  · have hlast := List.getLast?_eq_some_getLast hne
    have hread := h.file _ hlast
    rw [(hkept _).1 (List.mem_of_getLast? hlast)] at hread
    have hlines : lines calls phase w.order = w.order.flatMap fun i => (calls i).job.line := by
      refine List.flatMap_congr fun i hi => ?_
      rw [(hkept i).1 hi]
      rfl
    rwa [hlines] at hread

/-- Three calls; the caller of the last one has given up. -/
def threeCalls : Fin 3 → Call
  | 0 => { job := { id := "a" } }
  | 1 => { job := { id := "b" } }
  | 2 => { job := { id := "c" }, isCancelled := true }

/-- The second call gets the first turn and writes in two parts, and the others look in the meantime. -/
theorem finish_in_turn_three :
    ∃ w, Run threeCalls (ofCalls "f/q" threeCalls {}) w ∧
      (∀ i, w.left i = .done (if i = 2 then .error .cancelled else .ok ())) ∧ w.order = [1, 0] ∧
      w.disk.read "f/q" = .ok (Job.line { id := "b" } ++ Job.line { id := "a" }) := by
  have hstart : Run threeCalls _ _ := .refl (a := ofCalls "f/q" threeCalls {})
  have hlooked := hstart.tail (.looks (i := 1) rfl)
  have hopen := hlooked.tail (.enters (i := 1) rfl rfl)
    |>.tail (.performs (i := 1) rfl) |>.tail (.performs (i := 1) rfl)
  have hsplit := List.take_append_drop 9 (Job.line { id := "b" })
  have hpart := hopen.tail (.writesPart (i := 1)
    (show _ = Script.ask (AppendQuestion.file (.write "f/q" (List.take 9 _ ++ List.drop 9 _))) _ by
      rw [hsplit]; rfl) rfl)
  have hothers := hpart.tail (.looks (i := 0) rfl) |>.tail (.looks (i := 2) rfl)
  have hfirst := hothers.tail (.performs (i := 1) rfl) |>.tail (.performs (i := 1) rfl)
    |>.tail (.leaves (i := 1) rfl rfl)
  have hsecond := hfirst.tail (.enters (i := 0) rfl rfl) |>.tail (.performs (i := 0) rfl)
    |>.tail (.performs (i := 0) rfl) |>.tail (.performs (i := 0) rfl)
    |>.tail (.performs (i := 0) rfl) |>.tail (.leaves (i := 0) rfl rfl)
  obtain ⟨w, hrun, hdone, horder⟩ : ∃ w, Run threeCalls (ofCalls "f/q" threeCalls {}) w ∧
      (∀ i, w.left i = .done (if i = 2 then .error .cancelled else .ok ())) ∧ w.order = [1, 0] :=
    ⟨_, hsecond, Fin.forall_fin_succ.2 ⟨rfl, Fin.forall_fin_two.2 ⟨rfl, rfl⟩⟩, rfl⟩
  have hsound : ∀ (i : Fin 3) e,
      (if i = 2 then .error .cancelled else .ok () : Except SinkError Unit) ≠ .error (.storage e) := by
    intro i e
    split <;> simp
  have hread := (finish_in_turn hrun hdone hsound).grown
  have hempty : (Disk.withParent {} "f/q").content "f/q" = [] := rfl
  refine ⟨w, hrun, hdone, horder, ?_⟩
  rw [hread (by simp [horder]), hempty, horder]
  simp [threeCalls]

end Writers
end AgentRelay.Queue

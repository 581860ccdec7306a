import AgentRelay.Queue.Dispatcher
import Mathlib.Tactic.Common

/-!
# The traffic at a dispatcher

Callers hand jobs over, the background task writes them, and other callers close the dispatcher and wait
for the last write, all at the same time. Whatever the order, the jobs that were accepted go to the sink
one by one in the order in which they were accepted, and no other job does.

* `Dispatcher.Traffic.Step` are the moves of all parties, `Traffic.Run` any number of them in a row. A call
  that is not interrupted and the background task are runs (`run_dispatch`, `run_drainUpTo`).
* `Traffic.Books` is what is right in the books of a dispatcher, `Step.books` says that every move keeps
  it so.
* `Dispatcher.books_balance` is the result.
-/

namespace AgentRelay.Dispatcher

/-- A dispatcher with the calls that are under way. -/
structure Traffic where
  dispatcher : Dispatcher
  /-- Attempts that are made and not counted yet. -/
  uncounted : List (Job × Sent) := []
  /-- Calls that have begun to close and are not in line yet. -/
  closing : List Nat := []
  closers : Closers := {}

namespace Traffic

/-- What is seen of a dispatcher. -/
inductive Event
  /-- A call is refused because it is cancelled. -/
  | turnedAway (job : Job)
  /-- A call attempts to put its job into the buffer. -/
  | tried (job : Job) (sent : Sent)
  /-- The attempt is counted, and the call returns. -/
  | answered (job : Job) (sent : Sent)
  /-- The background task hands a job to the sink. -/
  | taken (job : Job)
  /-- The sink is done with it. -/
  | settled (job : Job) (result : Except SinkError Unit)
  /-- A call begins to close the dispatcher. -/
  | closes (id : Nat)
  /-- The call gets in line. -/
  | waits (id : Nat)
  /-- The call returns. -/
  | returned (id : Nat) (result : Except DispatchError Unit)
  /-- The call is abandoned by its caller. -/
  | abandoned (id : Nat)

/-- The moves. A call that closes looks at the end of the background task and at its own cancellation in
no fixed order, so it may be told that it is cancelled though the task has ended. -/
inductive Step (t : Traffic) : Event → Traffic → Prop
  | turnedAway (j : Job) : Step t (.turnedAway j) t
  | tried {j : Job} {sent : Sent} {d : Dispatcher} (sends : t.dispatcher.send j = (sent, d)) :
      Step t (.tried j sent) { t with dispatcher := d, uncounted := (j, sent) :: t.uncounted }
  | answered {j : Job} {sent : Sent} (isUncounted : (j, sent) ∈ t.uncounted) :
      Step t (.answered j sent)
        { t with dispatcher := t.dispatcher.count sent, uncounted := t.uncounted.erase (j, sent) }
  | taken {j : Job} {d : Dispatcher} (takes : t.dispatcher.take = some d) (writes : d.writing = some j) :
      Step t (.taken j) { t with dispatcher := d }
  | settled {j : Job} (writes : t.dispatcher.writing = some j) (r : Except SinkError Unit) :
      Step t (.settled j r) { t with dispatcher := t.dispatcher.settleWrite r }
  | closes {id : Nat} (isNew : id ∉ t.closing ∧ id ∉ t.closers.line) :
      Step t (.closes id) { t with dispatcher := t.dispatcher.beginClose, closing := id :: t.closing }
  | waits {id : Nat} (begun : id ∈ t.closing) :
      Step t (.waits id) { t with closing := t.closing.erase id, closers := t.closers.enter id }
  | returned {id : Nat} {cancelled : Bool} {r : Except DispatchError Unit} {c : Closers}
      (polls : t.closers.poll t.dispatcher id cancelled = some (r, c)) :
      Step t (.returned id r) { t with closers := c }
  | cancelled {id : Nat} (isFirst : t.closers.line.head? = some id) (unjoined : t.closers.joined = false) :
      Step t (.returned id (.error .cancelled)) { t with closers.line := t.closers.line.tail }
  | abandoned {id : Nat} (isWaiting : id ∈ t.closers.line) :
      Step t (.abandoned id) { t with closers := t.closers.leave id }

/-- Moves in a row; the events are in the order in which they happened. -/
inductive Run (t : Traffic) : List Event → Traffic → Prop
  | start : Run t [] t
  | step {log : List Event} {t' t'' : Traffic} {e : Event} (past : Run t log t') (move : Step t' e t'') :
      Run t (log ++ [e]) t''

/-- A new dispatcher. -/
def ofCapacity (capacity : Nat) : Traffic := { dispatcher := .ofCapacity capacity }

theorem Run.trans {t t' t'' : Traffic} {log log' : List Event} (run : Run t log t')
    (run' : Run t' log' t'') : Run t (log ++ log') t'' := by
  induction run' with
  | start => rwa [List.append_nil]
  | step _ move ih => exact List.append_assoc .. ▸ ih.step move

/-- A call that is not interrupted is two moves. -/
theorem run_dispatch (t : Traffic) (j : Job) :
    Run t [.tried j (t.dispatcher.send j).1, .answered j (t.dispatcher.send j).1]
      { t with dispatcher := (t.dispatcher.dispatch false j).2 } := by
  have htried : Step t (.tried j (t.dispatcher.send j).1) _ := .tried (Prod.eta _).symm
  have hanswered := Run.start.step htried |>.step (.answered List.mem_cons_self)
  rwa [List.erase_cons_head] at hanswered

theorem Step.ofBuffer {t : Traffic} {j : Job} {rest : List Job} (hwriting : t.dispatcher.writing = none)
    (hbuffer : t.dispatcher.buffer = j :: rest) :
    Step t (.taken j) { t with dispatcher.writing := some j, dispatcher.buffer := rest } :=
  .taken (by rw [take, hwriting, hbuffer]) rfl

theorem run_take (t : Traffic) :
    ∃ log, Run t log { t with dispatcher := t.dispatcher.take.getD t.dispatcher } := by
  cases hwriting : t.dispatcher.writing with
  | some i => exact ⟨[], by simpa [take, hwriting] using Run.start⟩
  | none =>
    cases hbuffer : t.dispatcher.buffer with
    | nil => exact ⟨[], by simpa [take, hwriting, hbuffer] using Run.start⟩
    | cons j rest =>
      have htaken := Run.start.step (.ofBuffer hwriting hbuffer)
      exact ⟨[.taken j], by simpa [take, hwriting, hbuffer] using htaken⟩

/-- The background task makes moves only. -/
theorem run_drainUpTo {σ : Type} (write : Job → σ → Option (Except SinkError Unit × σ)) (n : Nat)
    (t : Traffic) (s : σ) :
    ∃ log, Run t log { t with dispatcher := (drainUpTo write n t.dispatcher s).1 } := by
  induction n generalizing t s with
  | zero => exact ⟨_, .start⟩
  | succ n ih =>
    obtain ⟨log, htake⟩ := run_take t
    simp only [drainUpTo]
    split
    next => exact ⟨log, htake⟩
    next j hj =>
      split
      next => exact ⟨log, htake⟩
      next r s' _ =>
        obtain ⟨log', hrest⟩ :=
          ih { t with dispatcher := (t.dispatcher.take.getD t.dispatcher).settleWrite r } s'
        exact ⟨_, (htake.step (.settled hj r)).trans hrest⟩

/-! ### What is seen -/

namespace Event

/-- The attempt that is made. -/
@[simp] def attempt? : Event → Option (Job × Sent)
  | tried j sent => some (j, sent)
  | _ => none

/-- The attempt that is answered. -/
@[simp] def answered? : Event → Option (Job × Sent)
  | answered j sent => some (j, sent)
  | _ => none

/-- The job that is accepted. -/
@[simp] def accepted? : Event → Option Job
  | tried j .accepted => some j
  | _ => none

/-- The job that is handed to the sink. -/
@[simp] def taken? : Event → Option Job
  | taken j => some j
  | _ => none

/-- The job that the sink is done with. -/
@[simp] def settled? : Event → Option Job
  | settled j _ => some j
  | _ => none

/-- The answer to a call that hands a job over. -/
@[simp] def answer? : Event → Option (Except DispatchError Unit)
  | turnedAway _ => some (.error .cancelled)
  | answered _ sent => some sent.result
  | _ => none

/-- A call begins to close the dispatcher. -/
@[simp] def isClose : Event → Bool
  | closes _ => true
  | _ => false

/-- A call returns after the last write. -/
@[simp] def isClosed : Event → Bool
  | returned _ (.ok _) => true
  | _ => false

end Event

/-- The attempts in the order in which they were made. -/
def attempts (log : List Event) : List (Job × Sent) := log.filterMap Event.attempt?

/-- The attempts that were answered. -/
def answers (log : List Event) : List (Job × Sent) := log.filterMap Event.answered?

/-- The accepted jobs in the order in which they were accepted. -/
def accepted (log : List Event) : List Job := log.filterMap Event.accepted?

/-- The jobs that were handed to the sink. -/
def taken (log : List Event) : List Job := log.filterMap Event.taken?

/-- The jobs that the sink is done with. -/
def settled (log : List Event) : List Job := log.filterMap Event.settled?

/-- How many calls were answered that the buffer is full. -/
def fullAnswers (log : List Event) : Nat := (log.filterMap Event.answer?).count (.error .queueFull)

/-- A call has begun to close the dispatcher. -/
def hasClose (log : List Event) : Bool := log.any Event.isClose

/-- A call that closes the dispatcher has returned after the last write. -/
def hasClosed (log : List Event) : Bool := log.any Event.isClosed

section Views

variable (log : List Event) (e : Event)

theorem filterMap_snoc {α : Type} (f : Event → Option α) :
    (log ++ [e]).filterMap f = log.filterMap f ++ (f e).toList := by
  cases h : f e <;> simp [h]

@[simp] theorem attempts_snoc : attempts (log ++ [e]) = attempts log ++ e.attempt?.toList :=
  filterMap_snoc log e _

@[simp] theorem answers_snoc : answers (log ++ [e]) = answers log ++ e.answered?.toList :=
  filterMap_snoc log e _

@[simp] theorem accepted_snoc : accepted (log ++ [e]) = accepted log ++ e.accepted?.toList :=
  filterMap_snoc log e _

@[simp] theorem taken_snoc : taken (log ++ [e]) = taken log ++ e.taken?.toList :=
  filterMap_snoc log e _

@[simp] theorem settled_snoc : settled (log ++ [e]) = settled log ++ e.settled?.toList :=
  filterMap_snoc log e _

@[simp] theorem fullAnswers_snoc :
    fullAnswers (log ++ [e]) = fullAnswers log + e.answer?.toList.count (.error .queueFull) := by
  rw [fullAnswers, filterMap_snoc, List.count_append, fullAnswers]

@[simp] theorem hasClose_snoc : hasClose (log ++ [e]) = (hasClose log || e.isClose) := by
  simp [hasClose]

@[simp] theorem hasClosed_snoc : hasClosed (log ++ [e]) = (hasClosed log || e.isClosed) := by
  simp [hasClosed]

end Views

/-- The accepted jobs are those of the attempts that were accepted. -/
theorem length_accepted (log : List Event) :
    (accepted log).length = (attempts log).countP (·.2 = .accepted) := by
  rw [accepted, List.length_filterMap_eq_countP, attempts, List.countP_filterMap]
  congr 1
  funext e
  rcases e with _ | ⟨_, _ | _ | _⟩ | _ | _ | _ | _ | _ | _ | _ <;> rfl

/-! ### What is right in the books -/

variable {c : Nat} {t t' : Traffic} {log : List Event} {e : Event}

/-- The accepted jobs are those that the sink is done with, the one that is being written and those in the
buffer. -/
structure InOrder (c : Nat) (d : Dispatcher) (log : List Event) : Prop where
  capacity : d.capacity = max c 1
  isOpen : d.isOpen = !hasClose log
  bounded : d.buffer.length ≤ max c 1
  accepted : accepted log = settled log ++ d.writing.toList ++ d.buffer
  taken : taken log = settled log ++ d.writing.toList

/-- Everything that is over is counted. -/
structure Counted (t : Traffic) (log : List Event) : Prop where
  attempts : (attempts log).Perm (answers log ++ t.uncounted)
  accepted : t.dispatcher.stats.accepted = (answers log).countP (·.2 = .accepted)
  rejected : t.dispatcher.stats.rejectedFull = fullAnswers log
  settled : t.dispatcher.stats.written + t.dispatcher.stats.writeFailures = (settled log).length

/-- A call that closes the dispatcher returns `ok` only after the last write. -/
structure Joined (t : Traffic) (log : List Event) : Prop where
  drained : t.closers.joined → t.dispatcher.isDrained
  joined : hasClosed log → t.closers.joined

theorem send_cases {d d' : Dispatcher} {j : Job} {sent : Sent} (h : d.send j = (sent, d')) :
    (sent = .closed ∧ d.isOpen = false ∧ d' = d) ∨
      (sent = .full ∧ d.isOpen = true ∧ d.capacity ≤ d.buffer.length ∧ d' = d) ∨
      (sent = .accepted ∧ d.isOpen = true ∧ d.buffer.length < d.capacity ∧
        d' = { d with buffer := d.buffer ++ [j] }) := by
  unfold send at h
  split at h
  next hclosed =>
    obtain ⟨rfl, rfl⟩ := Prod.mk.inj h
    exact .inl ⟨rfl, by simpa using hclosed, rfl⟩
  next hopen =>
    have hopen : d.isOpen = true := by simpa using hopen
    split at h
    next hfull =>
      obtain ⟨rfl, rfl⟩ := Prod.mk.inj h
      exact .inr (.inl ⟨rfl, hopen, hfull, rfl⟩)
    next hroom =>
      obtain ⟨rfl, rfl⟩ := Prod.mk.inj h
      exact .inr (.inr ⟨rfl, hopen, by omega, rfl⟩)

theorem take_cases {d d' : Dispatcher} {j : Job} (h : d.take = some d') (hj : d'.writing = some j) :
    ∃ rest, d.writing = none ∧ d.buffer = j :: rest ∧
      d' = { d with writing := some j, buffer := rest } := by
  unfold take at h
  split at h
  next i rest hwriting hbuffer =>
    obtain rfl := Option.some.inj h
    obtain rfl := Option.some.inj hj
    exact ⟨rest, hwriting, hbuffer, rfl⟩
  next => contradiction

theorem poll_cases {d : Dispatcher} {x x' : Closers} {id : Nat} {cancelled : Bool}
    {r : Except DispatchError Unit} (h : x.poll d id cancelled = some (r, x')) :
    (r = .ok () ∧ (x.joined = true ∨ d.isDrained = true) ∧ x'.joined = true) ∨
      (r = .error .cancelled ∧ x'.joined = x.joined) := by
  unfold Closers.poll at h
  split at h
  next => contradiction
  next =>
    split at h
    next hend =>
      obtain ⟨rfl, rfl⟩ := Prod.mk.inj (Option.some.inj h)
      exact .inl ⟨rfl, by simpa using hend, rfl⟩
    next =>
      split at h
      next =>
        obtain ⟨rfl, rfl⟩ := Prod.mk.inj (Option.some.inj h)
        exact .inr ⟨rfl, rfl⟩
      next => contradiction

theorem Step.inOrder (move : Step t e t') (h : InOrder c t.dispatcher log) :
    InOrder c t'.dispatcher (log ++ [e]) := by
  cases move with
  | tried sends =>
    obtain ⟨rfl, -, rfl⟩ | ⟨rfl, -, -, rfl⟩ | ⟨rfl, -, hroom, rfl⟩ := send_cases sends
    · constructor <;> simp [h.capacity, h.isOpen, h.bounded, h.accepted, h.taken]
    · constructor <;> simp [h.capacity, h.isOpen, h.bounded, h.accepted, h.taken]
    · constructor
      case bounded =>
        rw [h.capacity] at hroom
        rwa [List.length_append]
      all_goals simp [h.capacity, h.isOpen, h.accepted, h.taken]
  | taken takes writes =>
    obtain ⟨rest, hwriting, hbuffer, rfl⟩ := take_cases takes writes
    constructor
    case bounded =>
      have hbounded := h.bounded
      rw [hbuffer, List.length_cons] at hbounded
      exact Nat.le_of_succ_le hbounded
    all_goals simp [h.capacity, h.isOpen, h.accepted, h.taken, hwriting, hbuffer]
  | settled writes r =>
    cases r <;> constructor <;>
      simp [settleWrite, h.capacity, h.isOpen, h.bounded, h.accepted, h.taken, writes]
  | answered =>
    rename_i sent _
    cases sent <;> constructor <;> simp [count, h.capacity, h.isOpen, h.bounded, h.accepted, h.taken]
  | closes => constructor <;> simp [beginClose, h.capacity, h.bounded, h.accepted, h.taken]
  | _ => constructor <;> simp [h.capacity, h.isOpen, h.bounded, h.accepted, h.taken]

@[simp] theorem send_stats (d : Dispatcher) (j : Job) : (d.send j).2.stats = d.stats := by
  unfold send
  split
  · rfl
  · split <;> rfl

theorem Step.counted (move : Step t e t') (h : Counted t log) : Counted t' (log ++ [e]) := by
  obtain ⟨hattempts, haccepted, hrejected, hsettled⟩ := h
  cases move with
  | tried sends =>
    rename_i j sent d
    have hstats : d.stats = t.dispatcher.stats := by rw [← send_stats t.dispatcher j, sends]
    constructor
    case attempts =>
      simp only [attempts_snoc, answers_snoc, Event.attempt?, Event.answered?, Option.toList_some,
        Option.toList_none, List.append_nil]
      exact (hattempts.append_right _).trans
        ((List.append_assoc ..).symm ▸ (List.perm_append_singleton _ _).append_left _)
    all_goals simp [hstats, haccepted, hrejected, hsettled]
  | answered isUncounted =>
    rename_i j sent
    constructor
    case attempts =>
      simp only [attempts_snoc, answers_snoc, Event.attempt?, Event.answered?, Option.toList_some,
        Option.toList_none, List.append_nil, List.append_assoc, List.singleton_append]
      exact hattempts.trans ((List.perm_cons_erase isUncounted).append_left _)
    all_goals cases sent <;> simp [count, Sent.result, haccepted, hrejected, hsettled]
  | taken takes writes =>
    obtain ⟨rest, -, -, rfl⟩ := take_cases takes writes
    constructor <;> simp [hattempts, haccepted, hrejected, hsettled]
  | settled writes r =>
    cases r <;> constructor <;> simp [settleWrite, hattempts, haccepted, hrejected] <;> omega
  | _ => constructor <;> simp [beginClose, hattempts, haccepted, hrejected, hsettled]

theorem isDrained_iff {d : Dispatcher} :
    d.isDrained = true ↔ d.isOpen = false ∧ d.buffer = [] ∧ d.writing = none := by
  simp [isDrained, and_assoc]

/-- A dispatcher whose background task has ended stays so. -/
theorem Step.isDrained (move : Step t e t') (h : t.dispatcher.isDrained) : t'.dispatcher.isDrained := by
  obtain ⟨hclosed, hbuffer, hwriting⟩ := isDrained_iff.1 h
  cases move with
  | tried sends =>
    obtain ⟨-, -, rfl⟩ | ⟨-, hopen, -⟩ | ⟨-, hopen, -⟩ := send_cases sends
    · exact h
    · simp [hclosed] at hopen
    · simp [hclosed] at hopen
  | answered =>
    rename_i sent _
    cases sent <;> exact h
  | taken takes writes =>
    obtain ⟨rest, -, hcons, -⟩ := take_cases takes writes
    simp [hbuffer] at hcons
  | settled writes r => simp [hwriting] at writes
  | closes => exact isDrained_iff.2 ⟨rfl, hbuffer, hwriting⟩
  | _ => exact h

theorem Step.joined (move : Step t e t') (h : Joined t log) : Joined t' (log ++ [e]) := by
  obtain ⟨hdrained, hjoined⟩ := h
  have hkept := move.isDrained
  cases move with
  | returned polls =>
    obtain ⟨rfl, hend, hjoined'⟩ | ⟨rfl, hjoined'⟩ := poll_cases polls
    · exact ⟨fun _ => hend.elim hdrained id, fun _ => hjoined'⟩
    · constructor <;> simp_all
  | _ =>
    refine ⟨fun hend => hkept (hdrained ?_), fun hend => ?_⟩ <;> simp_all [Closers.enter, Closers.leave]

/-- The books of a dispatcher are right at every moment. -/
structure Books (c : Nat) (t : Traffic) (log : List Event) : Prop where
  inOrder : InOrder c t.dispatcher log
  counted : Counted t log
  joined : Joined t log

theorem Step.books (move : Step t e t') (h : Books c t log) : Books c t' (log ++ [e]) :=
  ⟨move.inOrder h.inOrder, move.counted h.counted, move.joined h.joined⟩

theorem books_ofCapacity (c : Nat) : Books c (ofCapacity c) [] where
  inOrder := by
    constructor <;> simp [ofCapacity, Dispatcher.ofCapacity, hasClose, accepted, taken, settled]
  counted := by
    constructor <;> simp [ofCapacity, Dispatcher.ofCapacity, attempts, answers, settled, fullAnswers]
  joined := by constructor <;> simp [ofCapacity, hasClosed]

theorem Run.books (run : Run (ofCapacity c) log t) : Books c t log := by
  induction run with
  | start => exact books_ofCapacity c
  | step _ move ih => exact move.books ih

/-- What a call that is not cancelled is answered. -/
theorem InOrder.result_eq {d : Dispatcher} (h : InOrder c d log) (j : Job) :
    (d.send j).1.result =
      if hasClose log then .error .closed
      else if d.buffer.length = max c 1 then .error .queueFull
      else .ok () := by
  have hbounded := h.bounded
  obtain ⟨hsent, hopen, -⟩ | ⟨hsent, hopen, hfull, -⟩ | ⟨hsent, hopen, hroom, -⟩ :=
    send_cases (Prod.eta (d.send j)).symm
  · have hclose : hasClose log = true := by simpa [h.isOpen] using hopen
    rw [hsent, if_pos hclose]
    rfl
  · have hclose : ¬ hasClose log = true := by simpa [h.isOpen] using hopen
    rw [h.capacity] at hfull
    rw [hsent, if_neg hclose, if_pos (by omega)]
    rfl
  · have hclose : ¬ hasClose log = true := by simpa [h.isOpen] using hopen
    rw [h.capacity] at hroom
    rw [hsent, if_neg hclose, if_neg (by omega)]
    rfl

theorem result_injective : Function.Injective Sent.result := by
  intro sent sent' h
  cases sent <;> cases sent' <;> first | rfl | cases h

theorem exists_tried_iff {j : Job} {sent : Sent} :
    (∃ t', Step t (.tried j sent) t') ↔ sent.result = (t.dispatcher.send j).1.result := by
  rw [result_injective.eq_iff]
  constructor
  · rintro ⟨_, ⟨⟩⟩
    rename_i sends
    rw [sends]
  · rintro rfl
    exact ⟨_, .tried (Prod.eta _).symm⟩

/-- When every attempt is counted, what was accepted is written, could not be written, is being written or
waits. -/
theorem Books.balance (h : Books c t log) (hcounted : t.uncounted = []) :
    t.dispatcher.stats.accepted = t.dispatcher.stats.written + t.dispatcher.stats.writeFailures +
      t.dispatcher.writing.toList.length + t.dispatcher.buffer.length := by
  have hattempts : (attempts log).Perm (answers log) := by
    simpa [hcounted] using h.counted.attempts
  calc t.dispatcher.stats.accepted = (answers log).countP (·.2 = .accepted) := h.counted.accepted
    _ = (attempts log).countP (·.2 = .accepted) := (hattempts.countP_eq _).symm
    _ = (accepted log).length := (length_accepted log).symm
    _ = _ := by rw [h.inOrder.accepted, h.counted.settled, List.length_append, List.length_append]

/-- What the log and the counters of a dispatcher say of each other. -/
structure Balances (c : Nat) (t : Traffic) (log : List Event) : Prop where
  accepted_eq : accepted log = settled log ++ t.dispatcher.writing.toList ++ t.dispatcher.buffer
  taken_eq : taken log = settled log ++ t.dispatcher.writing.toList
  bounded : t.dispatcher.buffer.length ≤ max c 1
  /-- What a call comes to now. -/
  tried_iff : ∀ j sent, (∃ t', Step t (.tried j sent) t') ↔
    sent.result =
      if hasClose log then .error .closed
      else if t.dispatcher.buffer.length = max c 1 then .error .queueFull
      else .ok ()
  /-- Every attempt is answered by what it came to, once it is counted. -/
  answered : (attempts log).Perm (answers log ++ t.uncounted)
  counted : t.uncounted = [] →
    t.dispatcher.stats.accepted = t.dispatcher.stats.written + t.dispatcher.stats.writeFailures +
      t.dispatcher.writing.toList.length + t.dispatcher.buffer.length
  refused : t.uncounted = [] → t.dispatcher.stats.rejectedFull = fullAnswers log
  /-- Nothing is left when a call that closes the dispatcher has returned. -/
  all_settled : (∃ id, .returned id (.ok ()) ∈ log) →
    settled log = accepted log ∧ taken log = accepted log
  all_written : (∃ id, .returned id (.ok ()) ∈ log) →
    (accepted log).length = t.dispatcher.stats.written + t.dispatcher.stats.writeFailures
  all_counted : (∃ id, .returned id (.ok ()) ∈ log) → t.uncounted = [] →
    t.dispatcher.stats.accepted = t.dispatcher.stats.written + t.dispatcher.stats.writeFailures

/-- After a call that closes the dispatcher, the sink is done with all that was accepted. -/
theorem Books.all_settled (h : Books c t log) (hclosed : ∃ id, .returned id (.ok ()) ∈ log) :
    t.dispatcher.buffer = [] ∧ t.dispatcher.writing = none ∧ accepted log = settled log ∧
      taken log = settled log := by
  obtain ⟨id, hid⟩ := hclosed
  have hend : hasClosed log = true := List.any_eq_true.2 ⟨_, hid, rfl⟩
  obtain ⟨-, hbuffer, hwriting⟩ := isDrained_iff.1 (h.joined.drained (h.joined.joined hend))
  exact ⟨hbuffer, hwriting, by simpa [hbuffer, hwriting] using h.inOrder.accepted,
    by simpa [hwriting] using h.inOrder.taken⟩

end Traffic

open Traffic in
/-- **The books of a dispatcher balance.** At every moment the accepted jobs are, in the order in which they
were accepted, those that the sink is done with, the one it is writing and those in the buffer; the sink has
been handed the first two and nothing else. A call is refused because the dispatcher is closed just when
a call has begun to close it, and because the buffer is full just when it is; every attempt is answered
by what it came to. Once every attempt is counted, the counters say so. When a call that closes the
dispatcher has returned `ok`, the sink is done with every accepted job. -/
theorem books_balance {c : Nat} {t : Traffic} {log : List Event} (run : Run (.ofCapacity c) log t) :
    Balances c t log where
  accepted_eq := run.books.inOrder.accepted
  taken_eq := run.books.inOrder.taken
  bounded := run.books.inOrder.bounded
  tried_iff j sent := by rw [exists_tried_iff, run.books.inOrder.result_eq]
  answered := run.books.counted.attempts
  counted := run.books.balance
  refused _ := run.books.counted.rejected
  all_settled hclosed := by
    obtain ⟨-, -, haccepted, htaken⟩ := run.books.all_settled hclosed
    exact ⟨haccepted.symm, htaken.trans haccepted.symm⟩
  all_written hclosed := by
    obtain ⟨-, -, haccepted, -⟩ := run.books.all_settled hclosed
    rw [haccepted, run.books.counted.settled]
  all_counted hclosed hcounted := by
    obtain ⟨hbuffer, hwriting, -, -⟩ := run.books.all_settled hclosed
    simpa [hbuffer, hwriting] using run.books.balance hcounted

open Traffic in
/-- Two jobs go through a buffer for one; the first write succeeds, the second one fails. A third job finds
the buffer full and a fourth one finds it closed. The first call that closes the dispatcher is cancelled,
the second one returns after the last write. -/
theorem books_balance_closed_twice :
    ∃ a b x y log t, Run (.ofCapacity 0) log t ∧
      attempts log = [(a, .accepted), (b, .accepted), (x, .full), (y, .closed)] ∧
      .returned 1 (.error .cancelled) ∈ log ∧ .returned 2 (.ok ()) ∈ log ∧
      settled log = [a, b] ∧ t.dispatcher.stats.accepted = 2 ∧ t.dispatcher.stats.rejectedFull = 1 := by
  let a : Job := { id := "a" }
  let b : Job := { id := "b" }
  let x : Job := { id := "x" }
  let y : Job := { id := "y" }
  let full : Traffic :=
    { dispatcher := { capacity := 1, buffer := [b], writing := some a, stats := { accepted := 1 } }
      uncounted := [(x, .full), (b, .accepted)] }
  let closing : Traffic :=
    { dispatcher :=
        { capacity := 1, isOpen := false, buffer := [b], writing := some a
          stats := { accepted := 2, rejectedFull := 1 } } }
  have hfull : Run (.ofCapacity 0)
      [.tried a .accepted, .answered a .accepted, .taken a, .tried b .accepted, .tried x .full] full :=
    (Run.start (t := .ofCapacity 0)
      |>.step (.tried (j := a) rfl) |>.step (.answered (j := a) List.mem_cons_self)
      |>.step (.ofBuffer (j := a) rfl rfl) |>.step (.tried (j := b) rfl) |>.step (.tried (j := x) rfl) :)
  have hclosing : Run full
      [.answered x .full, .closes 1, .tried y .closed, .answered y .closed, .answered b .accepted,
        .waits 1, .returned 1 (.error .cancelled)] closing :=
    (Run.start (t := full)
      |>.step (.answered (j := x) List.mem_cons_self) |>.step (@Step.closes _ 1 (by decide))
      |>.step (.tried (j := y) rfl) |>.step (.answered (j := y) List.mem_cons_self)
      |>.step (.answered (j := b) List.mem_cons_self) |>.step (.waits List.mem_cons_self)
      |>.step (.cancelled rfl rfl) :)
  have hdrained := Run.start (t := closing)
    |>.step (.settled rfl (.ok ())) |>.step (.ofBuffer rfl rfl)
    |>.step (.settled rfl (.error .cancelled))
    |>.step (@Step.closes _ 2 (by decide)) |>.step (.waits List.mem_cons_self)
    |>.step (.returned (rfl : Closers.poll _ _ 2 false = some (.ok (), _)))
  have run := (hfull.trans hclosing).trans hdrained
  have hbalances := books_balance run
  exact ⟨a, b, x, y, _, _, run, rfl, by simp, by simp, (hbalances.all_settled ⟨2, by simp⟩).1.trans rfl,
    hbalances.all_counted ⟨2, by simp⟩ rfl, (hbalances.refused rfl).trans rfl⟩

end AgentRelay.Dispatcher

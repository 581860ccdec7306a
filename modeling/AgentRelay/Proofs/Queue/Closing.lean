import AgentRelay.Proofs.Queue.Traffic

/-!
# Calls that close a dispatcher one after the other

A call that closes a dispatcher waits for the calls that were in line before it, and while it waits it does
not look at anything, not even at its own cancellation. So a cancelled call can return at once just when
no other call stands before it; otherwise it returns only after that one has left the line, whatever the
sink does.

* `Traffic.IsPending` is a call that has begun and not returned, `Event.MakesWay` another one's leaving.
* `Step.head?_eq` says that nothing else moves the head of the line, `Run.head?_eq` the same of a run.
* `Dispatcher.returns_at_once_iff` is the result.
-/

namespace AgentRelay.Dispatcher

namespace Traffic

/-- The call has begun to close the dispatcher and has not returned. -/
def IsPending (t : Traffic) (id : Nat) : Prop := id ∈ t.closing ∨ id ∈ t.closers.line

/-- Another call than `id` leaves the line: it returns, or its caller abandons it. -/
def Event.MakesWay (id : Nat) : Event → Prop
  | .returned other _ => other ≠ id
  | .abandoned other => other ≠ id
  | _ => False

/-- No other call stands in line before this one. -/
def IsNext (t : Traffic) (id : Nat) : Prop := ∀ x ∈ t.closers.line.head?, x = id

variable {t t' : Traffic} {log : List Event} {e : Event} {id x : Nat}

/-- Only the first in line is answered. -/
theorem head?_of_poll {c c' : Closers} {d : Dispatcher} {cancelled : Bool} {r : Except DispatchError Unit}
    (h : c.poll d id cancelled = some (r, c')) : c.line.head? = some id := by
  by_contra hhead
  simp [Closers.poll, hhead] at h

/-- The first in line stays the first until it leaves. -/
theorem Step.head?_eq (move : Step t e t') (hhead : t.closers.line.head? = some x) (hx : x ≠ id)
    (hstays : ¬ e.MakesWay id) : t'.closers.line.head? = some x := by
  obtain ⟨line, hline⟩ := List.head?_eq_some_iff.1 hhead
  cases move with
  | waits =>
    simp only [Closers.enter, hline]
    rfl
  | returned polls =>
    obtain rfl := Option.some.inj ((head?_of_poll polls).symm.trans hhead)
    exact absurd hx hstays
  | cancelled isFirst =>
    obtain rfl := Option.some.inj (isFirst.symm.trans hhead)
    exact absurd hx hstays
  | @abandoned other =>
    obtain rfl : other = id := not_not.1 hstays
    simp [Closers.leave, hline, hx]
  | _ => exact hhead

theorem Run.head?_eq (run : Run t log t') (hhead : t.closers.line.head? = some x) (hx : x ≠ id)
    (hstays : ∀ e ∈ log, ¬ e.MakesWay id) : t'.closers.line.head? = some x := by
  induction run with
  | start => exact hhead
  | step _ move ih =>
    obtain ⟨hpast, hlast⟩ := List.forall_mem_append.1 hstays
    exact move.head?_eq (ih hpast) hx (hlast _ (List.mem_singleton_self _))

/-- A call returns only as the first in line. -/
theorem Step.head?_of_returned {r : Except DispatchError Unit} (move : Step t (.returned id r) t') :
    t.closers.line.head? = some id := by
  cases move with
  | returned polls => exact head?_of_poll polls
  | cancelled isFirst => exact isFirst

/-- A run that ends with the return of a call, as a run and that return. -/
theorem Run.cut_last {t₀ : Traffic} (run : Run t₀ (log ++ [e]) t') : ∃ t, Run t₀ log t ∧ Step t e t' := by
  generalize hlog : log ++ [e] = log' at run
  cases run with
  | start => simp at hlog
  | step past move =>
    obtain ⟨rfl, hlast⟩ := List.append_inj' hlog rfl
    obtain rfl := (List.cons.inj hlast).1
    exact ⟨_, past, move⟩

/-- Behind another call a call cannot return before that one has left. -/
theorem Run.exists_makesWay {r : Except DispatchError Unit} (run : Run t (log ++ [.returned id r]) t')
    (hhead : t.closers.line.head? = some x) (hx : x ≠ id) : ∃ e ∈ log, e.MakesWay id := by
  obtain ⟨t₁, hpast, hlast⟩ := run.cut_last
  by_contra hstays
  push Not at hstays
  have hkept := hpast.head?_eq hhead hx hstays
  exact hx (Option.some.inj (hkept.symm.trans hlast.head?_of_returned))

/-- The first in line is answered when it is cancelled. -/
theorem exists_poll {c : Closers} (d : Dispatcher) (hhead : c.line.head? = some id) :
    ∃ r c', c.poll d id true = some (r, c') ∧
      (r = .error .cancelled ∨ r = .ok () ∧ (c.joined = true ∨ d.isDrained = true)) := by
  rw [Closers.poll, if_neg (not_not.2 hhead)]
  by_cases hend : (c.joined || d.isDrained) = true
  · exact ⟨_, _, if_pos hend, .inr ⟨rfl, by simpa using hend⟩⟩
  · rw [if_neg hend]
    exact ⟨_, _, rfl, .inl rfl⟩

/-- A cancelled call that no other one stands before returns by moves of its own: it gets in line, unless
it is there, and looks. -/
theorem IsNext.exists_run (hnext : IsNext t id) (pending : IsPending t id) :
    ∃ past r t', Run t (past ++ [.returned id r]) t' ∧ (∀ e ∈ past, e = .waits id) ∧
      (r = .error .cancelled ∨ r = .ok () ∧ (t.closers.joined = true ∨ t.dispatcher.isDrained = true)) := by
  cases hline : t.closers.line with
  | nil =>
    have hclosing : id ∈ t.closing := pending.resolve_right (by simp [hline])
    have henters : (t.closers.enter id).line.head? = some id := by simp [Closers.enter, hline]
    obtain ⟨r, c, hpoll, hr⟩ := exists_poll t.dispatcher henters
    have hwaits : Run t [.waits id] _ := Run.start.step (.waits hclosing)
    exact ⟨[.waits id], r, _, hwaits.step (.returned hpoll), by simp, hr⟩
  | cons x line =>
    have hhead : t.closers.line.head? = some id := by rw [hline, ← hnext x (by simp [hline])]; rfl
    obtain ⟨r, c, hpoll, hr⟩ := exists_poll t.dispatcher hhead
    exact ⟨[], r, _, Run.start.step (.returned hpoll), by simp, hr⟩

end Traffic

open Traffic

/-- **A cancelled call returns at once just when it is next.** Take any reachable state and a call that
closes the dispatcher and has not returned. When no other call stands in line before it and it is cancelled,
it returns by moves of its own, without the sink: it is told that it is cancelled, or `ok` if all is
written. When another call does, it returns in no way before that one has left the line, cancelled or
not, however far the sink gets. -/
theorem returns_at_once_iff {c id : Nat} {t : Traffic} {log : List Event} (run : Run (.ofCapacity c) log t)
    (pending : IsPending t id) :
    ((∃ past r t', Run t (past ++ [.returned id r]) t' ∧ ∀ e ∈ past, ¬ e.MakesWay id) ↔ IsNext t id) ∧
    (IsNext t id → ∃ past r t', Run t (past ++ [.returned id r]) t' ∧ (∀ e ∈ past, e = .waits id) ∧
      (r = .error .cancelled ∨ r = .ok () ∧ t.dispatcher.isDrained = true)) := by
  have hdrained := run.books.joined.drained
  refine ⟨⟨?_, fun hnext => ?_⟩, fun hnext => ?_⟩
  · rintro ⟨past, r, t', hreturns, hstays⟩ x hhead
    by_contra hx
    obtain ⟨e, he, hleaves⟩ := hreturns.exists_makesWay hhead hx
    exact hstays e he hleaves
  · obtain ⟨past, r, t', hreturns, hown, -⟩ := hnext.exists_run pending
    refine ⟨past, r, t', hreturns, fun e he => ?_⟩
    rw [hown e he]
    exact not_false
  · obtain ⟨past, r, t', hreturns, hown, hr⟩ := hnext.exists_run pending
    exact ⟨past, r, t', hreturns, hown, hr.imp_right fun ⟨hok, hend⟩ => ⟨hok, hend.elim hdrained fun h => h⟩⟩

/-- A job is being written, and two calls that close the dispatcher wait. -/
theorem run_two_closers : ∃ log t, Run (.ofCapacity 1) log t ∧ t.closers.line = [1, 2] ∧
    t.dispatcher.writing = some { id := "slow" } := by
  let slow : Job := { id := "slow" }
  let writing : Traffic :=
    { dispatcher := { capacity := 1, writing := some slow }, uncounted := [(slow, .accepted)] }
  have hwriting : Run (.ofCapacity 1) [.tried slow .accepted, .taken slow] writing :=
    (Run.start (t := .ofCapacity 1)
      |>.step (.tried (j := slow) rfl) |>.step (.ofBuffer (j := slow) rfl rfl) :)
  have hclosing := Run.start (t := writing)
    |>.step (.answered (j := slow) List.mem_cons_self)
    |>.step (@Step.closes _ 1 (by decide)) |>.step (.waits List.mem_cons_self)
    |>.step (@Step.closes _ 2 (by decide)) |>.step (.waits List.mem_cons_self)
  exact ⟨_, _, hwriting.trans hclosing, rfl, rfl⟩

/-- The first of them returns at once when it is cancelled. -/
theorem returns_at_once_iff_first :
    ∃ log t, Run (.ofCapacity 1) log t ∧ IsPending t 1 ∧ IsNext t 1 ∧ t.dispatcher.writing ≠ none ∧
      ∃ past t', Run t (past ++ [.returned 1 (.error .cancelled)]) t' ∧ ∀ e ∈ past, e = .waits 1 := by
  obtain ⟨log, t, run, hline, hwriting⟩ := run_two_closers
  have pending : IsPending t 1 := .inr (by simp [hline])
  have hnext : IsNext t 1 := fun x hx => by
    rw [hline] at hx
    exact (Option.some.inj hx).symm
  obtain ⟨past, r, t', hreturns, hown, rfl | ⟨-, hdrained⟩⟩ := (returns_at_once_iff run pending).2 hnext
  · exact ⟨log, t, run, pending, hnext, by simp [hwriting], past, t', hreturns, hown⟩
  · simp [isDrained_iff, hwriting] at hdrained

/-- The second one does not: whatever the sink does, it cannot return before the first one has left the
line, though it may be cancelled. -/
theorem not_returns_at_once :
    ¬ ∀ c log t id, Run (.ofCapacity c) log t → IsPending t id →
      ∃ past r t', Run t (past ++ [.returned id r]) t' ∧ ∀ e ∈ past, ¬ e.MakesWay id := by
  intro h
  obtain ⟨log, t, run, hline, -⟩ := run_two_closers
  obtain ⟨past, r, t', hreturns, hstays⟩ := h 1 log t 2 run (.inr (by simp [hline]))
  obtain ⟨e, he, hleaves⟩ := hreturns.exists_makesWay (x := 1) (by simp [hline]) (by decide)
  exact hstays e he hleaves

end AgentRelay.Dispatcher

import AgentRelay.Proofs.Queue.Once
import AgentRelay.Proofs.Queue.Site
import Mathlib.Logic.Relation

/-!
# However a file is cut into cycles

A worker may read a queue file while it grows by any pieces, in many cycles, some of which are cancelled
or broken off by a job that fails. In the end it has had the same jobs processed, has seen the same keys
and has got to the same offset as one cycle over the whole file.

* `Progress` is a worker with the jobs that succeeded, `Progress.Next` what one line does to it. The file
  alone decides that, so there is one way to the end of the file (`Progress.eq_of_reaches`).
* `Site.OnTrack` says that a worker is on this way, `Site.View.Step.onTrack` that it stays there.
* `Drain.turns_whole` is a cycle that nothing disturbs.
* `Worker.cycles_agree` is the result.
-/

namespace AgentRelay

open Script Relation

/-! ### The way through a file -/

/-- A worker and the jobs that have succeeded, the last one first. -/
structure Progress where
  worker : Worker
  jobs : List Job := []

namespace Progress

/-- What a complete line does to a worker that is not disturbed. -/
inductive Next (b : Bytes) : Progress → Progress → Prop
  | skipped {w : Worker} {jobs : List Job} {line : Bytes} (hasLine : HasLine b w.offset line)
      (skips : w.Skips line) :
      Next b ⟨w, jobs⟩ ⟨{ w with offset := w.offset + line.length }, jobs⟩
  | processed {w : Worker} {jobs : List Job} {line : Bytes} {j : Job} (hasLine : HasLine b w.offset line)
      (notBlank : ¬ IsBlankLine line) (reads : Job.ofLine line = .ok j)
      (notSeen : Drain.isDuplicate w j.key = false) :
      Next b ⟨w, jobs⟩ ⟨{ Drain.remember w j.key with offset := w.offset + line.length }, j :: jobs⟩

/-- What any number of lines do to it. -/
abbrev Reaches (b : Bytes) : Progress → Progress → Prop := ReflTransGen (Next b)

variable {b : Bytes} {p q q' : Progress}

theorem not_skips {w : Worker} {line : Bytes} {j : Job} (notBlank : ¬ IsBlankLine line)
    (reads : Job.ofLine line = .ok j) (notSeen : Drain.isDuplicate w j.key = false) :
    ¬ w.Skips line := by
  rintro (hblank | ⟨k, hk, hseen⟩)
  · exact notBlank hblank
  · obtain rfl := Except.ok.inj (hk.symm.trans reads)
    rw [notSeen] at hseen
    cases hseen

theorem Next.unique (h : Next b p q) (h' : Next b p q') : q = q' := by
  cases h with
  | skipped hasLine skips =>
    cases h' with
    | skipped hasLine' =>
      obtain rfl := hasLine.unique hasLine'
      rfl
    | processed hasLine' notBlank reads notSeen =>
      obtain rfl := hasLine.unique hasLine'
      exact absurd skips (not_skips notBlank reads notSeen)
  | processed hasLine notBlank reads notSeen =>
    cases h' with
    | skipped hasLine' skips =>
      obtain rfl := hasLine.unique hasLine'
      exact absurd skips (not_skips notBlank reads notSeen)
    | processed hasLine' _ reads' =>
      obtain rfl := hasLine.unique hasLine'
      obtain rfl := Except.ok.inj (reads.symm.trans reads')
      rfl

/-- A file has one end. -/
theorem eq_of_reaches (h : Reaches b p q) (h' : Reaches b p q') (hq : ∀ r, ¬ Next b q r)
    (hq' : ∀ r, ¬ Next b q' r) : q = q' := by
  have hunique : Relator.RightUnique (Next b) := fun _ _ _ => Next.unique
  rcases ReflTransGen.total_of_right_unique hunique h h' with hqq' | hq'q
  · rcases hqq'.cases_head with rfl | ⟨r, hr, -⟩
    · rfl
    · exact absurd hr (hq r)
  · rcases hq'q.cases_head with rfl | ⟨r, hr, -⟩
    · rfl
    · exact absurd hr (hq' r)

theorem Next.append (h : Next b p q) (more : Bytes) : Next (b ++ more) p q := by
  cases h with
  | skipped hasLine skips => exact .skipped (hasLine.append more) skips
  | processed hasLine notBlank reads notSeen =>
    exact .processed (hasLine.append more) notBlank reads notSeen

theorem Reaches.append (h : Reaches b p q) (more : Bytes) : Reaches (b ++ more) p q :=
  h.lift id fun _ _ h => h.append more

/-- The worker stands at the start of a line. -/
theorem Next.stands (h : Next b p q) :
    p.worker.offset < q.worker.offset ∧ q.worker.offset ≤ b.length ∧ StartsLine b q.worker.offset := by
  cases h with
  | skipped hasLine =>
    exact ⟨Nat.lt_add_of_pos_right hasLine.length_pos, hasLine.next_le, hasLine.startsLine_next⟩
  | processed hasLine =>
    exact ⟨Nat.lt_add_of_pos_right hasLine.length_pos, hasLine.next_le, hasLine.startsLine_next⟩

theorem Reaches.stands (h : Reaches b p q) (hbound : p.worker.offset ≤ b.length)
    (hstarts : StartsLine b p.worker.offset) :
    q.worker.offset ≤ b.length ∧ StartsLine b q.worker.offset := by
  induction h with
  | refl => exact ⟨hbound, hstarts⟩
  | tail _ hnext _ => exact hnext.stands.2

end Progress

/-! ### A worker on a file that grows -/

namespace Site

/-- Nothing but growth, cycles and their exchanges, in which every offset is saved. -/
def Event.IsCalm : Event → Prop
  | .grew _ => True
  | .began => True
  | .rested => True
  | .asked x => x.isUnsaved = false
  | _ => False

/-- The jobs that succeeded, the last one first. -/
def succeeded (log : List Event) : List Job := log.filterMap Event.success?

/-- A worker that began as `first` is on its way through the file. -/
def OnTrack (first : Worker) (v : View) (log : List Event) : Option Stage → Prop
  | some (.free w) =>
    v.cursor = w.offset ∧ Progress.Reaches v.content ⟨first, []⟩ ⟨w, succeeded log⟩
  | some (.holding w j next) =>
    v.cursor = w.offset ∧ Progress.Reaches v.content ⟨first, []⟩ ⟨w, succeeded log⟩ ∧
      Progress.Next v.content ⟨w, succeeded log⟩
        ⟨{ Drain.remember w j.key with offset := next }, j :: succeeded log⟩
  | some (.passing w next) =>
    Progress.Reaches v.content ⟨first, []⟩ ⟨{ w with offset := next }, succeeded log⟩
  | none => False

variable {first : Worker} {v v' : View} {log : List Event} {e : Event}

theorem View.Step.onTrack (move : v.Step e v') (calm : e.IsCalm) (hfirst : first.offset = 0)
    (h : OnTrack first v log v.stage) : OnTrack first v' (e :: log) v'.stage := by
  cases move with
  | grew more =>
    obtain ⟨content, cursor, stage⟩ := v
    rcases stage with _ | ⟨w⟩ | ⟨w, j, next⟩ | ⟨w, next⟩
    · exact h
    · exact ⟨h.1, h.2.append more⟩
    · exact ⟨h.1, h.2.1.append more, h.2.2.append more⟩
    · exact h.append more
  | started => exact calm.elim
  | unstarted => exact calm.elim
  | began => exact h
  | rested => exact h
  | ended => exact calm.elim
  | crashed => exact calm.elim
  | @asked x st st' isAt fits moves =>
    rw [isAt] at h
    cases moves with
    | looks w isLook =>
      have hlog : succeeded (.asked x :: log) = succeeded log := by
        simp [succeeded, Event.success?, Event.exchange?, isLook.success?]
      obtain ⟨hcursor, hreaches⟩ := h
      refine ⟨?_, ?_⟩
      · dsimp only
        rwa [Exchange.cursorAfter, isLook.saved?]
      · rwa [hlog]
    | shrunk w isShort =>
      obtain ⟨-, hreaches⟩ := h
      obtain rfl := fits _ rfl
      have hstands := hreaches.stands (by simp [hfirst]) (.inl hfirst)
      exact absurd isShort (Nat.not_lt.2 hstands.1)
    | @skipped w path line isComplete skips =>
      obtain ⟨-, hreaches⟩ := h
      have hstands := hreaches.stands (by simp [hfirst]) (.inl hfirst)
      exact hreaches.tail (.skipped ⟨hstands.2, (fits line rfl).symm, isComplete⟩ skips)
    | @found w path line j isComplete notBlank reads notSeen =>
      obtain ⟨hcursor, hreaches⟩ := h
      have hstands := hreaches.stands (by simp [hfirst]) (.inl hfirst)
      exact ⟨hcursor, hreaches,
        .processed ⟨hstands.2, (fits line rfl).symm, isComplete⟩ notBlank reads notSeen⟩
    | succeeded w j next =>
      have hnext := h.2.1.tail h.2.2
      generalize Drain.remember w j.key = w' at hnext ⊢
      exact hnext
    | failed w j next cause => exact ⟨h.1, h.2.1⟩
    | saved w next => exact ⟨rfl, h⟩
    | unsaved w next e => exact absurd calm (by simp [Event.IsCalm, Exchange.isUnsaved])

end Site

/-! ### A cycle that nothing disturbs -/

/-- Every complete line of the file holds nothing or a job. -/
def IsLog (b : Bytes) : Prop :=
  ∀ o line, HasLine b o line → IsBlankLine line ∨ ∃ j, Job.ofLine line = .ok j

/-- The answers on a file when the worker is not stopped, every job succeeds and every offset is saved. -/
def Worker.answersFor (content : Bytes) : (q : WorkerQuestion) → WorkerAnswer q
  | .isCancelled => false
  | .loadCursor => Except.ok 0
  | .saveCursor _ => Except.ok ()
  | .size _ => Except.ok content.length
  | .openQueue _ => Except.ok ()
  | .line _ offset => Except.ok (firstLine (content.drop offset))
  | .process _ => Except.ok ()
  | .pause _ => true

variable {content : Bytes} {log : List Exchange} {d d' : Drain}

theorem Exchange.success?_of_looks (h : ∀ x ∈ log, x.IsLook) : log.filterMap success? = [] :=
  List.filterMap_eq_nil_iff.2 fun x hx => (h x hx).success?

theorem Exchange.cursorAfter_of_looks (h : ∀ x ∈ log, x.IsLook) (cursor : Nat) :
    log.foldl cursorAfter cursor = cursor := by
  induction log with
  | nil => rfl
  | cons x log ih =>
    obtain ⟨hx, hlog⟩ := List.forall_mem_cons.1 h
    rw [List.foldl_cons, cursorAfter, hx.saved?]
    exact ih hlog

namespace Drain

/-- Such a turn takes the next line, or ends the cycle when there is none. -/
theorem Turns.advances (h : d.Turns log d') (hlog : ∀ x ∈ log, x.2 = Worker.answersFor content x.1)
    (isLog : IsLog content) (hstarts : StartsLine content d.worker.offset) (jobs : List Job) :
    (d' = d.finish ∧ (∀ x ∈ log, x.IsLook) ∧ ∀ q, ¬ Progress.Next content ⟨d.worker, jobs⟩ q) ∨
      (d'.outcome = d.outcome ∧
        Progress.Next content ⟨d.worker, jobs⟩
          ⟨d'.worker, (log.filterMap Exchange.success?).reverse ++ jobs⟩ ∧
        ∀ cursor, log.foldl Exchange.cursorAfter cursor = d'.worker.offset) := by
  cases h with
  | cancelled => cases hlog _ List.mem_cons_self
  | unread e => cases hlog _ (List.mem_cons_of_mem _ List.mem_cons_self)
  | @unfinished line isUnfinished =>
    have hline := Except.ok.inj (hlog _ (List.mem_cons_of_mem _ List.mem_cons_self))
    refine .inl ⟨rfl, by simp [Exchange.IsLook], fun q hnext => isUnfinished ?_⟩
    rw [hline]
    cases hnext with
    | skipped hasLine => rw [hasLine.isFirst, hasLine.isComplete]
    | processed hasLine => rw [hasLine.isFirst, hasLine.isComplete]
  | @taken line log d' isComplete takes =>
    right
    have hline := Except.ok.inj (hlog _ (List.mem_cons_of_mem _ List.mem_cons_self))
    have hasLine : HasLine content d.worker.offset line := ⟨hstarts, hline.symm, isComplete⟩
    have hlog : ∀ x ∈ log, x.2 = Worker.answersFor content x.1 :=
      fun x hx => hlog x (List.mem_cons_of_mem _ (List.mem_cons_of_mem _ hx))
    cases takes with
    | blank isBlank saves =>
      cases saves with
      | saved => exact ⟨rfl, .skipped hasLine (.inl isBlank), fun _ => rfl⟩
      | unsaved e => cases hlog _ List.mem_cons_self
    | malformed notBlank reads =>
      rcases isLog _ _ hasLine with hblank | ⟨j, hj⟩
      · rw [IsBlankLine, notBlank] at hblank
        cases hblank
      · cases hj.symm.trans reads
    | duplicate _ reads isSeen saves =>
      cases saves with
      | saved => exact ⟨rfl, .skipped hasLine (.inr ⟨_, reads, isSeen⟩), fun _ => rfl⟩
      | unsaved e => cases hlog _ List.mem_cons_self
    | processed notBlank reads notSeen saves =>
      cases saves with
      | saved =>
        have hnext : Progress.Next content ⟨d.worker, jobs⟩ _ :=
          .processed hasLine (by simp [IsBlankLine, notBlank]) reads notSeen
        generalize remember d.worker _ = w' at hnext ⊢
        exact ⟨rfl, hnext, fun _ => rfl⟩
      | unsaved e => cases hlog _ (List.mem_cons_of_mem _ List.mem_cons_self)
    | stopped => cases hlog _ List.mem_cons_self
    | failed => cases hlog _ List.mem_cons_self

/-- The turns of such a cycle lead to the end of the file. -/
theorem turns_whole {n : Nat} (h : Trace (turns n d) log d')
    (hlog : ∀ x ∈ log, x.2 = Worker.answersFor content x.1) (isLog : IsLog content)
    (hstarts : StartsLine content d.worker.offset) (hbound : d.worker.offset ≤ content.length)
    (hd : d.outcome = none) (hn : content.length < d.worker.offset + n) (jobs : List Job) :
    d'.outcome = some (.ok ()) ∧
      Progress.Reaches content ⟨d.worker, jobs⟩
        ⟨d'.worker, (log.filterMap Exchange.success?).reverse ++ jobs⟩ ∧
      (∀ q, ¬ Progress.Next content
        ⟨d'.worker, (log.filterMap Exchange.success?).reverse ++ jobs⟩ q) ∧
      log.foldl Exchange.cursorAfter d.worker.offset = d'.worker.offset := by
  induction n generalizing d log jobs with
  | zero => omega
  | succ n ih =>
    rw [turns_succ hd] at h
    obtain ⟨log₁, d₁, log₂, rfl, hturn, hturns⟩ := trace_bind_iff.1 h
    obtain ⟨hlog₁, hlog₂⟩ := List.forall_mem_append.1 hlog
    rcases (turns_of_trace hturn).advances hlog₁ isLog hstarts jobs with
      ⟨rfl, hlooks, hend⟩ | ⟨houtcome, hnext, hcursor⟩
    · -- no turn follows the end of the cycle
      rw [turns_of_outcome (by simp [finish])] at hturns
      obtain ⟨rfl, rfl⟩ := trace_done_iff.1 hturns
      rw [List.append_nil, Exchange.success?_of_looks hlooks, Exchange.cursorAfter_of_looks hlooks]
      exact ⟨rfl, .refl, hend, rfl⟩
    · obtain ⟨hlt, hbound₁, hstarts₁⟩ := hnext.stands
      obtain ⟨hok, hreaches, hend, hlast⟩ := ih hturns hlog₂ hstarts₁ hbound₁ (houtcome.trans hd)
        (by dsimp only at hlt; omega) ((log₁.filterMap Exchange.success?).reverse ++ jobs)
      rw [List.filterMap_append, List.reverse_append, List.append_assoc, List.foldl_append, hcursor]
      exact ⟨hok, .head hnext hreaches, hend, hlast⟩

end Drain

namespace Worker

/-- Such a cycle leads to the end of the file and saves it. -/
theorem drain_whole {w : Worker} {n : Nat} (isLog : IsLog content)
    (hstarts : StartsLine content w.offset) (hbound : w.offset ≤ content.length)
    (hn : content.length < n) (jobs : List Job) :
    ((w.drain n).eval (answersFor content)).outcome = some (.ok ()) ∧
      ∃ jobs', jobs' = (((w.drain n).log (answersFor content)).filterMap Exchange.success?).reverse ++ jobs ∧
        Progress.Reaches content ⟨w, jobs⟩ ⟨((w.drain n).eval (answersFor content)).worker, jobs'⟩ ∧
        (∀ q, ¬ Progress.Next content ⟨((w.drain n).eval (answersFor content)).worker, jobs'⟩ q) ∧
        ((w.drain n).log (answersFor content)).foldl Exchange.cursorAfter w.offset =
          ((w.drain n).eval (answersFor content)).worker.offset := by
  have hlog : ∀ x ∈ (w.drain n).log (answersFor content), x.2 = answersFor content x.1 :=
    fun _ => answer_of_mem_log
  obtain ⟨log₁, d₁, log₂, hsplit, hbegin, hturns⟩ :=
    trace_bind_iff.1 (trace_eval (answersFor content) (w.drain n))
  rw [hsplit] at hlog ⊢
  obtain ⟨hlog₁, hlog₂⟩ := List.forall_mem_append.1 hlog
  obtain ⟨rfl, hlooks⟩ := (Drain.begins_of_trace hbegin).looks (fun hmem => by cases hlog₁ _ hmem)
    (fun r hmem => hlog₁ _ hmem) (fun r hmem => hlog₁ _ hmem) hbound
  obtain ⟨hok, hreaches, hend, hcursor⟩ := Drain.turns_whole hturns hlog₂ isLog hstarts hbound rfl
    (Nat.lt_add_left _ hn) jobs
  refine ⟨hok, _, rfl, ?_⟩
  rw [List.filterMap_append, Exchange.success?_of_looks hlooks, List.nil_append, List.foldl_append,
    Exchange.cursorAfter_of_looks hlooks]
  exact ⟨hreaches, hend, hcursor⟩

/-- A last cycle of a worker agrees with one cycle over the whole of a content. Before the last cycle the jobs
had succeeded that are told, and the saved offset was the one that is told. -/
structure AgreesWith (last whole : WorkerScript Drain) (content : Bytes) (succeeded : List Job)
    (cursor : Nat) : Prop where
  last_ok : (last.eval (answersFor content)).outcome = some (.ok ())
  whole_ok : (whole.eval (answersFor content)).outcome = some (.ok ())
  worker_eq : (last.eval (answersFor content)).worker = (whole.eval (answersFor content)).worker
  last_cursor : (last.log (answersFor content)).foldl Exchange.cursorAfter cursor =
    (last.eval (answersFor content)).worker.offset
  whole_cursor : (whole.log (answersFor content)).foldl Exchange.cursorAfter 0 =
    (whole.eval (answersFor content)).worker.offset
  /-- The same jobs have succeeded in the same order. -/
  jobs_eq : succeeded ++ (last.log (answersFor content)).filterMap Exchange.success? =
    (whole.log (answersFor content)).filterMap Exchange.success?

/-- **The cycles do not matter.** A worker reads a file from its start while the file grows, in any cycles;
no offset fails to be saved. When a last cycle that nothing disturbs finds a file of jobs, the same jobs
have succeeded in the same order, and the worker and the saved offset are the same, as after one cycle
over the whole file. -/
theorem cycles_agree {config : WorkerConfig} {s : Site} {past : List Site.Event} {w : Worker} {m n : Nat}
    (run : Site.Run { running := .idle { config, offset := 0 } } past s) (calm : ∀ e ∈ past, e.IsCalm)
    (isIdle : s.running = .idle w) (isLog : IsLog s.content) (hm : s.content.length < m)
    (hn : s.content.length < n) :
    AgreesWith (w.drain m) (drain n { config, offset := 0 }) s.content (Site.succeeded past).reverse
      s.cursor := by
  have hstart : Site.Has { running := .idle { config, offset := 0 } }
      ⟨[], 0, some (.free { config, offset := 0 })⟩ := ⟨rfl, rfl, rfl⟩
  obtain ⟨v, ⟨hcontent, hcursor, hstage⟩, htrack⟩ := run.exists_view
    (P := fun v log => (∀ e ∈ log, e.IsCalm) → Site.OnTrack { config, offset := 0 } v log v.stage)
    hstart (fun _ => ⟨rfl, .refl⟩) fun move h hcalm => by
      obtain ⟨he, hlog⟩ := List.forall_mem_cons.1 hcalm
      exact move.onTrack he rfl (h hlog)
  obtain ⟨content, cursor, stage⟩ := v
  obtain rfl : content = s.content := hcontent
  obtain rfl : cursor = s.cursor := hcursor
  rw [isIdle] at hstage
  obtain rfl : stage = some (.free w) := hstage
  obtain ⟨hoffset, hreaches⟩ := htrack calm
  have hbound := Nat.zero_le s.content.length
  obtain ⟨hbound', hstarts'⟩ := hreaches.stands hbound (.inl rfl)
  obtain ⟨hok, jobs, rfl, hlast, hend, hsaved⟩ :=
    drain_whole isLog hstarts' hbound' hm (Site.succeeded past)
  obtain ⟨hok', jobs', rfl, hwhole, hend', hsaved'⟩ :=
    drain_whole (w := { config, offset := 0 }) isLog (.inl rfl) hbound hn []
  -- both ways lead to the end of the file, and there is only one
  have hsame := Progress.eq_of_reaches (hreaches.trans hlast) hwhole hend hend'
  obtain ⟨hworker, hjobs⟩ := Progress.mk.inj hsame
  dsimp only at hoffset
  refine ⟨hok, hok', hworker, hoffset ▸ hsaved, hsaved', ?_⟩
  have hreverse := congrArg List.reverse hjobs
  simpa using hreverse

/-- The first cycle finds a job without its line feed. In the second one the worker is stopped while the
job is processed, and the job fails. -/
theorem cycles_agree_broken_off :
    ∃ (j : Job) (s : Site) (past : List Site.Event) (w : Worker),
      Site.Run { running := .idle { config := {}, offset := 0 } } past s ∧ s.running = .idle w ∧
      Site.Event.asked ⟨.process j, Except.error (.note "busy")⟩ ∈ past ∧
      ((w.drain (s.content.length + 1)).log (answersFor s.content)).filterMap Exchange.success? =
        ((drain (s.content.length + 1) { config := {}, offset := 0 }).log
          (answersFor s.content)).filterMap Exchange.success? := by
  obtain ⟨j, hj, hone⟩ : ∃ j : Job, Job.ofLine j.line = .ok j ∧ Json.IsOneLine j.json :=
    ⟨jobOfKey "a", ofLine_jobOfKey (by decide), isOneLine_jobOfKey "a"⟩
  let w : Worker := { config := {}, offset := 0 }
  have hunfinished : j.json.getLast? ≠ some 10 := fun hlast => hone (List.mem_of_getLast? hlast)
  have hfirst := trace_bind_iff.2 ⟨_, _, _, rfl,
    (Drain.Begins.onward (w := w) (Nat.zero_le j.json.length) .opened).trace,
    (Drain.Turns.unfinished (d := { worker := w }) hunfinished).trace_turns (n := 0) rfl (.done _)⟩
  have hsecond := trace_bind_iff.2 ⟨_, _, _, rfl,
    (Drain.Begins.onward (w := w) (Nat.zero_le j.line.length) .opened).trace,
    (Drain.Turns.taken (d := { worker := w }) (Job.getLast?_line j) (.stopped (by simp) hj
      (by simp [Drain.isDuplicate, w]) (.note "busy"))).trace_turns (n := 0) rfl (.done _)⟩
  have hjson := (Site.Run.start (s := { running := .idle w })).step (.grows j.json)
  have hread := hjson.trans (Site.run_cycle rfl hfirst
    (Site.fits_of_first (firstLine_eq_self hone) (by simp)))
  have hfed := hread.step (.grows [10])
  have hstopped := hfed.trans (Site.run_cycle rfl hsecond
    (Site.fits_of_first (Job.hasLine_line hone).isFirst (by simp [Exchange.Fits])))
  have hlog : IsLog j.line := by
    intro o line hline
    rcases Nat.eq_zero_or_pos o with rfl | hpos
    · obtain rfl := hline.unique (Job.hasLine_line hone)
      exact .inr ⟨j, hj⟩
    · have hfirst := (Job.hasLine_line hone).next_le_of_lt hline.starts hpos
      have hsecond := hline.next_le
      have hlength := hline.length_pos
      omega
  obtain ⟨s, past, run, hidle, hcontent, hnone, hcalm, hbusy⟩ : ∃ (s : Site) (past : List Site.Event),
      Site.Run { running := .idle w } past s ∧ s.running = .idle w ∧ s.content = j.line ∧
      Site.succeeded past = [] ∧ (∀ e ∈ past, e.IsCalm) ∧
      .asked ⟨.process j, Except.error (.note "busy")⟩ ∈ past :=
    ⟨_, _, hstopped, rfl, rfl, rfl, by simp [Site.Event.IsCalm, Exchange.isUnsaved], by simp⟩
  have hjobs := (cycles_agree run hcalm hidle (hcontent ▸ hlog)
    (Nat.lt_succ_self _) (Nat.lt_succ_self _)).jobs_eq
  rw [hnone] at hjobs
  exact ⟨j, s, past, w, run, hidle, hbusy, hjobs⟩

end Worker
end AgentRelay

import AgentRelay.Proofs.Queue.Once
import AgentRelay.Proofs.Queue.Site

/-!
# Nothing is lost when a worker is gone

Workers come and go on one queue file, and each of them knows of its predecessors only the offset that
they have saved. Still no line is passed that needs work, none is handed over again that lies in front
of the saved offset, and a line succeeds again only because a worker was gone, or its offset was not
saved, between the success and the saving of it.

* `Site.succeededAt` counts the successes of a line, `Site.lapses` what lets it succeed again.
* `Site.Stands` is what a worker in a stage relies on, `Site.Recovers` what holds at every moment, and
  `Site.Counts` relates successes and lapses.
* `Site.recovers_from_crashes` is the result.
-/

namespace AgentRelay

open Script

/-! ### What a history tells -/

namespace Exchange

/-- The offset at which a line is read. -/
def read? : Exchange → Option Nat
  | ⟨.line _ offset, _⟩ => some offset
  | _ => none

end Exchange

namespace Site

namespace Event

/-- The offset at which a line is read. -/
def read? (e : Event) : Option Nat := e.exchange?.bind Exchange.read?

/-- The offset that is saved. -/
def saved? (e : Event) : Option Nat := e.exchange?.bind Exchange.saved?

/-- The saved offset from which a worker goes on. -/
def started? : Event → Option Nat
  | started offset => some offset
  | _ => none

/-- A worker is gone, or its offset is not saved. -/
def isLapse : Event → Bool
  | crashed => true
  | asked x => x.isUnsaved
  | _ => false

end Event

/-- Where the last line was read. -/
def lastRead (log : List Event) : Option Nat := log.findSome? Event.read?

/-- The saved offset when the last worker started. -/
def lastStart (log : List Event) : Option Nat := log.findSome? Event.started?

/-- How often the line at the offset has succeeded. The line of a job is the one read last. -/
def succeededAt (offset : Nat) : List Event → Nat
  | [] => 0
  | e :: log =>
    succeededAt offset log + if e.success?.isSome ∧ lastRead log = some offset then 1 else 0

/-- An offset that is not in front of `next` was saved. -/
def isPassed (next : Nat) (log : List Event) : Bool := log.any fun e => e.saved?.any (next ≤ ·)

/-- How often a worker was gone or an offset not saved after the line from `offset` to `next` had
succeeded and before it was passed. -/
def lapses (offset next : Nat) : List Event → Nat
  | [] => 0
  | e :: log =>
    lapses offset next log +
      if e.isLapse ∧ 0 < succeededAt offset log ∧ isPassed next log = false then 1 else 0

/-- A job with the key has succeeded. -/
def HasSuccess (log : List Event) (key : String) : Prop :=
  ∃ k, .asked ⟨.process k, Except.ok ()⟩ ∈ log ∧ k.key = key

/-- The line needs no further work: it holds nothing, or its job has succeeded, or one with the same key
has. -/
def IsSettled (log : List Event) (offset : Nat) (line : Bytes) : Prop :=
  IsBlankLine line ∨ ∃ j, Job.ofLine line = .ok j ∧
    (0 < succeededAt offset log ∨ j.key ≠ "" ∧ HasSuccess log j.key)

variable {log : List Event} {e : Event} {key : String} {offset next cursor : Nat}
  {content line : Bytes} {st st' : Stage} {v v' : View} {x : Exchange}

theorem HasSuccess.cons (h : HasSuccess log key) (e : Event) : HasSuccess (e :: log) key := by
  obtain ⟨k, hk, hkey⟩ := h
  exact ⟨k, List.mem_cons_of_mem e hk, hkey⟩

theorem succeededAt_le_cons (offset : Nat) (e : Event) (log : List Event) :
    succeededAt offset log ≤ succeededAt offset (e :: log) := Nat.le_add_right ..

theorem succeededAt_cons_of_none (h : e.success? = none) (offset : Nat) (log : List Event) :
    succeededAt offset (e :: log) = succeededAt offset log := by
  simp [succeededAt, h]

theorem lapses_cons_of_not (h : e.isLapse = false) (offset next : Nat) (log : List Event) :
    lapses offset next (e :: log) = lapses offset next log := by
  simp [lapses, h]

theorem isPassed_cons_of_none (h : e.saved? = none) (next : Nat) (log : List Event) :
    isPassed next (e :: log) = isPassed next log := by
  simp [isPassed, h]

theorem IsSettled.cons (h : IsSettled log offset line) (e : Event) :
    IsSettled (e :: log) offset line := by
  rcases h with hblank | ⟨j, hj, hpos | ⟨hkey, hsuccess⟩⟩
  · exact .inl hblank
  · exact .inr ⟨j, hj, .inl (Nat.lt_of_lt_of_le hpos (succeededAt_le_cons ..))⟩
  · exact .inr ⟨j, hj, .inr ⟨hkey, hsuccess.cons e⟩⟩

/-! ### What a worker relies on -/

/-- What is known of the line that the worker has in hand. -/
def KnowsLine (content : Bytes) (log : List Event) : Stage → Prop
  | .free _ => True
  | .holding w j next => lastRead log = some w.offset ∧
      ∃ line, HasLine content w.offset line ∧ next = w.offset + line.length ∧
        Job.ofLine line = .ok j
  | .passing w next =>
      ∃ line, HasLine content w.offset line ∧ next = w.offset + line.length ∧
        IsSettled log w.offset line

/-- What a worker in a stage relies on: it stands at the saved offset, not in front of the one from
which it started, and the keys that it has seen have succeeded. -/
structure Stands (content : Bytes) (cursor : Nat) (log : List Event) (st : Stage) : Prop where
  offset : st.worker.offset = cursor
  start : ∃ first, lastStart log = some first ∧ first ≤ cursor
  seen : ∀ key ∈ st.worker.seen, key ≠ "" ∧ HasSuccess log key
  line : KnowsLine content log st

theorem Stands.cons (h : Stands content cursor log st) (hread : e.read? = none)
    (hstart : e.started? = none) : Stands content cursor (e :: log) st := by
  obtain ⟨hoffset, hfirst, hseen, hline⟩ := h
  refine ⟨hoffset, ?_, fun key hkey => (hseen key hkey).imp_right (·.cons e), ?_⟩
  · simpa [lastStart, hstart] using hfirst
  · cases st with
    | free w => trivial
    | holding w j next => simpa [KnowsLine, lastRead, hread] using hline
    | passing w next =>
      obtain ⟨line, hhas, hnext, hsettled⟩ := hline
      exact ⟨line, hhas, hnext, hsettled.cons e⟩

theorem Stands.append (h : Stands content cursor log st) (more : Bytes) :
    Stands (content ++ more) cursor log st := by
  refine ⟨h.offset, h.start, h.seen, ?_⟩
  have hline := h.line
  cases st with
  | free w => trivial
  | holding w j next =>
    obtain ⟨hread, line, hhas, hrest⟩ := hline
    exact ⟨hread, line, hhas.append more, hrest⟩
  | passing w next =>
    obtain ⟨line, hhas, hrest⟩ := hline
    exact ⟨line, hhas.append more, hrest⟩

/-- Every move keeps what the worker relies on. -/
theorem Stands.moves (h : Stands content cursor log st) (hstarts : StartsLine content cursor)
    (hbound : cursor ≤ content.length) (hfits : x.Fits content cursor) (hmove : st.Moves x st') :
    Stands content (x.cursorAfter cursor) (.asked x :: log) st' := by
  obtain ⟨hoffset, hstart, hseen, hline⟩ := h
  have hseen' : ∀ key ∈ st.worker.seen, key ≠ "" ∧ HasSuccess (.asked x :: log) key :=
    fun key hkey => (hseen key hkey).imp_right (·.cons _)
  cases hmove with
  | looks w isLook =>
    rw [Exchange.cursorAfter, isLook.saved?]
    exact ⟨hoffset, hstart, hseen', trivial⟩
  | shrunk w isShort =>
    -- a file that only grows is never shorter than the saved offset
    obtain rfl := hfits _ rfl
    exact absurd isShort (Nat.not_lt.2 (hoffset ▸ hbound))
  | @skipped w path line isComplete skips =>
    obtain rfl : w.offset = cursor := hoffset
    have hhas : HasLine content w.offset line := ⟨hstarts, (hfits line rfl).symm, isComplete⟩
    refine ⟨rfl, hstart, hseen', line, hhas, rfl, ?_⟩
    rcases skips with hblank | ⟨j, hj, hdup⟩
    · exact .inl hblank
    · have hmem : j.key ∈ w.seen := by
        simp only [Drain.isDuplicate, Bool.and_eq_true, List.contains_iff_mem] at hdup
        exact hdup.2
      exact .inr ⟨j, hj, .inr (hseen' _ hmem)⟩
  | @found w path line j isComplete notBlank reads notSeen =>
    obtain rfl : w.offset = cursor := hoffset
    exact ⟨rfl, hstart, hseen', rfl, line, ⟨hstarts, (hfits line rfl).symm, isComplete⟩, rfl, reads⟩
  | succeeded w j next =>
    obtain ⟨hread, line, hhas, hnext, hj⟩ := hline
    have hsuccess : HasSuccess (.asked ⟨.process j, Except.ok ()⟩ :: log) j.key :=
      ⟨j, List.mem_cons_self, rfl⟩
    have hpos : 0 < succeededAt w.offset (.asked ⟨.process j, Except.ok ()⟩ :: log) := by
      simp [succeededAt, Event.success?, Event.exchange?, Exchange.success?, hread]
    have hsame := Drain.offset_remember w j.key
    have hmem : ∀ key ∈ (Drain.remember w j.key).seen, key ∈ w.seen ∨ key = j.key ∧ j.key ≠ "" :=
      fun _ => Drain.mem_remember
    generalize Drain.remember w j.key = w' at hsame hmem
    refine ⟨hsame.trans hoffset, hstart, fun key hkey => ?_, line, ?_, ?_, ?_⟩
    · rcases hmem key hkey with hkey | ⟨rfl, hne⟩
      · exact hseen' key hkey
      · exact ⟨hne, hsuccess⟩
    · rwa [hsame]
    · rwa [hsame]
    · rw [hsame]
      exact .inr ⟨j, hj, .inl hpos⟩
  | failed w j next cause => exact ⟨hoffset, hstart, hseen', trivial⟩
  | saved w next =>
    obtain ⟨line, -, rfl, -⟩ := hline
    obtain ⟨first, hfirst, hle⟩ := hstart
    obtain rfl : w.offset = cursor := hoffset
    exact ⟨rfl, ⟨first, hfirst, Nat.le_add_right_of_le hle⟩, hseen', trivial⟩
  | unsaved w next e => exact ⟨hoffset, hstart, hseen', trivial⟩

/-! ### No line is lost -/

/-- The job is that of the line read last, which does not start in front of the offset that was saved
when the worker started. -/
def IsInHand (content : Bytes) (past : List Event) (j : Job) : Prop :=
  ∃ first o line, lastStart past = some first ∧ lastRead past = some o ∧
    HasLine content o line ∧ Job.ofLine line = .ok j ∧ first ≤ o

theorem IsInHand.append {j : Job} (h : IsInHand content log j) (more : Bytes) :
    IsInHand (content ++ more) log j := by
  obtain ⟨first, o, line, hfirst, hread, hhas, hrest⟩ := h
  exact ⟨first, o, line, hfirst, hread, hhas.append more, hrest⟩

theorem Stands.isInHand {w : Worker} {j : Job} (h : Stands content cursor log (.holding w j next)) :
    IsInHand content log j := by
  obtain ⟨hoffset, ⟨first, hfirst, hle⟩, -, hread, line, hhas, -, hj⟩ := h
  exact ⟨first, _, line, hfirst, hread, hhas, hj, hoffset ▸ hle⟩

/-- What holds at every moment. -/
structure Recovers (v : View) (log : List Event) : Prop where
  starts : StartsLine v.content v.cursor
  bound : v.cursor ≤ v.content.length
  stands : ∀ st, v.stage = some st → Stands v.content v.cursor log st
  settled : ∀ o line, HasLine v.content o line → o < v.cursor → IsSettled log o line
  handed : ∀ post past j r, log = post ++ .asked ⟨.process j, r⟩ :: past →
    IsInHand v.content past j

/-- A job that is handed over belongs to the line read last. -/
theorem View.Step.handed (move : v.Step e v') (h : Recovers v log) (post past : List Event) (j : Job)
    (r : WorkerAnswer (.process j)) (hlog : e :: log = post ++ .asked ⟨.process j, r⟩ :: past) :
    IsInHand v'.content past j := by
  rcases List.cons_eq_append_iff.1 hlog with ⟨rfl, hhead⟩ | ⟨post', rfl, hpast⟩
  · obtain ⟨rfl, rfl⟩ := List.cons.inj hhead
    cases move with
    | @asked x st st' isAt fits moves =>
      have hstands := h.stands st isAt
      cases moves with
      | looks _ isLook => exact isLook.elim
      | succeeded w => exact hstands.isInHand
      | failed w => exact hstands.isInHand
  · have hold := h.handed _ _ _ _ hpast
    cases move with
    | grew more => exact hold.append more
    | _ => exact hold

/-- Every step keeps what holds at every moment. -/
theorem View.Step.recovers (move : v.Step e v') (h : Recovers v log) : Recovers v' (e :: log) := by
  have hhanded := move.handed h
  obtain ⟨hstarts, hbound, hstands, hsettled, -⟩ := h
  have hsettled' : ∀ o line, HasLine v.content o line → o < v.cursor → IsSettled (e :: log) o line :=
    fun o line hhas hlt => (hsettled o line hhas hlt).cons e
  cases move with
  | grew more =>
    refine ⟨hstarts.append more, ?_, fun st hst => ((hstands st hst).append more).cons rfl rfl, ?_,
      hhanded⟩
    · rw [List.length_append]
      exact Nat.le_add_right_of_le hbound
    · intro o line hhas hlt
      -- a new line stands behind the saved offset
      have hnext := hhas.next_le_of_lt (hstarts.append more) hlt
      exact hsettled' o line (hhas.of_append (Nat.le_trans hnext hbound)) hlt
  | started isOff =>
    refine ⟨hstarts, hbound, ?_, hsettled', hhanded⟩
    rintro st ⟨⟩
    exact ⟨rfl, ⟨v.cursor, rfl, Nat.le_refl _⟩, by simp [Stage.worker], trivial⟩
  | unstarted isOff => exact ⟨hstarts, hbound, by simp [isOff], hsettled', hhanded⟩
  | began => exact ⟨hstarts, hbound, fun st hst => (hstands st hst).cons rfl rfl, hsettled', hhanded⟩
  | rested => exact ⟨hstarts, hbound, fun st hst => (hstands st hst).cons rfl rfl, hsettled', hhanded⟩
  | ended => exact ⟨hstarts, hbound, by simp, hsettled', hhanded⟩
  | crashed => exact ⟨hstarts, hbound, by simp, hsettled', hhanded⟩
  | @asked x st st' isAt fits moves =>
    have hold := hstands st isAt
    have hnew : ∀ y, some st' = some y →
        Stands v.content (x.cursorAfter v.cursor) (.asked x :: log) y := by
      rintro _ ⟨⟩
      exact hold.moves hstarts hbound fits moves
    rcases moves.cursorAfter_cases v.cursor with hsame | ⟨w, next, rfl, hnext⟩
    · rw [hsame] at hnew ⊢
      exact ⟨hstarts, hbound, hnew, hsettled', hhanded⟩
    · rw [hnext] at hnew ⊢
      obtain ⟨line, hhas, rfl, hline⟩ := hold.line
      have hoffset : w.offset = v.cursor := hold.offset
      refine ⟨hhas.startsLine_next, hhas.next_le, hnew, fun o line' hhas' hlt => ?_, hhanded⟩
      -- the line that is passed is the only one between the old offset and the new one
      rcases Nat.lt_trichotomy o w.offset with hbefore | rfl | hbehind
      · exact hsettled' o line' hhas' (hoffset ▸ hbefore)
      · obtain rfl := hhas.unique hhas'
        exact hline.cons _
      · exact absurd hlt (Nat.not_lt.2 (hhas.next_le_of_lt hhas'.starts hbehind))

/-! ### What lets a line succeed again -/

/-- The worker is about to save the offset behind the line at `offset`. -/
def View.IsPassing (v : View) (offset : Nat) : Prop :=
  ∃ w next, v.stage = some (.passing w next) ∧ w.offset = offset

/-- Every success of a line but one was followed by a lapse. The one is under way to its saved offset or
has got there. -/
structure Counts (v : View) (log : List Event) : Prop where
  passed : ∀ next, 0 < next → (isPassed next log = true ↔ next ≤ v.cursor)
  hasLine : ∀ o, 0 < succeededAt o log → ∃ line, HasLine v.content o line
  count : ∀ o line, HasLine v.content o line →
    succeededAt o log ≤ lapses o (o + line.length) log + 1
  pending : ∀ o line, HasLine v.content o line → v.cursor < o + line.length → ¬ v.IsPassing o →
    succeededAt o log ≤ lapses o (o + line.length) log

theorem Counts.append (h : Counts v log) (more : Bytes) :
    Counts { v with content := v.content ++ more } log := by
  have hgone : ∀ o line, HasLine (v.content ++ more) o line →
      HasLine v.content o line ∨ succeededAt o log = 0 := by
    intro o line hhas
    rcases Nat.eq_zero_or_pos (succeededAt o log) with hzero | hpos
    · exact .inr hzero
    · obtain ⟨line', hhas'⟩ := h.hasLine o hpos
      obtain rfl := (hhas'.append more).unique hhas
      exact .inl hhas'
  refine ⟨h.passed, fun o hpos => ?_, fun o line hhas => ?_, fun o line hhas hlt hpassing => ?_⟩
  · obtain ⟨line, hhas⟩ := h.hasLine o hpos
    exact ⟨line, hhas.append more⟩
  · rcases hgone o line hhas with hhas | hzero
    · exact h.count o line hhas
    · omega
  · rcases hgone o line hhas with hhas | hzero
    · exact h.pending o line hhas hlt hpassing
    · omega

/-- An event that is neither a success nor a saved offset nor a lapse changes no number. -/
theorem Counts.quiet (h : Counts v log) {st : Option Stage} (hsuccess : e.success? = none)
    (hsaved : e.saved? = none) (hlapse : e.isLapse = false)
    (hstage : ∀ o, v.IsPassing o → View.IsPassing { v with stage := st } o) :
    Counts { v with stage := st } (e :: log) := by
  obtain ⟨hpassed, hhas, hcount, hpending⟩ := h
  constructor
  · simpa only [isPassed_cons_of_none hsaved] using hpassed
  · simpa only [succeededAt_cons_of_none hsuccess] using hhas
  · simpa only [succeededAt_cons_of_none hsuccess, lapses_cons_of_not hlapse] using hcount
  · simp only [succeededAt_cons_of_none hsuccess, lapses_cons_of_not hlapse]
    exact fun o line hline hlt hnot => hpending o line hline hlt fun hpassing => hnot (hstage o hpassing)

/-- After a lapse nothing is under way. -/
theorem Counts.lapse (h : Counts v log) {st : Option Stage} (hsuccess : e.success? = none)
    (hsaved : e.saved? = none) (hlapse : e.isLapse = true) :
    Counts { v with stage := st } (e :: log) := by
  obtain ⟨hpassed, hhas, hcount, -⟩ := h
  constructor
  · simpa only [isPassed_cons_of_none hsaved] using hpassed
  · simpa only [succeededAt_cons_of_none hsuccess] using hhas
  · intro o line hline
    rw [succeededAt_cons_of_none hsuccess, lapses]
    exact Nat.le_trans (hcount o line hline) (by omega)
  · intro o line hline hlt _
    rw [succeededAt_cons_of_none hsuccess, lapses, hlapse]
    rcases Nat.eq_zero_or_pos (succeededAt o log) with hzero | hpos
    · omega
    · have hnot : isPassed (o + line.length) log = false := by
        rw [← Bool.not_eq_true, hpassed _ (Nat.lt_of_le_of_lt (Nat.zero_le _) hlt)]
        exact Nat.not_le.2 hlt
      rw [if_pos ⟨rfl, hpos, hnot⟩]
      exact hcount o line hline

theorem Counts.succeeded {w : Worker} {j : Job} (h : Counts v log)
    (isAt : v.stage = some (.holding w j next))
    (hstands : Stands v.content v.cursor log (.holding w j next)) :
    Counts { v with stage := some (.passing (Drain.remember w j.key) next) }
      (.asked ⟨.process j, Except.ok ()⟩ :: log) := by
  obtain ⟨hread, line, hhas, -, -⟩ := hstands.line
  have hoffset : w.offset = v.cursor := hstands.offset
  have hsame := Drain.offset_remember w j.key
  have hcounts : ∀ o, succeededAt o (.asked ⟨.process j, Except.ok ()⟩ :: log) =
      succeededAt o log + if w.offset = o then 1 else 0 := by
    intro o
    simp [succeededAt, Event.success?, Event.exchange?, Exchange.success?, hread]
  generalize Drain.remember w j.key = w' at hsame
  constructor
  · simpa only [isPassed_cons_of_none (e := .asked ⟨.process j, Except.ok ()⟩) rfl] using h.passed
  · intro o hpos
    by_cases ho : w.offset = o
    · exact ⟨line, ho ▸ hhas⟩
    · rw [hcounts, if_neg ho] at hpos
      exact h.hasLine o hpos
  · intro o line' hline
    rw [hcounts, lapses_cons_of_not rfl]
    split
    next ho =>
      -- the line in hand was not under way yet
      have hlt : v.cursor < o + line'.length := by
        have hpos := hline.length_pos
        omega
      exact Nat.succ_le_succ (h.pending o line' hline hlt (by simp [View.IsPassing, isAt]))
    next => exact h.count o line' hline
  · intro o line' hline hlt hnot
    have ho : w.offset ≠ o := fun ho => hnot ⟨w', next, rfl, hsame.trans ho⟩
    rw [hcounts, if_neg ho, lapses_cons_of_not rfl]
    exact h.pending o line' hline hlt (by simp [View.IsPassing, isAt])

theorem Counts.saved {w : Worker} (h : Counts v log) (isAt : v.stage = some (.passing w next))
    (hstands : Stands v.content v.cursor log (.passing w next)) :
    Counts { v with cursor := next, stage := some (.free { w with offset := next }) }
      (.asked ⟨.saveCursor next, Except.ok ()⟩ :: log) := by
  obtain ⟨line, hhas, rfl, -⟩ := hstands.line
  have hoffset : w.offset = v.cursor := hstands.offset
  constructor
  · intro n hn
    have hcons : isPassed n (.asked ⟨.saveCursor (w.offset + line.length), Except.ok ()⟩ :: log) =
        (decide (n ≤ w.offset + line.length) || isPassed n log) := rfl
    rw [hcons, Bool.or_eq_true, decide_eq_true_iff, h.passed n hn]
    dsimp only
    omega
  · exact h.hasLine
  · exact h.count
  · intro o line' hline hlt _
    rw [succeededAt_cons_of_none rfl, lapses_cons_of_not rfl]
    dsimp only at hline hlt
    refine h.pending o line' hline (by omega) ?_
    -- the line that was under way is the one that is passed
    rintro ⟨w', next', hstage, rfl⟩
    obtain ⟨rfl, -⟩ := Stage.passing.inj (Option.some.inj (isAt.symm.trans hstage))
    obtain rfl := hhas.unique hline
    exact Nat.lt_irrefl _ hlt

theorem View.Step.counts (move : v.Step e v') (h : Recovers v log) (hc : Counts v log) :
    Counts v' (e :: log) := by
  cases move with
  | grew more => exact (hc.append more).quiet rfl rfl rfl fun _ => id
  | started isOff => exact hc.quiet rfl rfl rfl (by simp [View.IsPassing, isOff])
  | unstarted isOff => exact hc.quiet rfl rfl rfl fun _ => id
  | began => exact hc.quiet rfl rfl rfl fun _ => id
  | rested => exact hc.quiet rfl rfl rfl fun _ => id
  | ended isFree => exact hc.quiet rfl rfl rfl (by simp [View.IsPassing, isFree])
  | crashed => exact hc.lapse rfl rfl rfl
  | @asked x st st' isAt fits moves =>
    have hstands := h.stands st isAt
    cases moves with
    | looks w isLook =>
      rw [Exchange.cursorAfter, isLook.saved?]
      exact hc.quiet isLook.success? isLook.saved? isLook.isUnsaved (by simp [View.IsPassing, isAt])
    | shrunk w isShort =>
      obtain rfl := fits _ rfl
      exact absurd isShort (Nat.not_lt.2 (hstands.offset ▸ h.bound))
    | skipped w => exact hc.quiet rfl rfl rfl (by simp [View.IsPassing, isAt])
    | found w => exact hc.quiet rfl rfl rfl (by simp [View.IsPassing, isAt])
    | failed w => exact hc.quiet rfl rfl rfl (by simp [View.IsPassing, isAt])
    | unsaved w => exact hc.lapse rfl rfl rfl
    | succeeded w j next => exact hc.succeeded isAt hstands
    | saved w next => exact hc.saved isAt hstands

/-! ### Histories -/

theorem recovers_start (content : Bytes) : Recovers ⟨content, 0, none⟩ [] where
  starts := .inl rfl
  bound := Nat.zero_le _
  stands := by simp
  settled := by simp
  handed := by simp

theorem counts_start (content : Bytes) : Counts ⟨content, 0, none⟩ [] where
  passed := by simp [isPassed]; omega
  hasLine := by simp [succeededAt]
  count := by simp [succeededAt]
  pending := by simp [succeededAt]

/-- **Nothing is lost when a worker is gone.** Workers start one after the other on a queue file of which
nothing was read, while the file grows, each at the offset that is saved, and each may be gone after any
exchange. Then every line in front of the saved offset holds nothing, or its job has succeeded, or one
with the same key has. Every job that is handed over is that of a line which does not start in front of
the offset that was saved when its worker started. A line succeeds at most once more than a worker was
gone, or an offset not saved, after it had succeeded and before it was passed. -/
theorem recovers_from_crashes {content : Bytes} {s : Site} {log : List Event}
    (run : Run { content } log s) :
    (∀ o line, HasLine s.content o line → o < s.cursor → IsSettled log o line) ∧
    (∀ post past j r, log = post ++ .asked ⟨.process j, r⟩ :: past →
      ∃ first o line, lastStart past = some first ∧ lastRead past = some o ∧
        HasLine s.content o line ∧ Job.ofLine line = .ok j ∧ first ≤ o) ∧
    (∀ o line, HasLine s.content o line →
      succeededAt o log ≤ 1 + lapses o (o + line.length) log) := by
  have hstart : Has { content } ⟨content, 0, none⟩ := ⟨rfl, rfl, rfl⟩
  obtain ⟨v, ⟨hcontent, hcursor, -⟩, hrecovers, hcounts⟩ := run.exists_view
    (P := fun v log => Recovers v log ∧ Counts v log) hstart
    ⟨recovers_start content, counts_start content⟩
    fun move h => ⟨move.recovers h.1, move.counts h.1 h.2⟩
  rw [← hcontent, ← hcursor]
  exact ⟨hrecovers.settled, hrecovers.handed, fun o line hline => by
    rw [Nat.add_comm]
    exact hcounts.count o line hline⟩

/-- A worker is gone right after a job has succeeded. The next one goes on in front of the job, and it
succeeds again. -/
theorem recovers_from_crashes_twice :
    ∃ (j : Job) (s : Site) (log : List Event), Run { content := j.line } log s ∧
      succeededAt 0 log = 2 ∧ 0 < lapses 0 j.line.length log := by
  obtain ⟨j, hj, hline⟩ : ∃ j : Job, Job.ofLine j.line = .ok j ∧ HasLine j.line 0 j.line :=
    ⟨Worker.jobOfKey "a", Worker.ofLine_jobOfKey (by decide),
      Job.hasLine_line (Worker.isOneLine_jobOfKey "a")⟩
  let w : Worker := { config := {}, offset := 0 }
  have hbegins := Drain.Begins.onward (w := w) (Nat.zero_le j.line.length) .opened
  have htakes := Drain.Turns.taken (d := { worker := w }) (Job.getLast?_line j)
    (.processed (by simp) hj (by simp [Drain.isDuplicate, w]) .saved)
  have htrace := trace_bind_iff.2
    ⟨_, _, _, rfl, hbegins.trace, htakes.trace_turns (n := 0) rfl (.done _)⟩
  -- a worker starts, has the job processed and is gone
  have hloads : Trace (Worker.start {}) [⟨.loadCursor, Except.ok 0⟩] (.ok w) :=
    trace_start (by decide) (by decide) 0
  have hstarts := (Run.start (s := { content := j.line })).step
    (.starts rfl hloads (List.forall_mem_singleton.2 fun _ h => (Except.ok.inj h).symm))
  have hasked : Trace (w.drain 1)
      ([⟨.isCancelled, false⟩, ⟨.size w.config.queuePath, Except.ok j.line.length⟩,
        ⟨.openQueue w.config.queuePath, Except.ok ()⟩, ⟨.isCancelled, false⟩,
        ⟨.line w.config.queuePath 0, Except.ok j.line⟩, ⟨.process j, Except.ok ()⟩] ++ [_]) _ := htrace
  obtain ⟨rest, -, hasks⟩ :=
    run_of_trace (s := { content := j.line, running := .draining (w.drain 1) }) hasked rfl
      (fits_of_first hline.isFirst (by simp [Exchange.Fits]))
  have hgone := ((hstarts.step (.begins rfl 1)).trans hasks).step (.crashes (by simp))
  -- so is the next one
  have run := hgone.trans hgone
  have hcount : 2 ≤ 1 + lapses 0 (0 + j.line.length) _ := (recovers_from_crashes run).2.2 0 j.line hline
  rw [Nat.zero_add] at hcount
  exact ⟨j, _, _, run, rfl, by omega⟩

end Site
end AgentRelay

import AgentRelay.Script
import Mathlib.Tactic.Common

/-!
# Traces of scripts

A trace is what a script asked and was answered, in order. A script has one trace for every way in
which its surroundings may answer, so what holds of all traces holds whatever the surroundings do.

* `Script.Trace s log a`: the script was done with `a` after the exchanges in `log`.
* `trace_bind_iff` cuts the trace of two scripts in a row.
* `Script.log` is the trace for fixed answers, `trace_eval` says so.
* `Script.Yields` is what a script ends with when its answers are good.
* `Script.exists_trace_run` is the trace of a script that is run in a monad with a state.
* `Script.Follows` is a script that makes the moves of a machine, however it is answered.
* `Script.Asks` is a question that a script asks when it is answered in some way.
-/

namespace AgentRelay.Script

variable {Q : Type} {R : Q → Type} {α β : Type}

/-- The script was done with a result after these questions and answers. -/
inductive Trace : Script Q R α → List (Sigma R) → α → Prop
  | done (a : α) : Trace (done a) [] a
  | ask {q : Q} {next : R q → Script Q R α} {log : List (Sigma R)} {a : α} (r : R q)
      (rest : Trace (next r) log a) : Trace (ask q next) (⟨q, r⟩ :: log) a

@[simp] theorem trace_done_iff {a b : α} {log : List (Sigma R)} :
    Trace (done a : Script Q R α) log b ↔ log = [] ∧ b = a := by
  constructor
  · rintro ⟨⟩
    exact ⟨rfl, rfl⟩
  · rintro ⟨rfl, rfl⟩
    exact .done b

@[simp] theorem trace_ask_iff {q : Q} {next : R q → Script Q R α} {log : List (Sigma R)} {a : α} :
    Trace (ask q next) log a ↔ ∃ r rest, log = ⟨q, r⟩ :: rest ∧ Trace (next r) rest a := by
  constructor
  · rintro ⟨⟩
    exact ⟨_, _, rfl, ‹_›⟩
  · rintro ⟨r, rest, rfl, h⟩
    exact .ask r h

/-- The trace of two scripts in a row is a trace of the first and then one of the second. -/
theorem trace_bind_iff {s : Script Q R α} {f : α → Script Q R β} {log : List (Sigma R)} {b : β} :
    Trace (s.bind f) log b ↔
      ∃ log₁ a log₂, log = log₁ ++ log₂ ∧ Trace s log₁ a ∧ Trace (f a) log₂ b := by
  induction s generalizing log with
  | done a => simp
  | ask q next ih =>
    simp only [bind_ask, trace_ask_iff, ih]
    constructor
    · rintro ⟨r, _, rfl, log₁, a, log₂, rfl, h₁, h₂⟩
      exact ⟨⟨q, r⟩ :: log₁, a, log₂, rfl, ⟨r, log₁, rfl, h₁⟩, h₂⟩
    · rintro ⟨_, a, log₂, rfl, ⟨r, log₁, rfl, h₁⟩, h₂⟩
      exact ⟨r, log₁ ++ log₂, rfl, log₁, a, log₂, rfl, h₁, h₂⟩

/-! ### Fixed answers -/

/-- What a script asks and is answered when the answers are fixed. -/
def log (answer : (q : Q) → R q) : Script Q R α → List (Sigma R)
  | done _ => []
  | ask q next => ⟨q, answer q⟩ :: (next (answer q)).log answer

/-- A script has a trace for any fixed answers. -/
theorem trace_eval (answer : (q : Q) → R q) (s : Script Q R α) :
    Trace s (s.log answer) (s.eval answer) := by
  induction s with
  | done a => exact .done a
  | ask q next ih => exact .ask (answer q) (ih (answer q))

/-- In that trace every answer is the fixed one. -/
theorem answer_of_mem_log {answer : (q : Q) → R q} {s : Script Q R α} {x : Sigma R}
    (h : x ∈ s.log answer) : x.2 = answer x.1 := by
  induction s with
  | done a => cases h
  | ask q next ih =>
    rcases List.mem_cons.1 h with rfl | h
    · rfl
    · exact ih (answer q) h

/-! ### Good answers -/

/-- Whenever all answers are good, the script ends with a result that satisfies `P`. -/
def Yields (good : (q : Q) → R q → Prop) (P : α → Prop) : Script Q R α → Prop
  | done a => P a
  | ask q next => ∀ r, good q r → (next r).Yields good P

theorem Yields.of_trace {good : (q : Q) → R q → Prop} {P : α → Prop} {s : Script Q R α}
    {log : List (Sigma R)} {a : α} (h : s.Yields good P) (htrace : Trace s log a)
    (hlog : ∀ x ∈ log, good x.1 x.2) : P a := by
  induction htrace with
  | done a => exact h
  | @ask q next log a r rest ih =>
    obtain ⟨hr, hrest⟩ := List.forall_mem_cons.1 hlog
    exact ih (h r hr) hrest

theorem Yields.bind {good : (q : Q) → R q → Prop} {P : α → Prop} {P' : β → Prop} {s : Script Q R α}
    {f : α → Script Q R β} (h : s.Yields good P) (hf : ∀ a, P a → (f a).Yields good P') :
    (s.bind f).Yields good P' := by
  induction s with
  | done a => exact hf a h
  | ask q next ih => exact fun r hr => ih r (h r hr)

theorem Yields.mono {good : (q : Q) → R q → Prop} {P P' : α → Prop} {s : Script Q R α} (h : s.Yields good P)
    (hP : ∀ a, P a → P' a) : s.Yields good P' := by
  induction s with
  | done a => exact hP a h
  | ask q next ih => exact fun r hr => ih r (h r hr)

/-- A script can always be given good answers to its end when every question has one. -/
theorem exists_trace {good : (q : Q) → R q → Prop} (hgood : ∀ q, ∃ r, good q r)
    (s : Script Q R α) : ∃ log a, Trace s log a ∧ ∀ x ∈ log, good x.1 x.2 := by
  induction s with
  | done a => exact ⟨[], a, .done a, by simp⟩
  | ask q next ih =>
    obtain ⟨r, hr⟩ := hgood q
    obtain ⟨log, a, htrace, hlog⟩ := ih r
    exact ⟨⟨q, r⟩ :: log, a, .ask r htrace, List.forall_mem_cons.2 ⟨hr, hlog⟩⟩

/-! ### Runs -/

variable {σ : Type}

theorem run_bind_eq {x : StateM σ α} {f : α → StateM σ β} {a : α} {state state' : σ}
    (h : x.run state = (a, state')) : (x >>= f).run state = (f a).run state' := by
  rw [StateT.run_bind, h]
  rfl

/-- A run has a trace, and its answers are good when the surroundings answer well in every state. -/
theorem exists_trace_run {good : (q : Q) → R q → Prop} {answer : (q : Q) → StateM σ (R q)}
    (hgood : ∀ q state, good q ((answer q).run state).1) (s : Script Q R α) (state : σ) :
    ∃ log, Trace s log ((s.run answer).run state).1 ∧ ∀ x ∈ log, good x.1 x.2 := by
  induction s generalizing state with
  | done a => exact ⟨[], .done a, by simp⟩
  | ask q next ih =>
    rcases hanswer : (answer q).run state with ⟨r, state'⟩
    have hr : good q r := by simpa [hanswer] using hgood q state
    obtain ⟨log, htrace, hlog⟩ := ih r state'
    refine ⟨⟨q, r⟩ :: log, ?_, List.forall_mem_cons.2 ⟨hr, hlog⟩⟩
    rw [run, run_bind_eq hanswer]
    exact .ask r htrace

/-! ### Machines -/

variable {S : Type}

/-- Every exchange of the script is a move of the machine, which stands at the end where the result says. -/
def Follows (moves : S → Sigma R → S → Prop) (post : α → S → Prop) : Script Q R α → S → Prop
  | done a, x => post a x
  | ask q next, x => ∀ r, ∃ y, moves x ⟨q, r⟩ y ∧ (next r).Follows moves post y

theorem Follows.bind {moves : S → Sigma R → S → Prop} {post : α → S → Prop}
    {post' : β → S → Prop}
    {s : Script Q R α} {f : α → Script Q R β} {x : S} (h : s.Follows moves post x)
    (hf : ∀ a y, post a y → (f a).Follows moves post' y) : (s.bind f).Follows moves post' x := by
  induction s generalizing x with
  | done a => exact hf a x h
  | ask q next ih =>
    intro r
    obtain ⟨y, hmove, hrest⟩ := h r
    exact ⟨y, hmove, ih r hrest⟩

/-- What all moves keep holds at the end, of the machine and of what the exchanges have made of a value. -/
theorem Follows.exists_end {γ : Type} {moves : S → Sigma R → S → Prop} {post : α → S → Prop}
    {I : S → γ → Prop} {f : γ → Sigma R → γ}
    (hmoves : ∀ {x y c e}, moves x e y → I x c → I y (f c e)) {s : Script Q R α} {x : S}
    {log : List (Sigma R)} {a : α} {c : γ} (h : s.Follows moves post x) (htrace : Trace s log a) (hx : I x c) :
    ∃ y, post a y ∧ I y (log.foldl f c) := by
  induction htrace generalizing x c with
  | done a => exact ⟨x, h, hx⟩
  | ask r rest ih =>
    obtain ⟨y, hmove, hrest⟩ := h r
    exact ih hrest (hmoves hmove hx)

/-! ### Questions -/

/-- The script comes to the question when it is answered in some way. -/
inductive Asks (q : Q) : Script Q R α → Prop
  | now (next : R q → Script Q R α) : Asks q (ask q next)
  | later {q' : Q} {next : R q' → Script Q R α} (r : R q') (rest : Asks q (next r)) : Asks q (ask q' next)

/-- What all answers leave alone, a run leaves alone. -/
theorem run_keeps {I : σ → Prop} {answer : (q : Q) → StateM σ (R q)} {s : Script Q R α}
    (h : ∀ q, s.Asks q → ∀ state, I state → I ((answer q).run state).2) {state : σ} (hstate : I state) :
    I ((s.run answer).run state).2 := by
  induction s generalizing state with
  | done a => exact hstate
  | ask q next ih =>
    rcases hanswer : (answer q).run state with ⟨r, state'⟩
    have hkept : I state' := by simpa [hanswer] using h q (.now next) state hstate
    rw [run, run_bind_eq hanswer]
    exact ih r (fun q' hq' => h q' (.later r hq')) hkept

end AgentRelay.Script

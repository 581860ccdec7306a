/-!
# Programs that ask their surroundings

A part of this library that acts on the outside world is a script: it is done with a result, or it
asks a question and goes on with the answer. What a script does is what it asks and how it
goes on; who answers is not its concern, so one script serves a running program and a statement
about every possible behaviour of its surroundings.

* `Script` is a finite tree of questions, `Script.bind` runs two in a row.
* `Script.run` answers the questions in a monad, `Script.eval` answers each with a fixed value.
-/

namespace AgentRelay

/-- A program that asks questions from `Q`; the answer to `q` has the type `R q`. -/
inductive Script (Q : Type) (R : Q → Type) (α : Type) : Type
  | done (result : α)
  | ask (question : Q) (next : R question → Script Q R α)

namespace Script

variable {Q : Type} {R : Q → Type} {α β : Type}

/-- Runs a second script on the result of the first. -/
def bind (s : Script Q R α) (f : α → Script Q R β) : Script Q R β :=
  match s with
  | done a => f a
  | ask q next => ask q fun r => (next r).bind f

instance : Monad (Script Q R) where
  pure := done
  bind := bind

/-- Runs a script; every question is answered in `m`. -/
def run {m : Type → Type} [Monad m] (answer : (q : Q) → m (R q)) : Script Q R α → m α
  | done a => pure a
  | ask q next => do
    let r ← answer q
    (next r).run answer

/-- Runs a script whose questions have fixed answers. -/
def eval (answer : (q : Q) → R q) : Script Q R α → α
  | done a => a
  | ask q next => (next (answer q)).eval answer

@[simp] theorem bind_done (a : α) (f : α → Script Q R β) : (done a).bind f = f a := rfl

@[simp] theorem bind_ask (q : Q) (next : R q → Script Q R α) (f : α → Script Q R β) :
    (ask q next).bind f = ask q fun r => (next r).bind f := rfl

@[simp] theorem bind_right_done (s : Script Q R α) : s.bind done = s := by
  induction s with
  | done a => rfl
  | ask q next ih => simp only [bind_ask, ih]

theorem run_eq_eval (answer : (q : Q) → R q) (s : Script Q R α) :
    s.run (fun q => (pure (answer q) : Id (R q))) = pure (s.eval answer) := by
  induction s with
  | done a => rfl
  | ask q next ih => exact ih (answer q)

theorem bind_assoc {γ : Type} (s : Script Q R α) (f : α → Script Q R β) (g : β → Script Q R γ) :
    (s.bind f).bind g = s.bind fun a => (f a).bind g := by
  induction s with
  | done a => rfl
  | ask q next ih => simp only [bind_ask, ih]

end Script
end AgentRelay

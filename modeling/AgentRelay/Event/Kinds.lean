/-!
# Named values of an event

Actions, states and content kinds are names on the wire. A name outside the known ones is kept as
it is, so that an event can be read before it is judged. What the three have in common is said once,
over the known values of each.

* `Vocabulary` gives every known value a name of its own.
* `WireName` is a known value or any other name; `WireName.ofName` reads one and `WireName.name`
  writes it.
* `EventAction`, `SessionState` and `ContentKind` are the names in use.
-/

namespace AgentRelay

/-- Values that have names of their own. -/
class Vocabulary (κ : Type) where
  /-- The values, in order. -/
  values : List κ
  /-- The name of a value. -/
  spelling : κ → String
  /-- Every value is in the list, and is the first one there that has its name. -/
  find?_spelling : ∀ k, values.find? (fun k' => spelling k' = spelling k) = some k

/-- A name on the wire. -/
inductive WireName (κ : Type)
  | known (value : κ)
  | unknown (name : String)
  deriving DecidableEq

namespace WireName

variable {κ : Type}

instance : Inhabited (WireName κ) := ⟨unknown ""⟩

/-- One of the known values. -/
def isKnown : WireName κ → Bool
  | known _ => true
  | unknown _ => false

variable [Vocabulary κ]

/-- The name as it is written. -/
def name : WireName κ → String
  | known value => Vocabulary.spelling value
  | unknown name => name

/-- What a name stands for. -/
def ofName (name : String) : WireName κ :=
  match Vocabulary.values.find? fun k : κ => Vocabulary.spelling k = name with
  | some value => known value
  | none => unknown name

/-- A value is the one its name stands for. -/
def IsNamed (w : WireName κ) : Prop := ofName w.name = w

@[simp] theorem name_ofName (s : String) : (ofName s : WireName κ).name = s := by
  unfold ofName
  split
  next value hvalue => simpa [name] using List.find?_some hvalue
  next => rfl

end WireName

/-! ### Actions -/

/-- What may happen to a session. -/
inductive KnownAction
  | created
  | prompted
  deriving DecidableEq

instance : Vocabulary KnownAction where
  values := [.created, .prompted]
  spelling
    | .created => "created"
    | .prompted => "prompted"
  find?_spelling k := by cases k <;> rfl

/-- What happened to a session. -/
abbrev EventAction := WireName KnownAction

/-! ### States -/

/-- The states that a session goes through. -/
inductive KnownState
  | pending
  | active
  | awaitingInput
  | complete
  | error
  deriving DecidableEq

instance : Vocabulary KnownState where
  values := [.pending, .active, .awaitingInput, .complete, .error]
  spelling
    | .pending => "pending"
    | .active => "active"
    | .awaitingInput => "awaitingInput"
    | .complete => "complete"
    | .error => "error"
  find?_spelling k := by cases k <;> rfl

/-- The state of a session on the tracker. -/
abbrev SessionState := WireName KnownState

/-! ### Kinds of content -/

/-- What an activity may say. -/
inductive KnownKind
  | thought
  | elicitation
  | action
  | response
  | error
  | prompt
  deriving DecidableEq

instance : Vocabulary KnownKind where
  values := [.thought, .elicitation, .action, .response, .error, .prompt]
  spelling
    | .thought => "thought"
    | .elicitation => "elicitation"
    | .action => "action"
    | .response => "response"
    | .error => "error"
    | .prompt => "prompt"
  find?_spelling k := by cases k <;> rfl

/-- What an activity says. -/
abbrev ContentKind := WireName KnownKind

/-- The state a session moves to after an activity of this kind. -/
def ContentKind.nextState : ContentKind → SessionState
  | .known .elicitation => .known .awaitingInput
  | .known .response => .known .complete
  | .known .error => .known .error
  | _ => .known .active

end AgentRelay

import AgentRelay.Event.Wire
import AgentRelay.Tracker.Error

/-!
# What the program says on a session

Of the kinds of content that exist, the program itself uses three: a thought, an action and a
response.

* `Utterance.check` refuses what has no text, `Utterance.json` is the written form.
* `Utterance.content` is the same thing as the tracker will tell it.
* `Post` is an utterance with its session and its idempotency key.
-/

namespace AgentRelay

open Json

/-- Something to say on a session. -/
inductive Utterance
  | thought (body : String)
  | action (label : String) (parameter : String) (result : Option String)
  | response (body : String)
  deriving DecidableEq

namespace Utterance

/-- The content that the tracker makes of it. -/
def content : Utterance → Content
  | thought body => { kind := .known .thought, body }
  | action label parameter result => { kind := .known .action, action := label, parameter, result }
  | response body => { kind := .known .response, body }

/-- A thought and a response need a body, an action needs a label and a parameter. -/
def check : Utterance → Except ContentError Unit
  | thought body | response body =>
    if Text.isBlankText body then .error .bodyRequired else .ok ()
  | action label parameter _ =>
    if Text.isBlankText label then .error .actionLabelRequired
    else if Text.isBlankText parameter then .error .actionParameterRequired
    else .ok ()

/-- The written form, its members in the order of their names. -/
def json : Utterance → Bytes
  | thought body => object [member "body" (quote body), member "type" (quote "thought")]
  | action label parameter result =>
    object ([member "action" (quote label), member "parameter" (quote parameter)] ++
      optional "result" quote result ++ [member "type" (quote "action")])
  | response body => object [member "body" (quote body), member "type" (quote "response")]

end Utterance

/-- An utterance on a session. The key makes a repeated post land on the same activity. -/
structure Post where
  sessionId : String
  key : String
  utterance : Utterance
  deriving DecidableEq

/-- Links to be shown on a session. -/
structure LinkUpdate where
  sessionId : String
  urls : List ExternalUrl
  deriving DecidableEq

/-- A post needs a session, a key and content that obeys the rules. -/
def Post.check (p : Post) : Except Tracker.Error Unit :=
  if Text.isBlankText p.sessionId then .error .sessionIdRequired
  else if Text.isBlankText p.key then .error .idempotencyKeyRequired
  else p.utterance.check.mapError .content

end AgentRelay

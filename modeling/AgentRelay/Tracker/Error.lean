import AgentRelay.Event.Rules

/-!
# Failures of calls to the tracker

A call can be refused before anything is sent, get no answer, or get an answer that does not
confirm it. Where a failure belongs to an exchange, it names the operation.
-/

namespace AgentRelay.Tracker

/-- Why there was no complete reply, as the transport says it. -/
structure TransportFault where
  text : String
  /-- The texts of the causes behind it. -/
  sources : List String := []
  deriving DecidableEq

/-- Why a call to the tracker failed. -/
inductive Error
  | endpointRequired
  | tokenRequired
  | sessionIdRequired
  | idempotencyKeyRequired
  /-- The content breaks the rules that incoming content obeys too. -/
  | content (error : ContentError)
  /-- There was no complete reply. -/
  | transport (operation : String) (fault : TransportFault)
  | status (operation : String) (code : Nat) (body : String)
  | graphQl (operation : String) (messages : String)
  /-- The tracker answered that it did nothing. -/
  | unsuccessful (operation : String)
  | missingIdentifier (operation : String) (what : String)
  | decode (operation : String) (fault : Json.Fault)
  | cancelled (operation : String)
  deriving DecidableEq

namespace Error

/-- The wording of a failure. -/
def message : Error → String
  | endpointRequired => "agent activity endpoint is required"
  | tokenRequired => "agent activity token is required"
  | sessionIdRequired => "agent session id is required"
  | idempotencyKeyRequired => "idempotency key is required"
  | content error => error.message
  | transport operation fault => "send " ++ operation ++ ": " ++ fault.text
  | status operation code body => s!"{operation} http {code}: {body}"
  | graphQl operation messages => operation ++ " graphql errors: " ++ messages
  | unsuccessful operation => operation ++ " unsuccessful"
  | missingIdentifier operation what => s!"{operation} missing {what} id"
  | decode operation fault => "decode " ++ operation ++ " response: " ++ fault.message
  | cancelled operation => operation ++ " cancelled"

/-- The texts of the causes that a failure was made from. -/
def sources : Error → List String
  | transport _ fault => fault.text :: fault.sources
  | decode _ fault => [fault.message]
  | _ => []

end Error
end AgentRelay.Tracker

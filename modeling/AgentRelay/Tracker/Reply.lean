import AgentRelay.Json.Reader
import AgentRelay.Text.Blank
import AgentRelay.Text.Lossy
import AgentRelay.Tracker.Error

/-!
# Replies of the tracker

A reply is a status and a body that arrives in chunks. Only the first mebibyte of the body is
looked at. It holds an envelope with the data and the errors of the request.

* `readLimited` collects the chunks up to a limit.
* `Envelope` is the body, `Confirmation` is what a mutation answers.
* `Reply.data` finds the data of a reply; errors in the envelope come before the status.
-/

namespace AgentRelay.Tracker

open Json

/-- A reply as it arrives. -/
structure Reply where
  status : Nat
  chunks : List Bytes
  /-- What the transport says when the connection breaks after the last chunk. -/
  broken : Option TransportFault := none
  deriving DecidableEq

/-! ### The body -/

/-- The most bytes of a body that are read. -/
def bodyLimit : Nat := 1048576

/-- Why a body could not be read. -/
inductive ReadFault
  /-- The connection broke before the body or the limit ended. -/
  | broken (fault : TransportFault)
  /-- More bytes than the limit were collected already. -/
  | overrun
  deriving DecidableEq

/-- What the transport says of it. -/
def ReadFault.transport : ReadFault → TransportFault
  | broken fault => fault
  | overrun => { text := "attempt to subtract with overflow" }

/-- Appends chunks to `body` until the limit is reached. -/
def collect (limit : Nat) (broken : Option TransportFault) (body : Bytes) :
    List Bytes → Except ReadFault Bytes
  | [] =>
    match broken with
    | some fault => .error (.broken fault)
    | none => .ok body
  | chunk :: chunks =>
    if limit < body.length then .error .overrun
    else
      let room := limit - body.length
      if room ≤ chunk.length then .ok (body ++ chunk.take room)
      else collect limit broken (body ++ chunk) chunks

/-- The first `limit` bytes of chunks. -/
def readLimited (limit : Nat) (chunks : List Bytes) (broken : Option TransportFault) :
    Except ReadFault Bytes :=
  collect limit broken [] chunks

/-! ### The envelope -/

/-- What a reply holds. -/
structure Envelope (α : Type) where
  data : Option α := none
  /-- The messages of the errors. -/
  errors : List String := []

/-- Reads the message of an error. -/
def errorReader : Reader String :=
  record "GraphQlErrorEntry" [field "message" string fun v _ => v] ""

/-- Reads an envelope whose data `r` reads. -/
def Envelope.reader {α : Type} (r : Reader α) : Reader (Envelope α) :=
  record "GraphQlEnvelope"
    [field "data" (nullable r) fun v e => { e with data := v },
     field "errors" (list errorReader) fun v e => { e with errors := v }] {}

/-- What a mutation answers: whether it was done, and the id of what it was done to. -/
structure Confirmation where
  success : Bool := false
  id : Option String := none
  deriving DecidableEq

/-- Reads an object for the sake of its id. -/
def idReader : Reader String := record "IdNode" [field "id" string fun v _ => v] ""

/-- Reads the answer of a mutation. -/
def Confirmation.reader : Reader Confirmation :=
  record "MutationResult"
    [field "success" boolean fun v c => { c with success := v },
     ⟨"node", ["agentActivity", "agentSession"],
       (nullable idReader).map fun v c => { c with id := v }⟩] {}

/-- Reads the data of a request with one mutation. -/
def mutationReader (structName mutation : String) : Reader (Option Confirmation) :=
  record structName [field mutation (nullable Confirmation.reader) fun v _ => v] none

/-- The messages of errors in one text. -/
def joinErrors (messages : List String) : String :=
  match messages.filterMap Text.filled? with
  | [] => "unknown graphql error"
  | messages => "; ".intercalate messages

/-! ### The status -/

/-- The reason phrases of the status codes in use. -/
def reasons : List (Nat × String) :=
  [(100, "Continue"), (101, "Switching Protocols"), (102, "Processing"), (200, "OK"),
   (201, "Created"), (202, "Accepted"), (203, "Non Authoritative Information"),
   (204, "No Content"), (205, "Reset Content"), (206, "Partial Content"), (207, "Multi-Status"),
   (208, "Already Reported"), (226, "IM Used"), (300, "Multiple Choices"),
   (301, "Moved Permanently"), (302, "Found"), (303, "See Other"), (304, "Not Modified"),
   (305, "Use Proxy"), (307, "Temporary Redirect"), (308, "Permanent Redirect"),
   (400, "Bad Request"), (401, "Unauthorized"), (402, "Payment Required"), (403, "Forbidden"),
   (404, "Not Found"), (405, "Method Not Allowed"), (406, "Not Acceptable"),
   (407, "Proxy Authentication Required"), (408, "Request Timeout"), (409, "Conflict"),
   (410, "Gone"), (411, "Length Required"), (412, "Precondition Failed"),
   (413, "Payload Too Large"), (414, "URI Too Long"), (415, "Unsupported Media Type"),
   (416, "Range Not Satisfiable"), (417, "Expectation Failed"), (418, "I'm a teapot"),
   (421, "Misdirected Request"), (422, "Unprocessable Entity"), (423, "Locked"),
   (424, "Failed Dependency"), (425, "Too Early"), (426, "Upgrade Required"),
   (428, "Precondition Required"), (429, "Too Many Requests"),
   (431, "Request Header Fields Too Large"), (451, "Unavailable For Legal Reasons"),
   (500, "Internal Server Error"), (501, "Not Implemented"), (502, "Bad Gateway"),
   (503, "Service Unavailable"), (504, "Gateway Timeout"), (505, "HTTP Version Not Supported"),
   (506, "Variant Also Negotiates"), (507, "Insufficient Storage"), (508, "Loop Detected"),
   (510, "Not Extended"), (511, "Network Authentication Required")]

/-- The reason phrase of a status code, empty when it has none. -/
def reason (status : Nat) : String := (reasons.lookup status).getD ""

/-- A status that says the request was carried out. -/
def isSuccess (status : Nat) : Bool := 200 ≤ status && status < 300

/-- What a failing status says: the body, or the reason phrase when the body is blank. -/
def statusBody (status : Nat) (body : Bytes) : String :=
  (Text.filled? (Text.lossy body)).getD (reason status)

/-! ### Judging a reply -/

/-- Reads an envelope; no body at all is an empty envelope. -/
def decodeEnvelope {α : Type} (operation : String) (r : Reader α) (body : Bytes) :
    Except Error (Envelope α) :=
  if body.isEmpty then .ok {}
  else (readAll (Envelope.reader r) body).mapError (.decode operation)

/-- The data of a body that came with a status. -/
def judge {α : Type} (operation : String) (r : Reader α) (status : Nat) (body : Bytes) :
    Except Error (Option α) :=
  match decodeEnvelope operation r body with
  | .error e => .error e
  | .ok envelope =>
    if !envelope.errors.isEmpty then .error (.graphQl operation (joinErrors envelope.errors))
    else if !isSuccess status then .error (.status operation status (statusBody status body))
    else .ok envelope.data

/-- The data of a reply. -/
def Reply.data {α : Type} (operation : String) (r : Reader α) (reply : Reply) :
    Except Error (Option α) :=
  match readLimited bodyLimit reply.chunks reply.broken with
  | .error fault => .error (.transport operation fault.transport)
  | .ok body => judge operation r reply.status body

/-- The id that a mutation confirms. The tracker must say that it was done, and to what. -/
def Confirmation.id? (operation what : String) (c : Confirmation) : Except Error String :=
  if !c.success then .error (.unsuccessful operation)
  else match c.id.bind Text.filled? with
    | some id => .ok id
    | none => .error (.missingIdentifier operation what)

end AgentRelay.Tracker

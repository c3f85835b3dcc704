import ViewFinder.Store.Dialogue
import ViewFinder.Store.Params
import ViewFinder.Store.Memory
import ViewFinder.Json.Reader
import ViewFinder.Text.Utf8

/-!
# A store on the web

Requests to a store become messages over HTTP (`Web.message`), and the replies become answers
(`Web.answer`): the status decides between document, not found, conflict and failure, and the body is
JSON. Ids in paths are percent-encoded, but for the literal beginning of the ids of design documents.
-/

namespace ViewFinder.Store

/-- A message to the server. -/
structure Message where
  method : String
  path : String
  /-- The query string, if the request has parameters. -/
  query : Option Entries := none
  /-- The body, if the request has one. -/
  body : Option Value := none
  deriving Inhabited

/-- What comes back for a message. -/
inductive Reply where
  | received (status : Int) (body : String)
  /-- Nothing came back. -/
  | failed (reason : String)
  deriving Inhabited

/-- The connection to a server. -/
structure Client where
  baseUrl : String
  timeout : Value
  /-- The name and the password of the user. -/
  auth : Option (Value × Value) := none
  deriving Inhabited

namespace Web

/-- A character that stands for itself in a path. -/
def isUnreserved (c : Char) : Bool :=
  c.toNat < 128 && (c.isAlphanum || c == '_' || c == '.' || c == '-' || c == '~')

/-- An upper-case hexadecimal digit. -/
def hexDigit (n : Nat) : Char := if n < 10 then Char.ofNat (48 + n) else Char.ofNat (55 + n)

/-- The escape of a byte. -/
def byteEscape (b : Nat) : List Char := ['%', hexDigit (b / 16), hexDigit (b % 16)]

/-- A text as one segment of a path. -/
def escape (s : List Char) : Except Fault (List Char) :=
  match Text.chars? s with
  | none => .error (.unpaired (String.ofList s))
  | some cs =>
    .ok (cs.flatMap fun c => if isUnreserved c then [c] else (Text.utf8 c).flatMap byteEscape)

/-- The path of something in a database. -/
def databasePath (database path : String) : String := s!"/{database}/{path}"

/-- The id of a document as it stands in a path. -/
def escapeId (id : List Char) : Except Fault (List Char) :=
  match Emission.after? Index.designPrefix.toList id with
  | some rest => (escape rest).map (Index.designPrefix.toList ++ ·)
  | none => escape id

/-- The path of a document. -/
def documentPath (database : String) (id : Value) : Except Fault String :=
  match id with
  | .str s => (escapeId s.toList).map fun id => databasePath database (String.ofList id)
  | _ => .error .noMember

/-- The message for a save: to the document's own path, or to the database if it has no id. -/
def saveMessage (database : String) (document : Value) : Except Fault Message := do
  let id ← document.member "_id"
  if id.truthy then
    return { method := "PUT", path := ← documentPath database id, body := some document }
  else return { method := "POST", path := s!"/{database}", body := some document }

/-- The message for a request. -/
def message (database : String) : Request → Except Fault Message
  | .serverVersion => .ok { method := "GET", path := "/" }
  | .get id => do return { method := "GET", path := ← documentPath database id }
  | .save document => saveMessage database document
  | .view path params => do
    let (query, body) ← encodeParams (.dict params)
    let method := if body.isSome then "POST" else "GET"
    return { method, path := databasePath database path, query := some query, body }
  | .adHoc path map reduce params => do
    let (query, keys) ← splitParams params
    let reduce := if reduce.truthy then [(.str "reduce", reduce)] else []
    return { method := "POST", path := databasePath database path, query := some query,
             body := some (.dict ((.str "map", map) :: (reduce ++ keysBody keys))) }

/-- What a reply to a message holds. -/
def read (m : Message) : Reply → Answer
  | .failed reason => .error (.failure (.noAnswer m.method m.path reason) .null .null)
  | .received status body =>
    if status == 404 then .error (.notFound (.document m.path))
    else if status == 409 || status == 412 then .error (.conflict (.address m.path))
    else if 400 ≤ status then
      .error (.failure (.status m.method m.path status) (.int status) (.str body))
    else (Json.readMarked body).mapError fun
      | .tooDeep => .unreadable .tooDeep
      | _ => .failure (.notJson m.path) (.int status) (.str body)

/-- What the content of a reply answers to a request: a save must be confirmed. -/
def answerOf (r : Request) (content : Value) : Answer :=
  match r with
  | .serverVersion => do return .str ((← content.member? "version").getD (.str "")).text
  | .save _ => do
    if (← content.member "ok").truthy then return content else throw (.answer content)
  | _ => .ok content

/-- The document after a save, under the id and revision that the response names. -/
def saved (document response : Value) : Except Fault Saved := do
  let id := (← response.member? "id").getD (← document.member "_id")
  let attributes := Entries.set (← document.entries) "_id" id
  return ⟨response, .dict (Entries.set attributes "_rev" (← response.member "rev"))⟩

end Web

/-- A connection to a server whose replies are known. -/
structure Web where
  database : String
  /-- The replies to come. -/
  replies : List Reply := []
  deriving Inhabited

namespace Web

variable (w : Web)

/-- The reply to the next message. -/
def reply : Reply × Web :=
  match w.replies with
  | [] => (.failed "no response", w)
  | r :: rest => (r, { w with replies := rest })

/-- The answer to a request, the message that was sent for it, and the connection afterwards. -/
def answer (r : Request) : Answer × Option Message × Web :=
  match message w.database r with
  | .error e => (.error e, none, w)
  | .ok m =>
    let (reply, w) := w.reply
    (do answerOf r (← read m reply), some m, w)

end Web

end ViewFinder.Store

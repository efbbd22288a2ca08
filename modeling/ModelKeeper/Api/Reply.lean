import ModelKeeper.Api.Message
import ModelKeeper.Cluster.Error

/-!
# Replies of the API server

A reply is a refusal if its status says that there was an error (`ApiReply.isRefusal`).  Then its
body should explain it (`Refusal.codec`); if it does not, the status and the body themselves have to
do (`ApiReply.bareRefusal`).  The body of any other reply is what was asked for.
-/

namespace ModelKeeper

/-- A number of 16 bits. -/
def Codec.statusCode : Codec Nat :=
  Codec.word16.imap UInt16.toNat Nat.toUInt16

/-- How the server explains a refusal. -/
def Refusal.codec : Codec Refusal :=
  .record "a refusal"
    (.cons (.required "status" .string) <|
      .cons (.withDefault "message" .string "") <|
      .cons (.withDefault "reason" .string "") <|
      .cons (.required "code" .statusCode) .nil)
    (fun r => (r.status, r.message, r.reason, r.code, ()))
    (fun (status, message, reason, code, ()) => ⟨status, message, reason, code⟩)

/-- The usual words for the status of a refusal. -/
def refusalWords : List (Nat × String) :=
  [(400, "Bad Request"), (401, "Unauthorized"), (402, "Payment Required"), (403, "Forbidden"),
    (404, "Not Found"), (405, "Method Not Allowed"), (406, "Not Acceptable"),
    (407, "Proxy Authentication Required"), (408, "Request Timeout"), (409, "Conflict"),
    (410, "Gone"), (411, "Length Required"), (412, "Precondition Failed"),
    (413, "Payload Too Large"), (414, "URI Too Long"), (415, "Unsupported Media Type"),
    (416, "Range Not Satisfiable"), (417, "Expectation Failed"), (418, "I'm a teapot"),
    (421, "Misdirected Request"), (422, "Unprocessable Entity"), (423, "Locked"),
    (424, "Failed Dependency"), (425, "Too Early"), (426, "Upgrade Required"),
    (428, "Precondition Required"), (429, "Too Many Requests"),
    (431, "Request Header Fields Too Large"), (451, "Unavailable For Legal Reasons"),
    (500, "Internal Server Error"), (501, "Not Implemented"), (502, "Bad Gateway"),
    (503, "Service Unavailable"), (504, "Gateway Timeout"), (505, "HTTP Version Not Supported"),
    (506, "Variant Also Negotiates"), (507, "Insufficient Storage"), (508, "Loop Detected"),
    (510, "Not Extended"), (511, "Network Authentication Required")]

namespace ApiReply

/-- Whether the reply says that there was an error. -/
def isRefusal (r : ApiReply) : Bool := 400 ≤ r.status && r.status < 600

/-- The status with its usual words. -/
def statusText (r : ApiReply) : String :=
  toString r.status ++ " " ++ (refusalWords.lookup r.status).getD "<unknown status code>"

/-- What is known of a refusal whose body, with this text, does not explain it. -/
def bareRefusal (r : ApiReply) (text : String) : Refusal :=
  ⟨r.statusText, Quoted.text text, "Failed to parse error data", r.status⟩

/-- What was asked for, if `read` finds it in the body. -/
def result {α : Type} (read : List UInt8 → Option α) (r : ApiReply) : Except ApiError α :=
  match Utf8.decode? r.body with
  | none => .error .unanswered
  | some text =>
    if r.isRefusal then
      match Refusal.codec.readText r.body with
      | .ok refusal => .error (.refused refusal)
      | .error _ => .error (.refused (r.bareRefusal text))
    else
      match read r.body with
      | some a => .ok a
      | none => .error .unanswered

end ApiReply

namespace Api

/-- An object as the body of a reply. -/
def readObject (k : Kind) (body : List UInt8) : Option (Object k) :=
  ((Object.codec k).readText body).toOption

/-- What the server says when it has done something. -/
def statusSummaries : List (String × Bool) := [("Success", true), ("Failure", false)]

/-- What made a deletion fail or wait: the reason, a message and the field at fault. -/
def causeCodec : Codec (String × String × String) :=
  .record "a cause"
    (.cons (.withDefault "reason" .string "") <|
      .cons (.withDefault "message" .string "") <|
      .cons (.withDefault "field" .string "") .nil)
    (fun (reason, message, field) => (reason, message, field, ()))
    (fun (reason, message, field, ()) => (reason, message, field))

/-- What an outcome is about: the name, group, kind and unique id of an object, the causes, and the
seconds after which to try again.  Of all this nothing is kept. -/
def detailsCodec : Codec Unit :=
  .record "details"
    (.cons (.withDefault "name" .string "") <|
      .cons (.withDefault "group" .string "") <|
      .cons (.withDefault "kind" .string "") <|
      .cons (.withDefault "uid" .string "") <|
      .cons (.withDefault "causes" (.list causeCodec) []) <|
      .cons (.withDefault "retryAfterSeconds" (.int 0 0xFFFFFFFF "u32") 0) .nil)
    (fun () => ("", "", "", "", [], 0, ()))
    (fun _ => ())

/-- A reply that tells how something went, instead of showing an object. -/
def outcomeCodec : Codec Unit :=
  .record "an outcome"
    (.cons (.optional "status" (.variant statusSummaries)) <|
      .cons (.withDefault "code" .statusCode 0) <|
      .cons (.withDefault "message" .string "") <|
      .cons (.withDefault "reason" .string "") <|
      .cons (.optional "details" detailsCodec) .nil)
    (fun () => (none, 0, "", "", none, ()))
    (fun _ => ())

/-- The reply to a deletion: the object as it was, or how it went. -/
def readDeletion (k : Kind) (body : List UInt8) : Option Unit := do
  let v ← Json.parse? body
  match v.get? "kind" with
  | some (.str "Status") => (outcomeCodec.readText body).toOption
  | _ => (readObject k body).map (fun _ => ())

end Api

/-- The error of an operation on the object under a key, by what the server said. -/
def ApiError.about (k : Kind) (key : Key) : ApiError → AccessError
  | .refused r =>
    if r.code = 404 then .notFound k.name key
    else if r.code = 409 then
      if r.reason = "AlreadyExists" then .alreadyExists k.name key
      else .conflict k.name key r.message
    else .api (.refused r)
  | e => .api e

end ModelKeeper

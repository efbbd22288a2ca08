import ModelKeeper.Api.Reply

/-!
# Objects on the API server

An `Api.Call` is a request to the API server together with how its reply is read.  There is one for
each operation on objects; `Api.Call.run` makes it.

A status is written as changes to be merged into the object, which carry the version that the writer
has seen: the server refuses them if the object has another one by then.
-/

namespace ModelKeeper.Api

/-- A request and how its reply is read.  There is no request if its place cannot be told. -/
structure Call (α : Type) where
  request : Option ApiRequest
  read : List UInt8 → Option α

/-- The outcome of a call, and the server's state after it. -/
def Call.run {σ α : Type} (exchange : Exchange σ) (c : Call α) (s : σ) : Except ApiError α × σ :=
  match c.request with
  | none => (.error .unanswered, s)
  | some r =>
    match exchange r s with
    | (some reply, s) => (reply.result c.read, s)
    | (none, s) => (.error .unanswered, s)

/-- The request for what is at a place. -/
def lookup (place : String) : Option ApiRequest :=
  (Target.ofText? place).map (fun target => ⟨.get, target, none⟩)

/-- The request to do something with what is at a place. -/
def change (method : Method) (place : String) (type : ContentType) (body : Json) :
    Option ApiRequest :=
  (Target.ofText? (place ++ "?")).map (fun target => ⟨method, target, some (type, body)⟩)

/-- The request that `make` gives for the place of an object, which has to have a name. -/
def atObject (k : Kind) (key : Key) (make : String → Option ApiRequest) : Option ApiRequest :=
  if key.name = "" then none else make (k.objectPath key)

/-- Reads an object. -/
def get (k : Kind) (key : Key) : Call (Object k) where
  request := atObject k key lookup
  read := readObject k

/-- Stores an object that is not there yet. -/
def create {k : Kind} (key : Key) (o : Object k) : Call (Object k) where
  request := change .post (k.collectionPath key.ns) .json o.toJson
  read := readObject k

/-- Replaces everything but the status. -/
def update {k : Kind} (key : Key) (o : Object k) : Call (Object k) where
  request := atObject k key (fun place => change .put place .json o.toJson)
  read := readObject k

/-- The changes that replace the status of an object. -/
def statusPatch {k : Kind} (o : Object k) : Json :=
  let version := match o.metadata.version with
    | some version => Json.str version
    | none => .null
  .obj [("metadata", .obj [("resourceVersion", version)]),
    ("status", (o.toJson.get? "status").getD .null)]

/-- Replaces the status. -/
def updateStatus {k : Kind} (key : Key) (o : Object k) : Call (Object k) where
  request := atObject k key (fun place =>
    change .patch (place ++ "/status") .mergePatch (statusPatch o))
  read := readObject k

/-- Requests the deletion of an object. -/
def delete (k : Kind) (key : Key) : Call Unit where
  request := atObject k key (fun place => change .delete place .json (.obj []))
  read := readDeletion k

end ModelKeeper.Api

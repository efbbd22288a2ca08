import ModelKeeper.Resource.Object

/-!
# Messages to the API server

A cluster is reached through its API server: an `ApiRequest` goes there, and an `ApiReply` comes
back unless the connection is lost.  What lies between is an `Api.Exchange`.

Objects have a path of their own (`Kind.objectPath`) below the one of all objects of their kind in
their namespace (`Kind.collectionPath`).  The names in a path are written as they are, so that not
every name can be asked for; `Target.ofText?` decides.
-/

namespace ModelKeeper

/-- What is to be done with something on the server. -/
inductive Method where
  | get
  | post
  | put
  | patch
  | delete
  deriving DecidableEq, Repr

/-- The name of a method. -/
def Method.name : Method → String
  | .get => "GET"
  | .post => "POST"
  | .put => "PUT"
  | .patch => "PATCH"
  | .delete => "DELETE"

/-- What a body stands for. -/
inductive ContentType where
  /-- The whole of something. -/
  | json
  /-- Changes to be merged into it. -/
  | mergePatch
  deriving DecidableEq, Repr

/-- The name of a content type. -/
def ContentType.name : ContentType → String
  | .json => "application/json"
  | .mergePatch => "application/merge-patch+json"

/-- The place of something on the server. -/
structure Target where
  path : String
  query : Option String := none
  deriving DecidableEq, Repr

namespace Target

/-- Whether a character may stand in a place, except before the query those in `barred`. -/
def allows (barred : List Char) (c : Char) : Bool := 0x20 < c.toNat && !barred.contains c

/-- The place that a text tells: a path up to a question mark, a query after it, and nothing from a
number sign on. -/
def ofText? (s : String) : Option Target :=
  let cs := s.toList.takeWhile (· != '#')
  let path := cs.takeWhile (· != '?')
  let query := (cs.dropWhile (· != '?')).drop 1
  if path.all (allows ['<', '>', '\x60']) && query.all (allows ['<', '>', '"']) then
    some ⟨String.ofList path, if query.isEmpty then none else some (String.ofList query)⟩
  else none

end Target

/-- A request to the server. -/
structure ApiRequest where
  method : Method
  target : Target
  /-- The body and what it stands for, if there is one. -/
  body : Option (ContentType × Json) := none

/-- A reply of the server. -/
structure ApiReply where
  status : Nat
  body : List UInt8
  deriving DecidableEq, Repr

/-- One exchange with a server that has a state of type `σ`.  There is no reply if the connection is
lost. -/
abbrev Api.Exchange (σ : Type) : Type := ApiRequest → σ → Option ApiReply × σ

namespace Kind

/-- The path below which a group of kinds is found. -/
def groupPath (k : Kind) : String :=
  match k.group? with
  | some g => s!"/apis/{g}/{k.version}"
  | none => s!"/api/{k.version}"

/-- The path of the objects of a kind in a namespace. -/
def collectionPath (k : Kind) (ns : String) : String :=
  s!"{k.groupPath}/namespaces/{ns}/{k.plural}"

/-- The path of an object. -/
def objectPath (k : Kind) (key : Key) : String := s!"{k.collectionPath key.ns}/{key.name}"

end Kind

end ModelKeeper

import ModelKeeper.Resource.Object
import ModelKeeper.Text.Quoted

/-!
# Why access to an object fails

An `AccessError` says why an object could not be read or written.  Whoever works with objects tells
three of the reasons from the others: that there is no such object, that there already is one, and
that another writer came first.
-/

namespace ModelKeeper

/-- The answer of a server that refuses a request. -/
structure Refusal where
  /-- The status as text. -/
  status : String
  message : String
  reason : String
  code : Nat
  deriving DecidableEq, Repr

/-- Why a server did not do what it was asked for. -/
inductive ApiError where
  | refused (r : Refusal)
  /-- There was no answer, or none that can be understood. -/
  | unanswered
  deriving DecidableEq, Repr

/-- A part of the metadata that an object needs to be stored. -/
inductive RequiredPart where
  | ns
  | name
  deriving DecidableEq, Repr

/-- Why an object could not be read or written.  Kinds are given by their names. -/
inductive AccessError where
  | notFound (kind : String) (key : Key)
  | alreadyExists (kind : String) (key : Key)
  /-- Another writer came first. -/
  | conflict (kind : String) (key : Key) (message : String)
  | incomplete (part : RequiredPart)
  | api (e : ApiError)
  /-- What is stored is not an object of the kind. -/
  | unreadable
  deriving DecidableEq, Repr

def RequiredPart.path : RequiredPart → String
  | .ns => "metadata.namespace"
  | .name => "metadata.name"

def ApiError.message : ApiError → String
  | .refused r =>
    s!"ApiError: {r.message}: {r.reason} " ++ "(ErrorResponse \x7b status: " ++
      Quoted.text r.status ++ ", message: " ++ Quoted.text r.message ++ ", reason: " ++
      Quoted.text r.reason ++ s!", code: {r.code}" ++ " \x7d)"
  | .unanswered => "no answer"

namespace AccessError

/-- An object as messages name it. -/
def subject (kind : String) (key : Key) : String := s!"{kind} {key.ns}/{key.name}"

def message : AccessError → String
  | .notFound kind key => subject kind key ++ " not found"
  | .alreadyExists kind key => subject kind key ++ " already exists"
  | .conflict kind key message => s!"conflict writing {subject kind key}: {message}"
  | .incomplete part => s!"object is missing {part.path}"
  | .api e => s!"kubernetes API error: {e.message}"
  | .unreadable => "serialization error"

def isNotFound : AccessError → Bool
  | .notFound _ _ => true
  | _ => false

def isAlreadyExists : AccessError → Bool
  | .alreadyExists _ _ => true
  | _ => false

def isConflict : AccessError → Bool
  | .conflict _ _ _ => true
  | _ => false

end AccessError

/-- Where an object is to be stored; its namespace and its name have to be there. -/
def Object.requireKey {k : Kind} (o : Object k) : Except AccessError Key :=
  match o.metadata.ns, o.metadata.name with
  | none, _ => .error (.incomplete .ns)
  | some _, none => .error (.incomplete .name)
  | some ns, some name => .ok ⟨ns, name⟩

end ModelKeeper

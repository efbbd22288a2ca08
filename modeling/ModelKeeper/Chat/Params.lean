import ModelKeeper.Json.Codec
import ModelKeeper.Json.Printer

/-!
# Parameters of a chat request

What a prompt sends to a model: the conversation so far and how to answer it.  `Params.marshal`
writes parameters as text and `Params.unmarshal` reads them.
-/

namespace ModelKeeper

/-- Who speaks. -/
inductive Role where
  | user
  | assistant
  deriving DecidableEq, Repr

instance : Inhabited Role := ⟨.user⟩

/-- One turn of the conversation. -/
structure Message where
  role : Role := .user
  content : String := ""
  deriving DecidableEq, Repr

/-- The model that is used if none is named. -/
def defaultModel : String := "gpt-3.5-turbo"

/-- The parameters of one request. -/
structure Params where
  /-- How the request is invoked. -/
  method : Option String
  model : String
  temperature : Option Single
  topP : Option Single
  conversation : List Message
  /-- The task that an asynchronous request belongs to. -/
  taskId : Option String
  incremental : Bool
  deriving DecidableEq, Repr

/-- Every role with its name. -/
def Role.names : List (String × Role) := [("user", .user), ("assistant", .assistant)]

def Role.codec : Codec Role := .variant names

def Message.codec : Codec Message :=
  .record "struct PromptMessage"
    (.cons (.withDefault "role" Role.codec .user) <|
      .cons (.withDefault "content" .string "") .nil)
    (fun m => (m.role, m.content, ()))
    (fun (role, content, ()) => ⟨role, content⟩)

namespace Params

/-- The parameters of a prompt that has none of its own. -/
protected def default : Params where
  method := some "invoke"
  model := defaultModel
  temperature := some (.ofRatio false 8 10)
  topP := some (.ofRatio false 7 10)
  conversation := []
  taskId := none
  incremental := false

/-- The parameters with one message of the user. -/
def user (content : String) : Params :=
  { Params.default with conversation := [⟨.user, content⟩] }

def codec : Codec Params :=
  .record "struct ModelParams"
    (.cons (.optional "method" .string) <|
      .cons (.unlessDefault "model" .string "") <|
      .cons (.optional "temperature" .single) <|
      .cons (.optional "top_p" .single) <|
      .cons (.withDefault "prompt" (.list Message.codec) []) <|
      .cons (.optional "task_id" .string) <|
      .cons (.unlessDefault "incremental" .bool false) .nil)
    (fun p => (p.method, p.model, p.temperature, p.topP, p.conversation, p.taskId, p.incremental,
      ()))
    (fun (method, model, temperature, topP, conversation, taskId, incremental, ()) =>
      ⟨method, model, temperature, topP, conversation, taskId, incremental⟩)

/-- The parameters as text. -/
def text (p : Params) : String := (codec.write p).text

/-- The parameters as bytes. -/
def marshal (p : Params) : List UInt8 := Utf8.ofString p.text

/-- The parameters that some bytes spell. -/
def unmarshal (bytes : List UInt8) : Except ReadError Params := codec.readText bytes

/-- The model that is asked. -/
def modelOrDefault (p : Params) : String := if p.model = "" then defaultModel else p.model

/-- Whether two lists of parameters are equal, with data compared as numbers. -/
def same (p q : Params) : Bool :=
  let sameDatum (x y : Option Single) : Bool :=
    match x, y with
    | none, none => true
    | some x, some y => x.toDouble.sameNumber y.toDouble
    | _, _ => false
  p.method = q.method && p.model = q.model && sameDatum p.temperature q.temperature &&
    sameDatum p.topP q.topP && p.conversation = q.conversation && p.taskId = q.taskId &&
    p.incremental = q.incremental

end Params

end ModelKeeper

import ModelKeeper.Chat.Envelope
import ModelKeeper.Chat.Error
import ModelKeeper.Chat.Params
import ModelKeeper.Operator.Program
import ModelKeeper.Text.Quoted

/-!
# The client for chat completions

A `Client` turns parameters into a request to the server of a vendor (`Client.request`), and the
server's answer into an envelope or an error (`ChatReply.read`).  What lies between is left to an
HTTP library, which is an argument (`Client.Exchange`): it is handed an address, a key and a body as
text, and either delivers an answer or tells why there is none.  Whether the text is an address at
all, and whether the key can be sent, is for the library to find out.
-/

namespace ModelKeeper

/-- A client for one server. -/
structure Client where
  apiKey : String
  baseUrl : String
  deriving DecidableEq, Repr

/-- A request for a completion, as it is handed to the HTTP library. -/
structure ChatRequest where
  /-- The text of the address that is posted to. -/
  address : String
  /-- The key, which goes along as a bearer token. -/
  token : String
  /-- The text that is posted, as JSON. -/
  body : String
  deriving DecidableEq, Repr

/-- The answer of a server. -/
structure ChatReply where
  status : Nat
  body : List UInt8
  deriving DecidableEq, Repr

/-- What is asked of a server. -/
structure Completion where
  model : String
  messages : List Message
  temperature : Option Single := none
  topP : Option Single := none
  maxTokens : Option Nat := none
  deriving DecidableEq, Repr

namespace Completion

/-- The request as JSON. -/
def toJson (c : Completion) : Json :=
  .obj ([("model", .str c.model), ("messages", .arr (c.messages.map Message.codec.write))] ++
    (match c.temperature with
      | some x => [("temperature", Codec.single.write x)]
      | none => []) ++
    (match c.topP with
      | some x => [("top_p", Codec.single.write x)]
      | none => []) ++
    (match c.maxTokens with
      | some n => [("max_tokens", Json.int n)]
      | none => []))

/-- What parameters ask for. -/
def ofParams (p : Params) : Completion where
  model := p.modelOrDefault
  messages := p.conversation
  temperature := p.temperature
  topP := p.topP

/-- A request with one option more. -/
def withOption (c : Completion) : CallOption → Completion
  | .model name => { c with model := name }
  | .temperature x => { c with temperature := some x }
  | .maxTokens n => { c with maxTokens := some n }

/-- A trial request; of several options of a sort the last counts. -/
def trial (options : List CallOption) : Completion :=
  options.foldl withOption { model := defaultModel, messages := [⟨.user, "Hello"⟩] }

end Completion

namespace ChatReply

/-- The text of one choice. -/
def messageCodec : Codec String :=
  .record "ChatChoiceMessage" (.cons (.withDefault "content" .string "") .nil)
    (fun s => (s, ())) (fun (s, ()) => s)

/-- One choice. -/
def choiceCodec : Codec String :=
  .record "ChatChoice" (.cons (.required "message" messageCodec) .nil)
    (fun s => (s, ())) (fun (s, ()) => s)

/-- The choices of a completion. -/
def choicesCodec : Codec (List String) :=
  .record "ChatCompletion" (.cons (.withDefault "choices" (.list choiceCodec) []) .nil)
    (fun cs => (cs, ())) (fun (cs, ()) => cs)

/-- Whether the server did what it was asked for. -/
def isSuccess (r : ChatReply) : Bool := 200 ≤ r.status && r.status < 300

/-- The text of the first choice in a server's answer. -/
def read (r : ChatReply) : Except ChatError String :=
  if r.isSuccess then
    match choicesCodec.readText r.body with
    | .error _ => .error (.http .openAi .undecodable)
    | .ok [] => .error (.noChoices .openAi)
    | .ok (text :: _) => .ok text
  else .error (.api .openAi r.status (Utf8.decodeLossy r.body))

end ChatReply

namespace Client

/-- The address of the public server. -/
def publicUrl : String := "https://api.openai.com/v1"

/-- A text without the slashes at its end. -/
def trimSlashes (s : String) : String :=
  String.ofList (s.toList.reverse.dropWhile (· == '/')).reverse

/-- A client, unless there is no key.  Without an address the public server is meant. -/
def make (apiKey baseUrl : String) : Except ChatError Client :=
  if apiKey = "" then .error .emptyKey
  else .ok ⟨apiKey, trimSlashes (if baseUrl = "" then publicUrl else baseUrl)⟩

/-- The client for a vendor. -/
def ofConnection (c : Connection) : Except ChatError Client :=
  match c.vendor with
  | .openAi => make c.apiKey c.baseUrl
  | other => .error (.unsupportedVendor other.name)

/-- The client as text, without its key. -/
def description (c : Client) : String :=
  "OpenAi \x7b base_url: " ++ Quoted.text c.baseUrl ++ ", api_key: \"<redacted>\", .. \x7d"

/-- The request to be posted. -/
def request (c : Client) (completion : Completion) : ChatRequest where
  address := c.baseUrl ++ "/chat/completions"
  token := c.apiKey
  body := completion.toJson.text

/-- What the HTTP library does with a request: it delivers the answer of the server, or fails. -/
abbrev Exchange (σ : Type) : Type := ChatRequest → σ → Except HttpFailure ChatReply × σ

/-- The text that a server gives for a completion. -/
def complete {σ : Type} (exchange : Exchange σ) (c : Client) (completion : Completion) (s : σ) :
    Except ChatError String × σ :=
  match exchange (c.request completion) s with
  | (.error e, s) => (.error (.http .openAi e), s)
  | (.ok reply, s) => (reply.read, s)

/-- An envelope as an answer. -/
def reply (e : Envelope) : Reply := ⟨e.text, e.marshal⟩

/-- Sends parameters. -/
def call {σ : Type} (exchange : Exchange σ) (c : Client) (payload : List UInt8) (s : σ) :
    Except ChatError Reply × σ :=
  match Params.unmarshal payload with
  | .error e => (.error (.invalidPayload e), s)
  | .ok p =>
    let (result, s) := c.complete exchange (.ofParams p) s
    (result.map (fun data => reply (.ok data "call openai model success")), s)

/-- Tries whether the server answers. -/
def validate {σ : Type} (exchange : Exchange σ) (c : Client) (options : List CallOption) (s : σ) :
    Except ChatError Reply × σ :=
  let (result, s) := c.complete exchange (.trial options) s
  (result.map (fun data => reply (.ok data "")), s)

end Client

end ModelKeeper

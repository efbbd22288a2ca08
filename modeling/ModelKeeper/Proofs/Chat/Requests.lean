import Mathlib.Data.List.DropRight
import ModelKeeper.Chat.Client
import ModelKeeper.Proofs.Text.Utf8

/-!
# What a server is asked, and what becomes of its answer

A client hands every request to the HTTP library once (`Client.complete_noting`).  So what is posted
is told by what is asked for (`Client.request_posts`): by the parameters of a call, or in a trial by
the last option of each sort (`Completion.trial_eq`).  What becomes of it is told by what the
library delivers (`Client.outcome_delivered`).
-/

namespace ModelKeeper

variable {α : Type}

/-! ### Options -/

namespace CallOption

def model? : CallOption → Option String
  | .model name => some name
  | _ => none

def temperature? : CallOption → Option Single
  | .temperature x => some x
  | _ => none

def maxTokens? : CallOption → Option Nat
  | .maxTokens n => some n
  | _ => none

/-- The last option of a sort. -/
def last? (sort : CallOption → Option α) (options : List CallOption) : Option α :=
  (options.filterMap sort).getLast?

theorem last?_cons (sort : CallOption → Option α) (o : CallOption) (options : List CallOption) :
    last? sort (o :: options) = (last? sort options).or (sort o) := by
  unfold last?
  rw [List.filterMap_cons]
  cases sort o with
  | none => exact Option.or_none.symm
  | some a =>
    rw [List.getLast?_cons]
    cases (options.filterMap sort).getLast? <;> rfl

/-- Whether two lists have the same options of each sort in the same order, with those of different
sorts in whatever order. -/
structure Rearranged (options options' : List CallOption) : Prop where
  models : options'.filterMap model? = options.filterMap model?
  temperatures : options'.filterMap temperature? = options.filterMap temperature?
  maxTokens : options'.filterMap maxTokens? = options.filterMap maxTokens?

end CallOption

/-! ### Completions -/

/-- The name of a role. -/
def Role.text : Role → String
  | .user => "user"
  | .assistant => "assistant"

namespace Completion

open CallOption (last?)

theorem foldl_withOption (c : Completion) (options : List CallOption) :
    options.foldl withOption c =
      { c with
        model := (last? CallOption.model? options).getD c.model
        temperature := (last? CallOption.temperature? options).or c.temperature
        maxTokens := (last? CallOption.maxTokens? options).or c.maxTokens } := by
  induction options generalizing c with
  | nil => rfl
  | cons o options ih =>
    rw [List.foldl_cons, ih]
    simp only [CallOption.last?_cons]
    -- an option sets one of the three fields, and a later one of its sort wins
    cases o with
    | model name =>
      cases last? CallOption.model? options <;> simp [withOption, CallOption.model?,
        CallOption.temperature?, CallOption.maxTokens?]
    | temperature x =>
      cases last? CallOption.temperature? options <;> simp [withOption, CallOption.model?,
        CallOption.temperature?, CallOption.maxTokens?]
    | maxTokens n =>
      cases last? CallOption.maxTokens? options <;> simp [withOption, CallOption.model?,
        CallOption.temperature?, CallOption.maxTokens?]

/-- A trial asks for the last option of each sort. -/
theorem trial_eq (options : List CallOption) :
    trial options =
      { model := (last? CallOption.model? options).getD defaultModel
        messages := [⟨.user, "Hello"⟩]
        temperature := last? CallOption.temperature? options
        maxTokens := last? CallOption.maxTokens? options } := by
  unfold trial
  rw [foldl_withOption, Option.or_none, Option.or_none]

/-- Whether the members of an object ask for a completion and for nothing else.  Data that are no
numbers are written as nulls. -/
structure Asks (c : Completion) (members : List (String × Json)) : Prop where
  model : Json.member? "model" members = some (.str c.model)
  messages : Json.member? "messages" members = some (.arr (c.messages.map fun m =>
    .obj [("role", .str m.role.text), ("content", .str m.content)]))
  temperature : Json.member? "temperature" members = c.temperature.map Codec.single.write
  topP : Json.member? "top_p" members = c.topP.map Codec.single.write
  maxTokens : Json.member? "max_tokens" members = c.maxTokens.map fun n => Json.int n
  nothingElse : (members.map (·.1)).Sublist
    ["model", "messages", "temperature", "top_p", "max_tokens"]

theorem write_message (m : Message) :
    Message.codec.write m = .obj [("role", .str m.role.text), ("content", .str m.content)] := by
  obtain ⟨role, content⟩ := m
  cases role <;> rfl

theorem toJson_asks (c : Completion) : ∃ members, c.toJson = .obj members ∧ c.Asks members := by
  obtain ⟨model, messages, temperature, topP, maxTokens⟩ := c
  have hmessages : messages.map Message.codec.write = messages.map fun m =>
      .obj [("role", .str m.role.text), ("content", .str m.content)] :=
    List.map_congr_left fun m _ => write_message m
  refine ⟨_, rfl, ?_, ?_, ?_, ?_, ?_, ?_⟩
  · rfl
  · exact congrArg (fun items => some (Json.arr items)) hmessages
  · cases temperature <;> cases topP <;> cases maxTokens <;> rfl
  · cases temperature <;> cases topP <;> cases maxTokens <;> rfl
  · cases temperature <;> cases topP <;> cases maxTokens <;> rfl
  · cases temperature <;> cases topP <;> cases maxTokens <;> simp

end Completion

/-! ### Answers -/

/-- An answer with a text. -/
def ChatReply.ofText (status : Nat) (text : String) : ChatReply := ⟨status, Utf8.ofString text⟩

namespace Client

/-- What the HTTP library delivers for a request: a status and a text, or the reason why there is
none. -/
abbrev Delivery : Type := Except HttpFailure (Nat × String)

/-- What becomes of a request; `remark` goes with what the server says. -/
structure Outcome (remark : String) (delivery : Delivery) (result : Except ChatError Reply) :
    Prop where
  failed : ∀ e, delivery = .error e → result = .error (.http .openAi e)
  refused : ∀ status text, delivery = .ok (status, text) → ¬ (200 ≤ status ∧ status < 300) →
    result = .error (.api .openAi status text)
  garbled : ∀ status text, delivery = .ok (status, text) → 200 ≤ status ∧ status < 300 →
    ∀ e, ChatReply.choicesCodec.readText (Utf8.ofString text) = .error e →
      result = .error (.http .openAi .undecodable)
  silent : ∀ status text, delivery = .ok (status, text) → 200 ≤ status ∧ status < 300 →
    ChatReply.choicesCodec.readText (Utf8.ofString text) = .ok [] →
      result = .error (.noChoices .openAi)
  answered : ∀ status text, delivery = .ok (status, text) → 200 ≤ status ∧ status < 300 →
    ∀ data others, ChatReply.choicesCodec.readText (Utf8.ofString text) = .ok (data :: others) →
      result = .ok ⟨(Envelope.ok data remark).text, (Envelope.ok data remark).marshal⟩

end Client

namespace ChatReply

variable {status : Nat}

theorem isSuccess_ofText (status : Nat) (text : String) :
    (ofText status text).isSuccess = true ↔ 200 ≤ status ∧ status < 300 := by
  unfold isSuccess ofText
  rw [Bool.and_eq_true, decide_eq_true_eq, decide_eq_true_eq]

theorem read_ofText_refused (text : String) (h : ¬ (200 ≤ status ∧ status < 300)) :
    (ofText status text).read = .error (.api .openAi status text) := by
  rw [← isSuccess_ofText status text] at h
  unfold read
  rw [if_neg h]
  simp only [ofText, Utf8.decodeLossy_ofString]

theorem read_ofText_done (text : String) (h : 200 ≤ status ∧ status < 300) :
    (ofText status text).read =
      match choicesCodec.readText (Utf8.ofString text) with
      | .error _ => .error (.http .openAi .undecodable)
      | .ok [] => .error (.noChoices .openAi)
      | .ok (data :: _) => .ok data :=
  if_pos ((isSuccess_ofText status text).2 h)

end ChatReply

/-! ### Requests -/

namespace Client

open CallOption

/-- The server that a client with this address talks to: the public one if it is empty. -/
def server (baseUrl : String) : String := if baseUrl = "" then publicUrl else baseUrl

/-- A library that delivers this for every request, and all requests that it has been handed. -/
def noting (deliver : ChatRequest → Delivery) : Exchange (List ChatRequest) :=
  fun r handed => ((deliver r).map (fun d => .ofText d.1 d.2), handed ++ [r])

/-- Whether `base` is a text without the slashes at its end. -/
structure IsTrimmed (text base : String) : Prop where
  slashes : ∃ n, text.toList = base.toList ++ List.replicate n '/'
  ended : base.toList.getLast? ≠ some '/'

/-- Whether a request posts to the server with this address, with this key, and asks it for a
completion. -/
structure Posts (apiKey baseUrl : String) (c : Completion) (r : ChatRequest) : Prop where
  address : ∃ base, IsTrimmed (server baseUrl) base ∧ r.address = base ++ "/chat/completions"
  token : r.token = apiKey
  body : ∃ members, r.body = (Json.obj members).text ∧ c.Asks members

theorem isTrimmed_trimSlashes (s : String) : IsTrimmed s (trimSlashes s) where
  slashes := by
    refine ⟨(s.toList.rtakeWhile (· == '/')).length, ?_⟩
    have hslashes : s.toList.rtakeWhile (· == '/') =
        List.replicate (s.toList.rtakeWhile (· == '/')).length '/' :=
      List.eq_replicate_of_mem fun c hc => by simpa using List.mem_rtakeWhile_imp hc
    rw [← hslashes, trimSlashes, String.toList_ofList, List.rtakeWhile, ← List.reverse_append,
      List.takeWhile_append_dropWhile, List.reverse_reverse]
  ended := by
    intro hlast
    -- the last character that is left is no slash
    have hdropped : (trimSlashes s).toList = s.toList.rdropWhile (· == '/') :=
      String.toList_ofList
    rw [hdropped] at hlast
    have hne := List.ne_nil_of_mem (List.mem_of_getLast? hlast)
    rw [List.getLast?_eq_some_getLast hne, Option.some.injEq] at hlast
    exact List.rdropWhile_last_not _ _ hne (by simp [hlast])

/-- There is one such text only. -/
theorem IsTrimmed.eq {text base : String} (h : IsTrimmed text base) : base = trimSlashes text := by
  obtain ⟨⟨n, hslashes⟩, hended⟩ := h
  -- slashes behind a text that does not end in one are what is dropped
  have hdropped : ∀ n, (base.toList ++ List.replicate n '/').rdropWhile (· == '/') =
      base.toList := by
    intro n
    induction n with
    | zero =>
      rw [List.replicate_zero, List.append_nil, List.rdropWhile_eq_self_iff]
      intro hne hlast
      exact hended (by rw [List.getLast?_eq_some_getLast hne, beq_iff_eq.1 hlast])
    | succ n ih => rw [List.replicate_succ', ← List.append_assoc,
        List.rdropWhile_concat_pos _ _ _ (by simp), ih]
  rw [← String.toList_inj, ← hdropped n, ← hslashes]
  exact String.toList_ofList.symm

variable {apiKey baseUrl : String}

/-- The client with this key and this address. -/
def of (apiKey baseUrl : String) : Client := ⟨apiKey, trimSlashes (server baseUrl)⟩

theorem make_eq (h : apiKey ≠ "") : make apiKey baseUrl = .ok (of apiKey baseUrl) := if_neg h

theorem request_posts (apiKey baseUrl : String) (c : Completion) :
    Posts apiKey baseUrl c ((of apiKey baseUrl).request c) where
  address := ⟨_, isTrimmed_trimSlashes _, rfl⟩
  token := rfl
  body := by
    obtain ⟨members, hmembers, hasks⟩ := c.toJson_asks
    exact ⟨members, congrArg Json.text hmembers, hasks⟩

/-- The text that a server has given, if it has. -/
def readDelivery : Delivery → Except ChatError String
  | .error e => .error (.http .openAi e)
  | .ok (status, text) => (ChatReply.ofText status text).read

/-- What is asked for is handed over once, and what is delivered decides. -/
theorem complete_noting (client : Client) (c : Completion) (deliver : ChatRequest → Delivery)
    (handed : List ChatRequest) :
    client.complete (noting deliver) c handed =
      (readDelivery (deliver (client.request c)), handed ++ [client.request c]) := by
  unfold complete noting
  cases deliver (client.request c) <;> rfl

theorem outcome_delivered (remark : String) (delivery : Delivery) :
    Outcome remark delivery
      ((readDelivery delivery).map fun data => reply (.ok data remark)) where
  failed e he := by
    subst he
    rfl
  refused status text hd h := by
    subst hd
    simp only [readDelivery, ChatReply.read_ofText_refused text h, Except.map]
  garbled status text hd h e he := by
    subst hd
    simp only [readDelivery, ChatReply.read_ofText_done text h, he, Except.map]
  silent status text hd h he := by
    subst hd
    simp only [readDelivery, ChatReply.read_ofText_done text h, he, Except.map]
  answered status text hd h data others he := by
    subst hd
    simp only [readDelivery, ChatReply.read_ofText_done text h, he, Except.map, reply]

/-- Whether a run asks the server with this address for one completion, whatever has been asked
before, and what becomes of the run is decided by what is delivered. -/
def AsksOnce (apiKey baseUrl remark : String) (c : Completion) (deliver : ChatRequest → Delivery)
    (run : List ChatRequest → Except ChatError Reply × List ChatRequest) : Prop :=
  ∀ handed, ∃ r, (run handed).2 = handed ++ [r] ∧ Posts apiKey baseUrl c r ∧
    Outcome remark (deliver r) (run handed).1

/-- Servers are asked exactly what they are to be asked, by every client that has a key, for every
text as the address of its server, the empty one for the public server, and whatever the HTTP
library makes of what it is handed.

* A call whose payload spells no parameters hands over nothing and fails for this reason.  Any other
  call hands over one request, for what the parameters say and nothing else.
* A trial hands over one request.  It depends on the last option of each sort only, so options of
  different sorts can change places.
* An answer that tells of a failure becomes an error with its status and text, another that is no
  completion an error as well, and one without choices too.  Otherwise the result is the text of the
  first choice.  Without an answer the result is the failure of the library. -/
theorem parameters_posted {apiKey : String} (hkey : apiKey ≠ "") (baseUrl : String)
    (deliver : ChatRequest → Delivery) :
    ∃ client, make apiKey baseUrl = .ok client ∧
      (∀ payload e, Params.unmarshal payload = .error e → ∀ handed,
        client.call (noting deliver) payload handed = (.error (.invalidPayload e), handed)) ∧
      (∀ payload p, Params.unmarshal payload = .ok p →
        AsksOnce apiKey baseUrl "call openai model success"
          { model := if p.model = "" then defaultModel else p.model
            messages := p.conversation
            temperature := p.temperature
            topP := p.topP }
          deliver (client.call (noting deliver) payload)) ∧
      (∀ options, AsksOnce apiKey baseUrl ""
          { model := (last? model? options).getD defaultModel
            messages := [⟨.user, "Hello"⟩]
            temperature := last? temperature? options
            maxTokens := last? maxTokens? options }
          deliver (client.validate (noting deliver) options)) ∧
      ∀ options options', Rearranged options options' →
        client.validate (noting deliver) options' = client.validate (noting deliver) options := by
  refine ⟨of apiKey baseUrl, make_eq hkey, fun payload e he handed => ?_,
    fun payload p hp handed => ?_, fun options handed => ?_, fun options options' h => ?_⟩
  · unfold call
    rw [he]
  · refine ⟨_, ?_, request_posts apiKey baseUrl (.ofParams p), ?_⟩ <;> unfold call <;>
      simp only [hp, complete_noting]
    exact outcome_delivered ..
  · rw [← Completion.trial_eq]
    refine ⟨_, ?_, request_posts apiKey baseUrl (.trial options), ?_⟩ <;> unfold validate <;>
      simp only [complete_noting]
    exact outcome_delivered ..
  · -- a trial depends on the last option of each sort only
    have htrial : Completion.trial options' = Completion.trial options := by
      rw [Completion.trial_eq, Completion.trial_eq]
      unfold last?
      rw [h.models, h.temperatures, h.maxTokens]
    funext handed
    unfold validate
    rw [htrial]

/-- A conversation of two turns, and how warm the answer is to be. -/
def greetingParams : Params where
  method := none
  model := "gpt-4"
  temperature := some (.ofRatio false 1 2)
  topP := none
  conversation := [⟨.user, "Hi"⟩, ⟨.assistant, "Hello"⟩]
  taskId := none
  incremental := false

/-- A call with a conversation, to a server that is busy. -/
theorem parameters_posted_busy :
    ∃ client r members, make "sk-key" "http://localhost:8080/v1//" = .ok client ∧
      client.call (noting fun _ => .ok (503, "busy")) greetingParams.marshal [] =
        (.error (.api .openAi 503 "busy"), [r]) ∧
      r.address = "http://localhost:8080/v1/chat/completions" ∧ r.token = "sk-key" ∧
      r.body = (Json.obj members).text ∧
      Json.member? "model" members = some (.str "gpt-4") ∧
      Json.member? "messages" members = some (.arr
        [.obj [("role", .str "user"), ("content", .str "Hi")],
          .obj [("role", .str "assistant"), ("content", .str "Hello")]]) ∧
      Json.member? "temperature" members = some (.num (.single (.ofRatio false 1 2))) ∧
      Json.member? "top_p" members = none ∧ Json.member? "max_tokens" members = none := by
  obtain ⟨client, hmake, -, hcall, -⟩ :=
    parameters_posted (show "sk-key" ≠ "" by decide) "http://localhost:8080/v1//"
      fun _ => .ok (503, "busy")
  have hpayload : Params.unmarshal greetingParams.marshal = .ok greetingParams := by
    decide +kernel
  obtain ⟨r, hhanded, hposts, houtcome⟩ := hcall _ _ hpayload []
  have hrefused := houtcome.refused 503 "busy" rfl (by decide)
  obtain ⟨base, hbase, haddress⟩ := hposts.address
  obtain ⟨members, hbody, hasks⟩ := hposts.body
  refine ⟨client, r, members, hmake, Prod.ext hrefused hhanded, ?_, hposts.token, hbody,
    hasks.model, hasks.messages, hasks.temperature, hasks.topP, hasks.maxTokens⟩
  rw [haddress, hbase.eq]
  decide +kernel

end Client

end ModelKeeper

import ModelKeeper.Chat.Vendors

/-!
# Vendors that do not tell keys from each other

Vendors are blind to some keys (`Vendors.Blind`) if connections that differ in nothing but such a
key meet with the same answers.  This is so of vendors that are reached by the client for chat
completions, if the HTTP library does not tell them from each other (`Vendors.blind_overHttp`): all
that the client itself looks at is whether there is a key, and the rest of a request is the same.

A `Network` has servers whose answers are given beforehand, and so is blind to keys
(`Network.blind`).
-/

namespace ModelKeeper

variable {σ : Type}

/-- Whether two connections differ in nothing but the key, and then in keys of a sort. -/
structure Connection.SameButKey (keys : String → Prop) (c c' : Connection) : Prop where
  vendor : c'.vendor = c.vendor
  baseUrl : c'.baseUrl = c.baseUrl
  apiKey : c'.apiKey = c.apiKey ∨ keys c.apiKey ∧ keys c'.apiKey

/-- Whether vendors do not tell keys of a sort from each other: their answers are the same, and so
are all later ones.  What is the same about their states is up to them. -/
structure Vendors.Blind (v : Vendors σ) (keys : String → Prop) (same : σ → σ → Prop) : Prop where
  connect : ∀ c c', c.SameButKey keys c' → v.connect c' = v.connect c
  validate : ∀ c c' options s s', c.SameButKey keys c' → same s s' →
    (v.validate c' options s').1 = (v.validate c options s).1 ∧
      same (v.validate c options s).2 (v.validate c' options s').2
  call : ∀ c c' payload s s', c.SameButKey keys c' → same s s' →
    (v.call c' payload s').1 = (v.call c payload s).1 ∧
      same (v.call c payload s).2 (v.call c' payload s').2

/-- Whether a text can be the key of a client. -/
def Client.IsKey (key : String) : Prop := key ≠ ""

/-- Whether two clients differ in nothing but the key, and then in keys of a sort. -/
structure Client.SameButKey (keys : String → Prop) (c c' : Client) : Prop where
  baseUrl : c'.baseUrl = c.baseUrl
  apiKey : c'.apiKey = c.apiKey ∨ keys c.apiKey ∧ keys c'.apiKey

/-- Whether two requests differ in nothing but the key, and then in keys of a sort. -/
structure ChatRequest.SameButKey (keys : String → Prop) (r r' : ChatRequest) : Prop where
  address : r'.address = r.address
  body : r'.body = r.body
  token : r'.token = r.token ∨ keys r.token ∧ keys r'.token

/-- Whether the HTTP library does not tell keys of a sort from each other. -/
def Client.Exchange.Blind (exchange : Client.Exchange σ) (keys : String → Prop)
    (same : σ → σ → Prop) : Prop :=
  ∀ r r' s s', r.SameButKey keys r' → same s s' →
    (exchange r' s').1 = (exchange r s).1 ∧ same (exchange r s).2 (exchange r' s').2

variable {keys : String → Prop}

/-- Two such connections have such clients, or the same is wrong with them. -/
theorem Connection.SameButKey.ofConnection {c c' : Connection}
    (hkeys : ∀ key, keys key → Client.IsKey key) (h : c.SameButKey keys c') :
    (∃ e, Client.ofConnection c = .error e ∧ Client.ofConnection c' = .error e) ∨
      ∃ x x', Client.ofConnection c = .ok x ∧ Client.ofConnection c' = .ok x' ∧
        x.SameButKey keys x' := by
  obtain ⟨vendor, key, url⟩ := c
  obtain ⟨vendor', key', url'⟩ := c'
  obtain ⟨hvendor, hurl, hkey⟩ := h
  simp only at hvendor hurl hkey
  subst hvendor hurl
  -- whether a key is empty is no difference between the two
  have hempty : key' = "" ↔ key = "" := by
    rcases hkey with rfl | ⟨hkey, hkey'⟩
    · exact Iff.rfl
    · exact iff_of_false (hkeys _ hkey') (hkeys _ hkey)
  unfold Client.ofConnection
  cases vendor' with
  | openAi =>
    unfold Client.make
    simp only [hempty]
    split
    · exact .inl ⟨_, rfl, rfl⟩
    · exact .inr ⟨_, _, rfl, rfl, rfl, hkey⟩
  | _ => exact .inl ⟨_, rfl, rfl⟩

/-- What such clients hand to the library differs in the key at most, so it does the same. -/
theorem Client.SameButKey.complete {c c' : Client} (h : c.SameButKey keys c')
    {exchange : Client.Exchange σ} {same : σ → σ → Prop} (hblind : exchange.Blind keys same)
    {s s' : σ} (hs : same s s') (completion : Completion) :
    (c'.complete exchange completion s').1 = (c.complete exchange completion s).1 ∧
      same (c.complete exchange completion s).2 (c'.complete exchange completion s').2 := by
  have hrequest : (c.request completion).SameButKey keys (c'.request completion) :=
    ⟨congrArg (· ++ "/chat/completions") h.baseUrl, rfl, h.apiKey⟩
  obtain ⟨hanswer, hlater⟩ := hblind _ _ s s' hrequest hs
  unfold Client.complete
  generalize exchange (c.request completion) s = found at hanswer hlater ⊢
  generalize exchange (c'.request completion) s' = found' at hanswer hlater ⊢
  obtain ⟨answer, later⟩ := found
  obtain ⟨answer', later'⟩ := found'
  simp only at hanswer hlater
  subst hanswer
  cases answer' <;> exact ⟨rfl, hlater⟩

/-- Vendors that are reached by a library that does not tell keys from each other do not do so
either, as long as there is a key. -/
theorem Vendors.blind_overHttp {exchange : Client.Exchange σ} {same : σ → σ → Prop}
    (hkeys : ∀ key, keys key → Client.IsKey key) (hblind : exchange.Blind keys same) :
    (overHttp exchange).Blind keys same where
  connect c c' hc := by
    simp only [overHttp]
    -- either neither connection makes a client, or both do
    rcases hc.ofConnection hkeys with ⟨e, he, he'⟩ | ⟨x, x', hx, hx', -⟩
    · rw [he, he']
    · rw [hx, hx']
      rfl
  validate c c' options s s' hc hs := by
    simp only [overHttp]
    rcases hc.ofConnection hkeys with ⟨e, he, he'⟩ | ⟨x, x', hx, hx', hclients⟩
    · rw [he, he']
      exact ⟨rfl, hs⟩
    · obtain ⟨hanswer, hlater⟩ := hclients.complete hblind hs (.trial options)
      rw [hx, hx']
      exact ⟨congrArg (Except.map _) hanswer, hlater⟩
  call c c' payload s s' hc hs := by
    simp only [overHttp]
    rcases hc.ofConnection hkeys with ⟨e, he, he'⟩ | ⟨x, x', hx, hx', hclients⟩
    · rw [he, he']
      exact ⟨rfl, hs⟩
    · rw [hx, hx']
      simp only [Client.call]
      cases Params.unmarshal payload with
      | error e => exact ⟨rfl, hs⟩
      | ok p =>
        obtain ⟨hanswer, hlater⟩ := hclients.complete hblind hs (.ofParams p)
        exact ⟨congrArg (Except.map _) hanswer, hlater⟩

/-! ### Servers whose answers are given -/

/-- What a server does with a request: it answers, or it closes the connection. -/
inductive ServerAction where
  | reply (r : ChatReply)
  | drop
  deriving DecidableEq, Repr

/-- Servers whose answers are given beforehand. -/
structure Network where
  /-- The answers to come. -/
  pending : List ServerAction := []
  /-- The requests that were made, the last one first. -/
  seen : List ChatRequest := []
  deriving DecidableEq, Repr

namespace Network

/-- The answer when none is given: a completion that names the model. -/
def usualReply (r : ChatRequest) : ChatReply :=
  let model := match (Json.parse? (Utf8.ofString r.body)).bind (·.get? "model") with
    | some (.str s) => s
    | _ => ""
  let message := Json.obj [("content", .str ("ok " ++ model))]
  let body := Json.obj [("choices", .arr [.obj [("message", message)]])]
  ⟨200, Utf8.ofString body.text⟩

/-- One exchange. -/
def exchange : Client.Exchange Network := fun r n =>
  let n := { n with seen := r :: n.seen }
  match n.pending with
  | [] => (.ok (usualReply r), n)
  | .reply reply :: pending => (.ok reply, { n with pending })
  | .drop :: pending => (.error (.unanswered r.address), { n with pending })

end Network

/-- Whether two networks are the same but for the keys of the requests that were seen. -/
structure Network.SameButKeys (n n' : Network) : Prop where
  pending : n'.pending = n.pending
  seen : n'.seen.map (fun r => (r.address, r.body)) = n.seen.map (fun r => (r.address, r.body))

/-- Servers whose answers are given beforehand answer whoever asks. -/
theorem Network.exchange_blind (keys : String → Prop) : exchange.Blind keys SameButKeys := by
  intro r r' n n' hr hn
  have hreply : usualReply r' = usualReply r := by
    unfold usualReply
    rw [hr.body]
  have hseen : ∀ pending, SameButKeys ⟨pending, r :: n.seen⟩ ⟨pending, r' :: n'.seen⟩ :=
    fun pending => ⟨rfl, by simp only [List.map_cons, hr.address, hr.body, hn.seen]⟩
  unfold exchange
  simp only [hn.pending, hr.address, hreply]
  split <;> exact ⟨rfl, hseen _⟩

/-- So vendors with such servers do not tell keys from each other. -/
theorem Network.blind : (Vendors.overHttp exchange).Blind Client.IsKey SameButKeys :=
  Vendors.blind_overHttp (fun _ => id) (exchange_blind _)

end ModelKeeper

import ModelKeeper.Proofs.Pass.Writes
import ModelKeeper.Proofs.World.Rekeyed

/-!
# Keys stay secret

In two worlds that are the same but for the keys in secrets, and with vendors that do not tell these
keys from each other, passes do the same (`Pass.keys_stay_secret`).  So nothing that a pass records,
reports, counts or answers tells anything about a key.

Only the check of a language model and the sending of a prompt read a key (`Pass.accord_apiKey`).
Both hand it on to the vendor and to nobody else.
-/

namespace ModelKeeper

theorem ImageStore.Part.kind_ne_secret (p : Part) : p.kind ≠ .secret := by
  cases p <;> decide

namespace Pass

variable {σ α β : Type} {v : Vendors σ} {clock : Nat → Instant} {keys : String → Prop}
  {same : σ → σ → Prop} {a b : Table .secret}

/-- Whether two programs are in accord in two worlds with other keys. -/
abbrev InStep {δ α : Type} (v : Vendors σ) (clock : Nat → Instant) (same : σ → σ → Prop)
    (a b : Table .secret) (p q : Attempt δ α) : Prop :=
  p.Accord (World.ticking v clock) (World.Rekeyed same a b) q

theorem Worked.kind_ne_secret (w : Worked) : w.kind ≠ .secret := by
  cases w <;> decide

theorem reporting_accord : Program.Reporting fun _ p =>
    p.Accord (World.ticking v clock) (World.Rekeyed same a b) p where
  toClosed := Program.closed_accord _ _
  ask r hr := World.accord_open (by cases r <;> trivial)

theorem accord_amend {k : Kind} (half : Half) (key : Key) (hk : k ≠ .secret) (change : Change k)
    (attempts : Nat) : InStep v clock same a b (amend half k key attempts change)
      (amend half k key attempts change) := by
  refine reporting_accord.amend (World.accord_open hk) (World.accord_open trivial) (fun o => ?_)
    attempts
  cases half <;> exact World.accord_open hk

theorem accord_count (m : Metric) : (Program.ask (.count m)).Accord (World.ticking v clock)
    (World.Rekeyed same a b) (Program.ask (.count m)) := World.accord_open trivial

theorem accord_observed {p q : Attempt ChatError α} (hpq : InStep v clock same a b p q)
    (operation : Operation) :
    InStep v clock same a b (observed operation p) (observed operation q) := by
  refine Program.Accord.bind (accord_count _) fun _ => ?_
  refine Program.Accord.bind hpq fun result => ?_
  refine Program.Accord.bind (accord_count _) fun _ => ?_
  cases result with
  | ok a => exact .done _
  | error e => exact Program.Accord.bind (accord_count _) fun _ => .done _

/-- The key of an endpoint may differ, and with it what is done with the key. -/
theorem accord_apiKey (hsecrets : SameButKeys keys a b) (endpoint : Endpoint) (ns : String)
    {f : String → Attempt Failure β}
    (hf : ∀ key key', key' = key ∨ keys key ∧ keys key' →
      InStep v clock same a b (f key) (f key')) :
    InStep v clock same a b ((endpoint.apiKey ns).mapError Failure.auth >>= f)
      ((endpoint.apiKey ns).mapError Failure.auth >>= f) := by
  unfold Endpoint.apiKey
  cases endpoint.secretName? with
  | none => exact .throw _
  | some name =>
    -- the two runs may read different keys from here on
    refine World.accord_secret hsecrets (fun e => .done _) fun o o' hsame => ?_
    have hgiven : InStep v clock same a b
        ((Attempt.of (pure (o.apiKey name))).mapError Failure.auth >>= f)
        ((Attempt.of (pure (o'.apiKey name))).mapError Failure.auth >>= f) := by
      rcases hsame.apiKey name with ⟨e, he, he'⟩ | ⟨key, key', hkey, hkey', hkeys⟩
      · rw [he, he']
        exact .throw _
      · rw [hkey, hkey']
        exact hf key key' hkeys
    exact hgiven

section

variable (hv : v.Blind keys same)
include hv

/-! ### The check of a language model -/

theorem accord_tryModels {c c' : Connection} (hc : c.SameButKey keys c') (models : List String) :
    InStep v clock same a b (Llm.tryModels c models) (Llm.tryModels c' models) := by
  induction models with
  | nil => exact .pure _
  | cons model models ih =>
    have hreply : InStep v clock same a b (.of (.ask (.validate c [.model model])))
        (.of (.ask (.validate c' [.model model]))) := World.accord_validate hv hc _
    refine .bind (.mapError (accord_observed hreply .validate) Failure.chat) fun reply => ?_
    exact .bind ih fun texts => .pure _

theorem accord_connect {c c' : Connection} (hc : c.SameButKey keys c') :
    InStep v clock same a b ((Attempt.of (.ask (.connect c))).mapError Failure.chat)
      ((Attempt.of (.ask (.connect c'))).mapError Failure.chat) :=
  .mapError (World.accord_connect hv hc) _

theorem accord_checkEndpoint (hsecrets : SameButKeys keys a b) (o : Object .llm)
    (endpoint : Endpoint) : InStep v clock same a b (Llm.checkEndpoint o endpoint)
      (Llm.checkEndpoint o endpoint) := by
  refine accord_apiKey hsecrets endpoint _ fun key key' hkeys => ?_
  have hvendor : InStep v clock same a b (.of (pure o.spec.vendor)) (.of (pure o.spec.vendor)) :=
    .done _
  refine .bind (.mapError hvendor _) fun vendor => ?_
  -- from here on the key is in the connection and nowhere else
  have hc : Connection.SameButKey keys ⟨vendor, key, endpoint.baseUrl⟩
      ⟨vendor, key', endpoint.baseUrl⟩ := ⟨rfl, rfl, hkeys⟩
  have htry : ∀ models, InStep v clock same a b
      (do
        (Attempt.of (.ask (.connect ⟨vendor, key, endpoint.baseUrl⟩))).mapError Failure.chat
        let texts ← Llm.tryModels ⟨vendor, key, endpoint.baseUrl⟩ models
        pure ("\n".intercalate texts))
      (do
        (Attempt.of (.ask (.connect ⟨vendor, key', endpoint.baseUrl⟩))).mapError Failure.chat
        let texts ← Llm.tryModels ⟨vendor, key', endpoint.baseUrl⟩ models
        pure ("\n".intercalate texts)) := fun models =>
    .bind (accord_connect hv hc) fun _ => .bind (accord_tryModels hv hc models) fun _ => .pure _
  exact .ite (.bind (.throw _) fun _ => htry _) (htry _)

theorem accord_check (hsecrets : SameButKeys keys a b) (o : Object .llm) :
    InStep v clock same a b (Llm.check o) (Llm.check o) := by
  unfold Llm.check
  cases o.spec.provider.resolve with
  | error e => exact .throw _
  | ok provider =>
    cases provider with
    | thirdParty endpoint => exact accord_checkEndpoint hv hsecrets o endpoint
    | worker reference =>
      exact reporting_accord.checkWorker o reference
        (World.accord_open (show Kind.worker ≠ .secret by decide))

/-! ### The sending of a prompt -/

theorem accord_sendTo (hsecrets : SameButKeys keys a b) (o : Object .prompt) (name : String)
    (llm : LlmSpec) :
    InStep v clock same a b (Prompt.sendTo o name llm) (Prompt.sendTo o name llm) := by
  unfold Prompt.sendTo
  cases llm.provider.resolve with
  | error e => exact .throw _
  | ok provider =>
    cases provider with
    | worker reference => exact .throw _
    | thirdParty endpoint =>
      refine accord_apiKey hsecrets endpoint _ fun key key' hkeys => ?_
      have hvendor : InStep v clock same a b (.of (pure llm.vendor)) (.of (pure llm.vendor)) :=
        .done _
      refine .bind (.mapError hvendor _) fun vendor => ?_
      -- the connections differ in the key only, which vendors do not tell
      have hc : Connection.SameButKey keys ⟨vendor, key, endpoint.baseUrl⟩
          ⟨vendor, key', endpoint.baseUrl⟩ := ⟨rfl, rfl, hkeys⟩
      refine .bind (accord_connect hv hc) fun _ => ?_
      have hreply : ∀ payload, InStep v clock same a b
          (.of (.ask (.call ⟨vendor, key, endpoint.baseUrl⟩ payload)))
          (.of (.ask (.call ⟨vendor, key', endpoint.baseUrl⟩ payload))) := fun payload =>
        World.accord_call hv hc payload
      refine .bind (.mapError (accord_observed (hreply _) .call) _) fun reply => ?_
      exact .pure _

theorem accord_send (hsecrets : SameButKeys keys a b) (o : Object .prompt) :
    InStep v clock same a b (Prompt.send o) (Prompt.send o) := by
  cases hnamed : o.spec.llm.filter (·.name != "") with
  | none =>
    unfold Prompt.send
    rw [hnamed]
    exact .throw _
  | some reference =>
    have hllm : InStep v clock same a b (Objects.get .llm ⟨o.nsOrEmpty, reference.name⟩)
        (Objects.get .llm ⟨o.nsOrEmpty, reference.name⟩) :=
      World.accord_open (show Kind.llm ≠ .secret by decide)
    rw [Prompt.send_eq hnamed]
    exact .bind (.mapError hllm _) fun llm => accord_sendTo hv hsecrets o _ llm.spec

/-! ### Passes -/

theorem permits_accord (hsecrets : SameButKeys keys a b) (w : Worked) (key : Key) :
    w.Permits key (fun _ => True) fun _ p =>
      p.Accord (World.ticking v clock) (World.Rekeyed same a b) p where
  toReporting := reporting_accord
  label _ place _ type := accord_amend .body place (by decide) _
  record change _ := accord_amend .status key w.kind_ne_secret change
  look _ p := World.accord_open p.kind_ne_secret
  make _ p source := World.accord_open p.kind_ne_secret
  check _ := accord_check hv hsecrets
  send _ := accord_send hv hsecrets
  read next hnext :=
    reporting_accord.bind (World.accord_open w.kind_ne_secret) fun answer =>
      hnext answer fun _ _ => trivial
  addFinalizer place _ := accord_amend .body place w.kind_ne_secret _
  removeFinalizer place _ := accord_amend .body place w.kind_ne_secret _

end

/-! ### One pass after the other -/

/-- A pass to be run: over which object, and with which settings. -/
structure Errand where
  worked : Worked
  settings : Settings
  key : Key

/-- Passes one after the other, with what comes of each. -/
def series : List Errand → Program (List (Except Failure Directive))
  | [] => pure []
  | e :: rest => do
    let result ← reconcile e.worked e.settings e.key
    let results ← series rest
    pure (result :: results)

theorem accord_series (hv : v.Blind keys same) (hsecrets : SameButKeys keys a b)
    (errands : List Errand) :
    (series errands).Accord (World.ticking v clock) (World.Rekeyed same a b) (series errands) := by
  induction errands with
  | nil => exact .done _
  | cons e rest ih =>
    have hpass : (reconcile e.worked e.settings e.key).Accord (World.ticking v clock)
        (World.Rekeyed same a b) (reconcile e.worked e.settings e.key) :=
      (permits_accord hv hsecrets e.worked e.key).reconcile
    exact .bind hpass fun result => .bind ih fun results => .done _

/-- **Keys stay secret.**  Passes of any sort are run one after the other in two worlds that differ
in nothing but the bytes of the keys in secrets, and in the state of the vendors.  If the vendors do
not tell the keys from each other, then both runs give the same directives and failures, the same
events, the same counts and, but for the secrets, the same objects; and the secrets are those from
the beginning. -/
theorem keys_stay_secret (v : Vendors σ) (clock : Nat → Instant) {keys : String → Prop}
    {same : σ → σ → Prop} (hv : v.Blind keys same) (w : World σ) (looks : Nat)
    {secrets : Table .secret} {vendors : σ}
    (hsecrets : SameButKeys keys (w.cluster.tables .secret) secrets)
    (hvendors : same w.vendors vendors) (errands : List Errand) :
    let left := (series errands).run (World.ticking v clock) (w, looks)
    let right :=
      (series errands).run (World.ticking v clock) (w.withSecrets secrets vendors, looks)
    right.1 = left.1 ∧ left.2.1.cluster.tables .secret = w.cluster.tables .secret ∧
      ∃ later, same left.2.1.vendors later ∧
        right.2 = (left.2.1.withSecrets secrets later, left.2.2) := by
  intro left right
  have hstart : World.Rekeyed same (w.cluster.tables .secret) secrets (w, looks)
      (w.withSecrets secrets vendors, looks) := .intro looks rfl hvendors
  obtain ⟨hresults, hend⟩ := accord_series hv hsecrets errands _ _ hstart
  refine ⟨hresults, ?_⟩
  have hworlds : ∀ s t, World.Rekeyed same (w.cluster.tables .secret) secrets s t →
      s.1.cluster.tables .secret = w.cluster.tables .secret ∧
        ∃ later, same s.1.vendors later ∧ t = (s.1.withSecrets secrets later, s.2) := by
    rintro _ _ ⟨looks, ha, hlater⟩
    exact ⟨ha, _, hlater, rfl⟩
  exact hworlds _ _ hend

/-- A language model that is worked for, with its key in the secret `s`. -/
def keyedLlm : Object .llm where
  metadata :=
    { name := some "m"
      ns := some "default"
      finalizers := some [Kind.llm.finalizer]
      labels := some (SortedMap.empty.insert providerLabel ProviderType.thirdParty.name) }
  spec :=
    { type := "openai"
      models := ["x"]
      provider :=
        { endpoint := some { url := "http://localhost", authSecret := some { name := "s" } } } }

/-- A prompt for it. -/
def keyedPrompt : Object .prompt where
  metadata :=
    { name := some "p"
      ns := some "default"
      finalizers := some [Kind.prompt.finalizer] }
  spec := { llm := some { name := "m" } }

/-- A secret with these bytes as the key. -/
def secretWith (bytes : List UInt8) : Object .secret where
  metadata := { name := some "s", ns := some "default" }
  spec := { data := some (SortedMap.empty.insert apiKeyEntry bytes) }

/-- The secrets of a namespace with this one. -/
def secretsWith (bytes : List UInt8) : Table .secret :=
  SortedMap.empty.insert ⟨"default", "s"⟩ (secretWith bytes)

/-- A world with all of them, and a server that answers. -/
def keyedWorld (bytes : List UInt8) : World Network where
  cluster :=
    ((Cluster.empty.insert keyedLlm).2.insert keyedPrompt).2.setTable .secret (secretsWith bytes)
  vendors := {}

/-- Two worlds with different keys, both of which are used. -/
theorem keys_stay_secret_used :
    let v := Vendors.overHttp Network.exchange
    let w := keyedWorld [107]
    let secrets := secretsWith [113]
    let errands : List Errand := [⟨.llm, {}, ⟨"default", "m"⟩⟩, ⟨.prompt, {}, ⟨"default", "p"⟩⟩]
    v.Blind Client.IsKey Network.SameButKeys ∧
      SameButKeys Client.IsKey (w.cluster.tables .secret) secrets ∧
      w.cluster.tables .secret ≠ secrets ∧ w.vendors.SameButKeys w.vendors ∧
      let left := (series errands).run (World.ticking v fun _ => ⟨0, 0⟩) (w, 0)
      let right :=
        (series errands).run (World.ticking v fun _ => ⟨0, 0⟩) (w.withSecrets secrets w.vendors, 0)
      right.1 = left.1 ∧ left.2.1.cluster.tables .secret = w.cluster.tables .secret ∧
        ∃ later, left.2.1.vendors.SameButKeys later ∧
          right.2 = (left.2.1.withSecrets secrets later, left.2.2) := by
  intro v w secrets errands
  have hblind : v.Blind Client.IsKey Network.SameButKeys := Network.blind
  have hkey : ∀ byte, byte = 107 ∨ byte = 113 → SpellsKey Client.IsKey [byte] := by
    rintro byte (rfl | rfl)
    · exact ⟨by decide, "k", by decide +kernel, show "k" ≠ "" by decide⟩
    · exact ⟨by decide, "q", by decide +kernel, show "q" ≠ "" by decide⟩
  have hsecrets : SameButKeys Client.IsKey (w.cluster.tables .secret) secrets :=
    (SameButKeys.refl _ .empty).insert ⟨"default", "s"⟩
      (.rekeyed rfl (by decide +kernel) (by decide +kernel) (by decide +kernel)
        (hkey 107 (.inl rfl)) (hkey 113 (.inr rfl)))
  have hne : w.cluster.tables .secret ≠ secrets := by decide +kernel
  have hvendors : w.vendors.SameButKeys w.vendors := ⟨rfl, rfl⟩
  exact ⟨hblind, hsecrets, hne, hvendors,
    keys_stay_secret v (fun _ => ⟨0, 0⟩) hblind w 0 hsecrets hvendors errands⟩

/-- The key does go out to the server. -/
example : ((series [⟨.llm, {}, ⟨"default", "m"⟩⟩]).run
    (World.ticking (Vendors.overHttp Network.exchange) fun _ => ⟨0, 0⟩)
    (keyedWorld [107], 0)).2.1.vendors.seen.map (·.token) = ["k"] := by
  decide +kernel

end Pass

end ModelKeeper

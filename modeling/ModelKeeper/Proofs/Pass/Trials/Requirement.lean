import Mathlib.Tactic.Push
import ModelKeeper.Proofs.Pass.Settling.Llm

/-!
# What is required of a language model with an endpoint

To check a language model that is served by an endpoint means to go through a list of requirements:
there has to be a key, a vendor, a list of models and a client, and all the models have to answer.
`Requirement` is this list, in order.  `Requirement.IsMet` says of each what it is about, and
`Requirement.Tells` what the failure is if it is the first one that is not met.

Everything here is said of the answers that a handler would give, not of the program that asks.
-/

namespace ModelKeeper

namespace Vendor

variable {name : String}

theorem ofName_eq_ok {vendor : Vendor} : ofName name = .ok vendor ↔ vendor.name = name := by
  unfold ofName
  split
  · next h => cases vendor <;> simp [Vendor.name, h]
  · next hopenAi =>
    split
    · next h => cases vendor <;> simp [Vendor.name, h]
    · next hdeepSeek =>
      cases vendor
      · simpa [Vendor.name] using Ne.symm hopenAi
      · simpa [Vendor.name] using Ne.symm hdeepSeek

theorem ofName_of_unknown (h : ¬ ∃ vendor : Vendor, vendor.name = name) :
    ofName name = .error (.unsupportedVendor name) := by
  have hopenAi : name ≠ "openai" := fun heq => h ⟨.openAi, heq.symm⟩
  have hdeepSeek : name ≠ "deepseek" := fun heq => h ⟨.deepSeek, heq.symm⟩
  unfold ofName
  rw [if_neg hopenAi, if_neg hdeepSeek]

theorem name_injective {vendor vendor' : Vendor} (h : vendor.name = vendor'.name) :
    vendor = vendor' := by
  cases vendor <;> cases vendor' <;> first | rfl | exact absurd h (by decide)

end Vendor

/-- Whether an exchange is one with a vendor. -/
def Exchange.isDealing (x : Exchange) : Bool :=
  match x.request with
  | .validate _ _ | .call _ _ => true
  | _ => false

namespace Pass.Llm

variable {σ : Type} {h : Handler σ} {s s₁ s' : σ} {o : Object .llm} {e : Endpoint}

/-! ### Trials -/

/-- A model that is tried, and the answer of the vendor. -/
structure Trial where
  model : String
  answer : Except ChatError Reply

namespace Trial

/-- Whether the vendor did not fail. -/
def isGood (t : Trial) : Bool :=
  match t.answer with
  | .ok _ => true
  | .error _ => false

/-- The exchange with the vendor. -/
def exchange (c : Connection) (t : Trial) : Exchange := ⟨.validate c [.model t.model], t.answer⟩

theorem isGood_of_ok {t : Trial} {reply : Reply} (ht : t.answer = .ok reply) : t.isGood = true := by
  simp [isGood, ht]

theorem isGood_of_error {t : Trial} {err : ChatError} (ht : t.answer = .error err) :
    t.isGood = false := by
  simp [isGood, ht]

end Trial

/-- A request to try a model, with its counts. -/
def tryModel (c : Connection) (model : String) : Attempt ChatError Reply :=
  observed .validate (.of (.ask (.validate c [.model model])))

/-- The trials of models one after the other, if none were left out. -/
def trials (h : Handler σ) (c : Connection) : List String → σ → List Trial
  | [], _ => []
  | model :: models, s =>
    let (answer, s) := (tryModel c model).outcome.run h s
    ⟨model, answer⟩ :: trials h c models s

/-- The trials up to the first one that fails. -/
def made (ts : List Trial) : List Trial :=
  ts.takeWhile (·.isGood) ++ (ts.dropWhile (·.isGood)).take 1

/-- What the vendor says to all trials, or the first failure. -/
def said : List Trial → Except Failure (List String)
  | [] => .ok []
  | t :: ts =>
    match t.answer with
    | .error err => .error (.chat err)
    | .ok reply => (said ts).map (reply.text :: ·)

theorem models_trials (h : Handler σ) (c : Connection) (models : List String) (s : σ) :
    (trials h c models s).map (·.model) = models := by
  induction models generalizing s with
  | nil => rfl
  | cons model models ih => exact congrArg (model :: ·) (ih _)

/-- Either all trials are good, or there is a first one that fails. -/
theorem good_or_failing (ts : List Trial) :
    (∃ replies : List Reply, ts.map (·.answer) = replies.map .ok) ∨
      ∃ good t rest err, ts = good ++ t :: rest ∧ (∀ g ∈ good, g.isGood = true) ∧
        t.answer = .error err := by
  induction ts with
  | nil => exact .inl ⟨[], rfl⟩
  | cons t ts ih =>
    cases ht : t.answer with
    | error err => exact .inr ⟨[], t, ts, err, rfl, nofun, ht⟩
    | ok reply =>
      rcases ih with ⟨replies, hreplies⟩ | ⟨good, t', rest, err, rfl, hgood, ht'⟩
      · exact .inl ⟨reply :: replies, by simp [ht, hreplies]⟩
      · refine .inr ⟨t :: good, t', rest, err, rfl, fun g hg => ?_, ht'⟩
        rcases List.mem_cons.1 hg with rfl | hg
        · exact Trial.isGood_of_ok ht
        · exact hgood g hg

theorem made_cons_ok (model : String) (reply : Reply) (ts : List Trial) :
    made (⟨model, .ok reply⟩ :: ts) = ⟨model, .ok reply⟩ :: made ts := rfl

theorem said_good {ts : List Trial} {replies : List Reply}
    (h : ts.map (·.answer) = replies.map .ok) : said ts = .ok (replies.map (·.text)) := by
  induction ts generalizing replies with
  | nil => cases replies with
    | nil => rfl
    | cons reply replies => cases h
  | cons t ts ih =>
    cases replies with
    | nil => cases h
    | cons reply replies =>
      obtain ⟨ht, hts⟩ := List.cons.inj h
      rw [said, show t.answer = .ok reply from ht, ih hts]
      rfl

theorem said_failing {good rest : List Trial} {t : Trial} {err : ChatError}
    (hgood : ∀ g ∈ good, g.isGood = true) (ht : t.answer = .error err) :
    said (good ++ t :: rest) = .error (.chat err) := by
  induction good with
  | nil => rw [List.nil_append, said, ht]
  | cons g good ih =>
    have hrest := ih fun g hg => hgood g (List.mem_cons_of_mem _ hg)
    obtain ⟨model, answer⟩ := g
    cases answer with
    | error err => cases hgood _ (List.mem_cons_self ..)
    | ok reply => rw [List.cons_append, said, hrest]; rfl

/-! ### What is required -/

/-- What is required of a language model with an endpoint, in the order in which it is checked. -/
inductive Requirement where
  | secretNamed
  | secretThere
  | keyThere
  | keyReadable
  | vendorKnown
  | modelsListed
  | clientThere
  | modelsAnswer
  deriving DecidableEq

/-- The place of a requirement in the list. -/
def Requirement.place : Requirement → Nat
  | .secretNamed => 0
  | .secretThere => 1
  | .keyThere => 2
  | .keyReadable => 3
  | .vendorKnown => 4
  | .modelsListed => 5
  | .clientThere => 6
  | .modelsAnswer => 7

/-- Whether the endpoint names this secret. -/
def Names (e : Endpoint) (name : String) : Prop :=
  name ≠ "" ∧ ∃ r, e.authSecret = some r ∧ r.name = name

/-- Whether the endpoint names a secret that is found beside the language model. -/
def Finds (h : Handler σ) (s : σ) (o : Object .llm) (e : Endpoint) (name : String)
    (secret : Object .secret) : Prop :=
  Names e name ∧ (h.answer (.get .secret ⟨o.nsOrEmpty, name⟩) s).1 = .ok secret

/-- Whether a secret holds these bytes as the key. -/
def Holds (secret : Object .secret) (bytes : List UInt8) : Prop :=
  secret.spec.data.bind (·.get? apiKeyEntry) = some bytes ∧ bytes ≠ []

/-- Whether there is this key, and this state when it has been read. -/
def HasKey (h : Handler σ) (s : σ) (o : Object .llm) (e : Endpoint) (key : String) (s' : σ) :
    Prop :=
  ∃ name secret bytes, Finds h s o e name secret ∧ Holds secret bytes ∧
    Utf8.decode? bytes = some key ∧ s' = (h.answer (.get .secret ⟨o.nsOrEmpty, name⟩) s).2

/-- Whether the vendor is to be reached by this connection, and this is the state when all that is
needed for it is known. -/
def Approaches (h : Handler σ) (s : σ) (o : Object .llm) (e : Endpoint) (c : Connection) (s' : σ) :
    Prop :=
  HasKey h s o e c.apiKey s' ∧ c.vendor.name = o.spec.type ∧ c.baseUrl = e.baseUrl

/-- The models of a language model of a vendor. -/
def listed (o : Object .llm) (vendor : Vendor) : List String :=
  if o.spec.models = [] then vendor.defaultModels else o.spec.models

/-- The trials of all models over a connection, once there is a client. -/
def tried (h : Handler σ) (o : Object .llm) (c : Connection) (s' : σ) : List Trial :=
  trials h c (listed o c.vendor) (h.answer (.connect c) s').2

/-- Whether a requirement is met by a language model with an endpoint, if it is checked in some
state. -/
def Requirement.IsMet (h : Handler σ) (s : σ) (o : Object .llm) (e : Endpoint) :
    Requirement → Prop
  | .secretNamed => ∃ name, Names e name
  | .secretThere => ∃ name secret, Finds h s o e name secret
  | .keyThere => ∃ name secret bytes, Finds h s o e name secret ∧ Holds secret bytes
  | .keyReadable => ∃ key s', HasKey h s o e key s'
  | .vendorKnown => ∃ vendor : Vendor, vendor.name = o.spec.type
  | .modelsListed => ∃ vendor : Vendor, vendor.name = o.spec.type ∧ listed o vendor ≠ []
  | .clientThere => ∃ c s', Approaches h s o e c s' ∧ (h.answer (.connect c) s').1 = .ok ()
  | .modelsAnswer => ∃ c s', Approaches h s o e c s' ∧ ∀ t ∈ tried h o c s', t.isGood = true

/-- Whether this is the failure if a requirement is the first one that is not met. -/
def Requirement.Tells (h : Handler σ) (s : σ) (o : Object .llm) (e : Endpoint) (f : Failure) :
    Requirement → Prop
  | .secretNamed => f = .auth .missingSecretRef
  | .secretThere => ∃ name err, Names e name ∧
      (h.answer (.get .secret ⟨o.nsOrEmpty, name⟩) s).1 = .error err ∧
      f = .auth (if err.isNotFound then .secretNotFound ⟨o.nsOrEmpty, name⟩ else .store err)
  | .keyThere => ∃ name, Names e name ∧ f = .auth (.emptyKey name)
  | .keyReadable => ∃ name, Names e name ∧ f = .auth (.invalidKey name)
  | .vendorKnown => f = .chat (.unsupportedVendor o.spec.type)
  | .modelsListed => f = .configuration ("no models provided for llm type " ++ o.spec.type)
  | .clientThere => ∃ c s' err, Approaches h s o e c s' ∧
      (h.answer (.connect c) s').1 = .error err ∧ f = .chat err
  | .modelsAnswer => ∃ c s' good t rest err, Approaches h s o e c s' ∧
      tried h o c s' = good ++ t :: rest ∧ (∀ g ∈ good, g.isGood = true) ∧
      t.answer = .error err ∧ f = .chat err

/-- Whether a requirement is the first one that is not met. -/
structure Requirement.FirstUnmet (h : Handler σ) (s : σ) (o : Object .llm) (e : Endpoint)
    (q : Requirement) : Prop where
  unmet : ¬ q.IsMet h s o e
  before : ∀ p : Requirement, p.place < q.place → p.IsMet h s o e

theorem Requirement.firstUnmet_of_unmet {q : Requirement} (hq : ¬ q.IsMet h s o e) :
    ∃ p : Requirement, p.FirstUnmet h s o e := by
  induction hplace : q.place using Nat.strongRecOn generalizing q with
  | _ n ih =>
    by_cases hbefore : ∀ p : Requirement, p.place < q.place → p.IsMet h s o e
    · exact ⟨q, hq, hbefore⟩
    · push Not at hbefore
      obtain ⟨p, hlt, hp⟩ := hbefore
      exact ih p.place (hplace ▸ hlt) hp rfl

/-! ### What is found on the way -/

theorem secretName?_eq_some {name : String} : e.secretName? = some name ↔ Names e name := by
  unfold Endpoint.secretName? Names
  cases e.authSecret with
  | none => simp
  | some r =>
    simp only [Option.some.injEq, exists_eq_left']
    split
    · next hempty => simp [hempty, eq_comm]
    · next hname =>
      constructor
      · rintro ⟨rfl⟩
        exact ⟨hname, rfl⟩
      · rintro ⟨-, rfl⟩
        rfl

theorem Names.unique {name name' : String} (hn : Names e name) (hn' : Names e name') :
    name' = name :=
  Option.some.inj ((secretName?_eq_some.2 hn').symm.trans (secretName?_eq_some.2 hn))

theorem HasKey.unique {key key' : String} {t t' : σ} (hk : HasKey h s o e key t)
    (hk' : HasKey h s o e key' t') : key' = key ∧ t' = t := by
  obtain ⟨name, secret, bytes, ⟨hname, hfound⟩, ⟨hbytes, -⟩, hkey, rfl⟩ := hk
  obtain ⟨name', secret', bytes', ⟨hname', hfound'⟩, ⟨hbytes', -⟩, hkey', rfl⟩ := hk'
  obtain rfl := hname.unique hname'
  obtain rfl := Except.ok.inj (hfound.symm.trans hfound')
  obtain rfl := Option.some.inj (hbytes.symm.trans hbytes')
  exact ⟨Option.some.inj (hkey'.symm.trans hkey), rfl⟩

theorem Approaches.unique {c c' : Connection} {t t' : σ} (hc : Approaches h s o e c t)
    (hc' : Approaches h s o e c' t') : c' = c ∧ t' = t := by
  obtain ⟨hkey, hvendor, hurl⟩ := hc
  obtain ⟨hkey', hvendor', hurl'⟩ := hc'
  obtain ⟨vendor, apiKey, baseUrl⟩ := c
  obtain ⟨vendor', apiKey', baseUrl'⟩ := c'
  obtain ⟨rfl, rfl⟩ := hkey.unique hkey'
  obtain rfl := Vendor.name_injective (hvendor'.trans hvendor.symm)
  obtain rfl : baseUrl' = baseUrl := hurl'.trans hurl.symm
  exact ⟨rfl, rfl⟩

theorem modelsToTry_eq {vendor : Vendor} (hvendor : vendor.name = o.spec.type) :
    o.spec.modelsToTry = listed o vendor := by
  have hknown : o.spec.vendor = .ok vendor := Vendor.ofName_eq_ok.2 hvendor
  unfold LlmSpec.modelsToTry listed
  rw [hknown]
  cases o.spec.models <;> rfl

theorem approaches_of_key {key : String} {vendor : Vendor} (hkey : HasKey h s o e key s')
    (hvendor : vendor.name = o.spec.type) :
    Approaches h s o e ⟨vendor, key, e.baseUrl⟩ s' :=
  ⟨hkey, hvendor, rfl⟩

end Pass.Llm

end ModelKeeper

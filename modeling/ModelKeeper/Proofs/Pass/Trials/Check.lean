import ModelKeeper.Proofs.Pass.Trials.Requirement
import ModelKeeper.Proofs.Program.Trace

/-!
# The check of an endpoint, step by step

The check of an endpoint ends with the first requirement that is not met, and before the trials it
asks nothing of vendors (`Pass.Llm.yields_check_failing`).  Otherwise the trials decide
(`Pass.Llm.yields_check_tried`).  `Pass.Llm.Outcome` puts both together.
-/

namespace ModelKeeper.Pass.Llm

variable {σ : Type} {h : Handler σ} {s s₁ s' : σ} {o : Object .llm} {e : Endpoint}

/-! ### The key -/

theorem apiKey_of_holds {secret : Object .secret} {bytes : List UInt8} (hholds : Holds secret bytes)
    (name : String) :
    secret.apiKey name =
      match Utf8.decode? bytes with
      | some key => .ok key
      | none => .error (.invalidKey name) := by
  obtain ⟨hbytes, hne⟩ := hholds
  unfold Object.apiKey
  rw [hbytes]
  cases bytes with
  | nil => exact absurd rfl hne
  | cons byte bytes => rfl

theorem apiKey_of_not_holds {secret : Object .secret} (hnot : ¬ ∃ bytes, Holds secret bytes)
    (name : String) : secret.apiKey name = .error (.emptyKey name) := by
  unfold Object.apiKey
  cases hbytes : secret.spec.data.bind (·.get? apiKeyEntry) with
  | none => rfl
  | some bytes =>
    cases bytes with
    | nil => rfl
    | cons byte bytes => exact absurd ⟨_, hbytes, List.cons_ne_nil byte bytes⟩ hnot

theorem yields_apiKey_unnamed (hnot : ¬ ∃ name, Names e name) (ns : String) :
    (e.apiKey ns).outcome.Yields h s (.error .missingSecretRef) [] s := by
  have hnone : e.secretName? = none := by
    cases hname : e.secretName? with
    | none => rfl
    | some name => exact absurd ⟨name, secretName?_eq_some.1 hname⟩ hnot
  unfold Endpoint.apiKey
  rw [hnone]
  exact Program.yields_done _

theorem yields_apiKey_found {name : String} {secret : Object .secret}
    (hfinds : Finds h s o e name secret) :
    ∃ xs, (e.apiKey o.nsOrEmpty).outcome.Yields h s (secret.apiKey name) xs
        (h.answer (.get .secret ⟨o.nsOrEmpty, name⟩) s).2 ∧ xs.filter (·.isDealing) = [] := by
  have hread := Program.yields_ask h (.get .secret ⟨o.nsOrEmpty, name⟩) s
  rw [hfinds.2] at hread
  refine ⟨[⟨.get .secret ⟨o.nsOrEmpty, name⟩, .ok secret⟩], ?_, rfl⟩
  unfold Endpoint.apiKey
  rw [secretName?_eq_some.2 hfinds.1]
  exact hread.bind (Program.yields_done _)

theorem yields_apiKey_absent {name : String} {err : AccessError} (hname : Names e name)
    (hanswer : (h.answer (.get .secret ⟨o.nsOrEmpty, name⟩) s).1 = .error err) :
    ∃ xs, (e.apiKey o.nsOrEmpty).outcome.Yields h s
        (.error (if err.isNotFound then .secretNotFound ⟨o.nsOrEmpty, name⟩ else .store err)) xs
        (h.answer (.get .secret ⟨o.nsOrEmpty, name⟩) s).2 ∧ xs.filter (·.isDealing) = [] := by
  have hread := Program.yields_ask h (.get .secret ⟨o.nsOrEmpty, name⟩) s
  rw [hanswer] at hread
  refine ⟨[⟨.get .secret ⟨o.nsOrEmpty, name⟩, .error err⟩], ?_, rfl⟩
  unfold Endpoint.apiKey
  rw [secretName?_eq_some.2 hname]
  exact hread.bind (Program.yields_done _)

theorem yields_apiKey_read {key : String} (hkey : HasKey h s o e key s') :
    ∃ xs, (e.apiKey o.nsOrEmpty).outcome.Yields h s (.ok key) xs s' ∧
      xs.filter (·.isDealing) = [] := by
  obtain ⟨name, secret, bytes, hfinds, hholds, hkey, rfl⟩ := hkey
  have hread := yields_apiKey_found hfinds
  rwa [apiKey_of_holds hholds, hkey] at hread

/-- Without a key, the first requirement that is not met tells why. -/
theorem yields_apiKey_failing {q : Requirement} (hq : q.FirstUnmet h s o e)
    (hauth : q.place ≤ Requirement.keyReadable.place) :
    ∃ err xs s', (e.apiKey o.nsOrEmpty).outcome.Yields h s (.error err) xs s' ∧
      q.Tells h s o e (.auth err) ∧ xs.filter (·.isDealing) = [] := by
  -- the requirement before the first unmet one has given what this one is about
  cases q with
  | secretNamed => exact ⟨_, [], s, yields_apiKey_unnamed hq.unmet _, rfl, rfl⟩
  | secretThere =>
    obtain ⟨name, hname⟩ := hq.before .secretNamed (by decide)
    cases hanswer : (h.answer (.get .secret ⟨o.nsOrEmpty, name⟩) s).1 with
    | ok secret => exact absurd ⟨name, secret, hname, hanswer⟩ hq.unmet
    | error err =>
      obtain ⟨xs, hyields, hxs⟩ := yields_apiKey_absent hname hanswer
      exact ⟨_, xs, _, hyields, ⟨name, err, hname, hanswer, rfl⟩, hxs⟩
  | keyThere =>
    obtain ⟨name, secret, hname, hfound⟩ := hq.before .secretThere (by decide)
    have hnot : ¬ ∃ bytes, Holds secret bytes := fun ⟨bytes, hholds⟩ =>
      hq.unmet ⟨name, secret, bytes, ⟨hname, hfound⟩, hholds⟩
    obtain ⟨xs, hyields, hxs⟩ := yields_apiKey_found ⟨hname, hfound⟩
    rw [apiKey_of_not_holds hnot] at hyields
    exact ⟨_, xs, _, hyields, ⟨name, hname, rfl⟩, hxs⟩
  | keyReadable =>
    obtain ⟨name, secret, bytes, hfinds, hholds⟩ := hq.before .keyThere (by decide)
    have hnone : Utf8.decode? bytes = none := by
      cases hkey : Utf8.decode? bytes with
      | none => rfl
      | some key => exact absurd ⟨key, _, name, secret, bytes, hfinds, hholds, hkey, rfl⟩ hq.unmet
    obtain ⟨xs, hyields, hxs⟩ := yields_apiKey_found hfinds
    rw [apiKey_of_holds hholds, hnone] at hyields
    exact ⟨_, xs, _, hyields, ⟨name, hfinds.1, rfl⟩, hxs⟩
  | _ => exact absurd hauth (by decide)

/-! ### The trials -/

/-- A model is tried once, and the answer is that of the vendor. -/
theorem yields_tryModel (h : Handler σ) (s : σ) (c : Connection) (model : String) :
    ∃ answer xs s', (tryModel c model).outcome.Yields h s answer xs s' ∧
      xs.filter (·.isDealing) = [⟨.validate c [.model model], answer⟩] := by
  have hcount := Program.yields_ask h (.count (.llmRequests .validate)) s
  generalize (h.answer (.count (.llmRequests .validate)) s).2 = s₁ at hcount
  have hreply := Program.yields_ask h (.validate c [.model model]) s₁
  rcases hanswer : h.answer (.validate c [.model model]) s₁ with ⟨answer, s₂⟩
  rw [hanswer] at hreply
  have htime := Program.yields_ask h (.count (.llmRequestDuration .validate)) s₂
  cases answer with
  | ok reply =>
    exact ⟨.ok reply, _, _,
      hcount.bind (hreply.bind (htime.bind (Program.yields_done _))), rfl⟩
  | error err =>
    have herror := Program.yields_ask h (.count (.llmRequestErrors .validate))
    exact ⟨.error err, _, _,
      hcount.bind (hreply.bind (htime.bind ((herror _).bind (Program.yields_done _)))), rfl⟩

/-- The models are tried in turn, up to the first failure. -/
theorem yields_tryModels (h : Handler σ) (c : Connection) (models : List String) (s : σ) :
    ∃ xs s', (tryModels c models).outcome.Yields h s (said (trials h c models s)) xs s' ∧
      xs.filter (·.isDealing) = (made (trials h c models s)).map (Trial.exchange c) := by
  induction models generalizing s with
  | nil => exact ⟨[], s, Attempt.yields_pure _, rfl⟩
  | cons model models ih =>
    obtain ⟨answer, xs, s₁, htry, hxs⟩ := yields_tryModel h s c model
    have hfirst := Attempt.yields_mapError htry Failure.chat
    have htrials : trials h c (model :: models) s = ⟨model, answer⟩ :: trials h c models s₁ := by
      rw [trials, htry.run]
    rw [htrials]
    -- the first failing trial is the last one
    cases answer with
    | error err => exact ⟨xs, s₁, Attempt.yields_seq_error hfirst, hxs⟩
    | ok reply =>
      obtain ⟨ys, s₂, hrest, hys⟩ := ih s₁
      refine ⟨xs ++ ys, s₂, Attempt.yields_seq hfirst ?_, ?_⟩
      · unfold said
        cases hsaid : said (trials h c models s₁) with
        | error f =>
          rw [hsaid] at hrest
          exact Attempt.yields_seq_error hrest
        | ok texts =>
          rw [hsaid] at hrest
          exact Attempt.yields_seq_nil hrest (Attempt.yields_pure _)
      · rw [List.filter_append, hxs, hys, made_cons_ok]
        rfl

/-! ### The check -/

/-- The last part of the check: a client, and the trials of all models. -/
def tryConnection (o : Object .llm) (c : Connection) : Attempt Failure String := do
  (Attempt.of (.ask (.connect c))).mapError Failure.chat
  let texts ← tryModels c o.spec.modelsToTry
  pure ("\n".intercalate texts)

section Check

variable {f : Failure} {r : Except Failure String} {c : Connection} {key : String}
  {xs : List Exchange}

theorem yields_vendor (h : Handler σ) (s : σ) (r : Except ChatError Vendor) :
    ((Attempt.of (pure r)).mapError Failure.chat).outcome.Yields h s (r.mapError Failure.chat) []
      s :=
  Attempt.yields_mapError (p := Attempt.of (pure r)) (Program.yields_done _) _

theorem yields_check_unknown (hkey : HasKey h s o e key s')
    (hvendor : ¬ ∃ vendor : Vendor, vendor.name = o.spec.type) :
    ∃ xs, (checkEndpoint o e).outcome.Yields h s
        (.error (.chat (.unsupportedVendor o.spec.type))) xs s' ∧
      xs.filter (·.isDealing) = [] := by
  obtain ⟨xs, hread, hxs⟩ := yields_apiKey_read hkey
  have hnone : o.spec.vendor = .error (.unsupportedVendor o.spec.type) :=
    Vendor.ofName_of_unknown hvendor
  have hstop := yields_vendor h s' o.spec.vendor
  rw [hnone] at hstop
  refine ⟨xs ++ [], ?_, by rw [List.append_nil, hxs]⟩
  unfold checkEndpoint
  rw [hnone]
  exact Attempt.yields_seq (Attempt.yields_mapError hread _) (Attempt.yields_seq_error hstop)

theorem yields_check_unlisted (hc : Approaches h s o e c s') (hmodels : listed o c.vendor = []) :
    ∃ xs, (checkEndpoint o e).outcome.Yields h s
        (.error (.configuration ("no models provided for llm type " ++ o.spec.type))) xs s' ∧
      xs.filter (·.isDealing) = [] := by
  obtain ⟨hkey, hname, hurl⟩ := hc
  rw [← modelsToTry_eq hname] at hmodels
  obtain ⟨xs, hread, hxs⟩ := yields_apiKey_read hkey
  have hvendor : o.spec.vendor = .ok c.vendor := Vendor.ofName_eq_ok.2 hname
  have hgo := yields_vendor h s' o.spec.vendor
  rw [hvendor] at hgo
  refine ⟨xs ++ ([] ++ []), ?_, by rw [List.append_nil, List.append_nil, hxs]⟩
  unfold checkEndpoint
  rw [hvendor]
  refine Attempt.yields_seq (Attempt.yields_mapError hread _) (Attempt.yields_seq hgo ?_)
  simp only [hmodels, List.isEmpty_nil, if_true, hname]
  exact Attempt.yields_seq_error (Attempt.yields_throw _)

theorem yields_check_approached (hc : Approaches h s o e c s')
    (hmodels : Requirement.modelsListed.IsMet h s o e)
    (hrest : (tryConnection o c).outcome.Yields h s' r xs s₁) :
    ∃ ys, (checkEndpoint o e).outcome.Yields h s r ys s₁ ∧
      ys.filter (·.isDealing) = xs.filter (·.isDealing) := by
  obtain ⟨vendor, key, baseUrl⟩ := c
  obtain ⟨hkey, hname, rfl⟩ := hc
  obtain ⟨ys, hread, hys⟩ := yields_apiKey_read hkey
  have hvendor : o.spec.vendor = .ok vendor := Vendor.ofName_eq_ok.2 hname
  have hgo := yields_vendor h s' o.spec.vendor
  rw [hvendor] at hgo
  have hlisted : o.spec.modelsToTry.isEmpty = false := by
    obtain ⟨vendor', hname', hmodels⟩ := hmodels
    rw [modelsToTry_eq hname']
    exact List.isEmpty_eq_false_iff.2 hmodels
  refine ⟨ys ++ ([] ++ xs), ?_, by rw [List.filter_append, hys]; rfl⟩
  unfold checkEndpoint
  rw [hvendor]
  refine Attempt.yields_seq (Attempt.yields_mapError hread _) (Attempt.yields_seq hgo ?_)
  simp only [hlisted, Bool.false_eq_true, if_false]
  exact hrest

theorem yields_connect_failing {err : ChatError}
    (hanswer : (h.answer (.connect c) s).1 = .error err) :
    ∃ xs s', (tryConnection o c).outcome.Yields h s (.error (.chat err)) xs s' ∧
      xs.filter (·.isDealing) = [] := by
  have hask := Program.yields_ask h (.connect c) s
  rw [hanswer] at hask
  have hconnect := Attempt.yields_mapError (p := Attempt.of (.ask (.connect c))) hask Failure.chat
  exact ⟨_, _, Attempt.yields_seq_error hconnect, rfl⟩

/-- With a client, the models are tried up to the first failure. -/
theorem yields_connect (hname : c.vendor.name = o.spec.type)
    (hanswer : (h.answer (.connect c) s).1 = .ok ()) :
    ∃ xs s', (tryConnection o c).outcome.Yields h s
        ((said (tried h o c s)).map ("\n".intercalate ·)) xs s' ∧
      xs.filter (·.isDealing) = (made (tried h o c s)).map (Trial.exchange c) := by
  have hask := Program.yields_ask h (.connect c) s
  rw [hanswer] at hask
  have hconnect := Attempt.yields_mapError (p := Attempt.of (.ask (.connect c))) hask Failure.chat
  obtain ⟨xs, s', htry, hxs⟩ := yields_tryModels h c (listed o c.vendor) (h.answer (.connect c) s).2
  refine ⟨_ ++ xs, s', Attempt.yields_seq hconnect ?_, hxs⟩
  rw [modelsToTry_eq hname]
  unfold tried
  cases hsaid : said (trials h c (listed o c.vendor) (h.answer (.connect c) s).2) with
  | error f =>
    rw [hsaid] at htry
    exact Attempt.yields_seq_error htry
  | ok texts =>
    rw [hsaid] at htry
    exact Attempt.yields_seq_nil htry (Attempt.yields_pure _)

end Check

/-- What is to be known of the outcome of a check and of the exchanges with vendors that it had. -/
structure Outcome (h : Handler σ) (s : σ) (o : Object .llm) (e : Endpoint)
    (r : Except Failure String) (dealings : List Exchange) : Prop where
  succeeds : (∃ message, r = .ok message) ↔ ∀ q : Requirement, q.IsMet h s o e
  /-- A failure is that of the first requirement that is not met. -/
  failure : ∀ f, r = .error f → ∃ q : Requirement, q.FirstUnmet h s o e ∧ q.Tells h s o e f
  /-- A success tells what the models answer. -/
  message : ∀ message, r = .ok message → ∃ c s', ∃ replies : List Reply,
    Approaches h s o e c s' ∧ (tried h o c s').map (·.answer) = replies.map .ok ∧
      message = "\n".intercalate (replies.map Reply.text)
  silent : (∃ q : Requirement, q ≠ .modelsAnswer ∧ ¬ q.IsMet h s o e) → dealings = []
  tries : (∀ q : Requirement, q ≠ .modelsAnswer → q.IsMet h s o e) →
    ∀ c s', Approaches h s o e c s' → (tried h o c s').map (·.model) = listed o c.vendor ∧
      dealings = (made (tried h o c s')).map (Trial.exchange c)

theorem Outcome.of_unmet {q : Requirement} {f : Failure} (hq : q.FirstUnmet h s o e)
    (hne : q ≠ .modelsAnswer) (hf : q.Tells h s o e f) : Outcome h s o e (.error f) [] where
  succeeds := ⟨fun ⟨_, hr⟩ => (nomatch hr), fun hall => absurd (hall q) hq.unmet⟩
  failure _ hr := ⟨q, hq, Except.error.inj hr ▸ hf⟩
  message _ hr := nomatch hr
  silent _ := rfl
  tries hmet := absurd (hmet q hne) hq.unmet

/-- Before the trials, the first requirement that is not met ends the check. -/
theorem yields_check_failing {q : Requirement} (hq : q.FirstUnmet h s o e)
    (hne : q ≠ .modelsAnswer) :
    ∃ f xs s', (checkEndpoint o e).outcome.Yields h s (.error f) xs s' ∧ q.Tells h s o e f ∧
      xs.filter (·.isDealing) = [] := by
  -- either the key cannot be had, or it is there and the check gets as far as the models
  by_cases hauth : q.place ≤ Requirement.keyReadable.place
  · obtain ⟨err, xs, s', hkey, hf, hxs⟩ := yields_apiKey_failing hq hauth
    exact ⟨.auth err, xs, s', Attempt.yields_seq_error (Attempt.yields_mapError hkey _), hf, hxs⟩
  · rw [Nat.not_le] at hauth
    obtain ⟨key, s', hkey⟩ := hq.before .keyReadable hauth
    cases q with
    | vendorKnown =>
      obtain ⟨xs, hyields, hxs⟩ := yields_check_unknown hkey hq.unmet
      exact ⟨_, xs, s', hyields, rfl, hxs⟩
    | modelsListed =>
      obtain ⟨vendor, hvendor⟩ := hq.before .vendorKnown (by decide)
      have hnone : listed o vendor = [] := not_not.1 fun hne => hq.unmet ⟨vendor, hvendor, hne⟩
      obtain ⟨xs, hyields, hxs⟩ := yields_check_unlisted (approaches_of_key hkey hvendor) hnone
      exact ⟨_, xs, s', hyields, rfl, hxs⟩
    | clientThere =>
      obtain ⟨vendor, hvendor⟩ := hq.before .vendorKnown (by decide)
      have hc := approaches_of_key hkey hvendor
      have hmodels := hq.before .modelsListed (by decide)
      cases hanswer : (h.answer (.connect ⟨vendor, key, e.baseUrl⟩) s').1 with
      | ok _ => exact absurd ⟨_, s', hc, hanswer⟩ hq.unmet
      | error err =>
        obtain ⟨xs, s₁, hconnect, hxs⟩ := yields_connect_failing (o := o) hanswer
        obtain ⟨ys, hyields, hys⟩ := yields_check_approached hc hmodels hconnect
        exact ⟨_, ys, s₁, hyields, ⟨_, s', err, hc, hanswer, rfl⟩, hys.trans hxs⟩
    | modelsAnswer => exact absurd rfl hne
    | _ => exact absurd hauth (by decide)

/-- Once there are models and a client for them, the outcome is that of the trials. -/
theorem yields_check_tried (hmodels : Requirement.modelsListed.IsMet h s o e)
    (hclient : Requirement.clientThere.IsMet h s o e) :
    ∃ c s₁ xs s', Approaches h s o e c s₁ ∧
      (checkEndpoint o e).outcome.Yields h s ((said (tried h o c s₁)).map ("\n".intercalate ·)) xs
        s' ∧
      xs.filter (·.isDealing) = (made (tried h o c s₁)).map (Trial.exchange c) := by
  obtain ⟨c, s₁, hc, hanswer⟩ := hclient
  obtain ⟨xs, s', htry, hxs⟩ := yields_connect hc.2.1 hanswer
  obtain ⟨ys, hyields, hys⟩ := yields_check_approached hc hmodels htry
  exact ⟨c, s₁, ys, s', hc, hyields, hys.trans hxs⟩

/-- If nothing but the answers of the models is wanting then the trials decide. -/
theorem Outcome.of_tried (hmet : ∀ q : Requirement, q ≠ .modelsAnswer → q.IsMet h s o e)
    {c : Connection} (hc : Approaches h s o e c s₁) :
    Outcome h s o e ((said (tried h o c s₁)).map ("\n".intercalate ·))
      ((made (tried h o c s₁)).map (Trial.exchange c)) := by
  have hall : Requirement.modelsAnswer.IsMet h s o e → ∀ q : Requirement, q.IsMet h s o e := by
    intro hanswer q
    by_cases hq : q = .modelsAnswer
    · exact hq ▸ hanswer
    · exact hmet q hq
  have htries : ∀ c' s', Approaches h s o e c' s' →
      (tried h o c' s').map (·.model) = listed o c'.vendor ∧
        (made (tried h o c s₁)).map (Trial.exchange c) =
          (made (tried h o c' s')).map (Trial.exchange c') := by
    intro c' s' hc'
    obtain ⟨rfl, rfl⟩ := hc.unique hc'
    exact ⟨models_trials h _ _ _, rfl⟩
  have hsilent : ¬ ∃ q : Requirement, q ≠ .modelsAnswer ∧ ¬ q.IsMet h s o e :=
    fun ⟨q, hne, hq⟩ => hq (hmet q hne)
  -- all trials are good, or there is a first one that is not
  rcases good_or_failing (tried h o c s₁) with
    ⟨replies, hgood⟩ | ⟨good, t, rest, err, hts, hgood, ht⟩
  · have hsaid : (said (tried h o c s₁)).map ("\n".intercalate ·) =
        .ok ("\n".intercalate (replies.map (·.text))) := by rw [said_good hgood]; rfl
    have hanswer : Requirement.modelsAnswer.IsMet h s o e := by
      refine ⟨c, s₁, hc, fun t ht => ?_⟩
      have hmem : t.answer ∈ replies.map Except.ok := hgood ▸ List.mem_map_of_mem ht
      obtain ⟨reply, -, hreply⟩ := List.mem_map.1 hmem
      exact Trial.isGood_of_ok hreply.symm
    rw [hsaid]
    exact
      { succeeds := ⟨fun _ => hall hanswer, fun _ => ⟨_, rfl⟩⟩
        failure := nofun
        message := fun message hr => ⟨c, s₁, replies, hc, hgood, (Except.ok.inj hr).symm⟩
        silent := fun h => absurd h hsilent
        tries := fun _ => htries }
  · have hsaid : (said (tried h o c s₁)).map ("\n".intercalate ·) = .error (.chat err) := by
      rw [hts, said_failing hgood ht]
      rfl
    have hunmet : ¬ Requirement.modelsAnswer.IsMet h s o e := by
      rintro ⟨c', s', hc', hall⟩
      obtain ⟨rfl, rfl⟩ := hc.unique hc'
      have hbad := hall t (by rw [hts]; simp)
      rw [Trial.isGood_of_error ht] at hbad
      cases hbad
    have hfirst : Requirement.modelsAnswer.FirstUnmet h s o e :=
      ⟨hunmet, fun p hp => hmet p fun heq => by rw [heq] at hp; exact absurd hp (Nat.lt_irrefl _)⟩
    rw [hsaid]
    exact
      { succeeds := ⟨fun ⟨_, hr⟩ => (nomatch hr), fun h => absurd (h _) hunmet⟩
        failure := fun f hr => ⟨.modelsAnswer, hfirst, c, s₁, good, t, rest, err, hc, hts, hgood,
          ht, (Except.error.inj hr).symm⟩
        message := nofun
        silent := fun h => absurd h hsilent
        tries := fun _ => htries }

theorem yields_checkEndpoint (h : Handler σ) (s : σ) (o : Object .llm) (e : Endpoint) :
    ∃ r xs s', (checkEndpoint o e).outcome.Yields h s r xs s' ∧
      Outcome h s o e r (xs.filter (·.isDealing)) := by
  by_cases hmet : ∀ q : Requirement, q ≠ .modelsAnswer → q.IsMet h s o e
  · obtain ⟨c, s₁, xs, s', hc, hyields, hxs⟩ :=
      yields_check_tried (hmet .modelsListed (by decide)) (hmet .clientThere (by decide))
    exact ⟨_, xs, s', hyields, hxs ▸ Outcome.of_tried hmet hc⟩
  · push Not at hmet
    obtain ⟨q, hne, hq⟩ := hmet
    obtain ⟨p, hp⟩ := Requirement.firstUnmet_of_unmet hq
    have hlast : p ≠ .modelsAnswer := by
      rintro rfl
      exact hq (hp.before q (by cases q <;> first | decide | exact absurd rfl hne))
    obtain ⟨f, xs, s', hyields, hf, hxs⟩ := yields_check_failing hp hlast
    exact ⟨_, xs, s', hyields, hxs ▸ Outcome.of_unmet hp hlast hf⟩

end ModelKeeper.Pass.Llm

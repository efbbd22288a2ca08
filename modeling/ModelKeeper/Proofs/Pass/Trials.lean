import ModelKeeper.Proofs.Pass.Failures
import ModelKeeper.Proofs.Pass.Trials.Check

/-!
# What the check of an endpoint comes to

`Pass.Llm.check_tells_first_unmet` says that the check of a language model with an endpoint succeeds
if and only if all requirements are met, that otherwise it fails as the first one that is not met
tells it to, which models are tried, and what the pass makes of it.  It holds wherever passes run:
nothing is assumed of the store, and nothing of the vendors.
-/

namespace ModelKeeper.Pass.Llm

variable {σ : Type} {h : Handler σ} {s s₁ s' : σ} {o : Object .llm} {e : Endpoint}

/-! ### The recording -/

/-- Whether the `Ready` condition says that all is well, with this message. -/
def Reports (message : String) (o : Object .llm) : Prop :=
  let c := (o.status.getD {}).conditions.get .ready
  c.status = .isTrue ∧ c.message = message

/-- Whether an exchange shows that the store has the language model with this message: it is there
when the language model is read, or it is written. -/
inductive Shown (key : Key) (message : String) : Exchange → Prop
  | present {o : Object .llm} : Reports message o → Shown key message ⟨.get .llm key, .ok o⟩
  | written {o o' : Object .llm} : Reports message o →
    Shown key message ⟨.updateStatus .llm o, .ok o'⟩

/-- Whether every status that is written has this message. -/
def WritesOnly (message : String) (xs : List Exchange) : Prop :=
  ∀ (o : Object .llm) answer, ⟨.updateStatus .llm o, answer⟩ ∈ xs → Reports message o

theorem succeeded_reports (c : Condition) (message : String) (now : Instant) :
    (c.succeeded message now).status = .isTrue ∧ (c.succeeded message now).message = message := by
  unfold Condition.succeeded
  split
  · next h => exact ⟨h.2.1, h.2.2.2⟩
  · exact ⟨rfl, rfl⟩

theorem reports_recordReady (message : String) (now : Instant) (o : Object .llm) :
    Reports message (recordReady (·.succeeded message now) o).1 ∧
      ((recordReady (·.succeeded message now) o).2 = false → Reports message o) := by
  have hnext := succeeded_reports ((o.status.getD {}).conditions.get .ready) message now
  have htype := ((o.status.getD {}).conditions.get .ready).succeeded_type message now
  unfold recordReady
  simp only
  split
  · next hsame =>
    rw [hsame] at hnext
    exact ⟨hnext, fun _ => hnext⟩
  · refine ⟨?_, nofun⟩
    unfold Reports
    simp only [Option.getD_some, Conditions.get_set, htype, if_true]
    exact hnext

namespace WritesOnly

variable {message : String} {past : List Exchange}

theorem nil (message : String) : WritesOnly message [] :=
  fun _ _ hmem => absurd hmem List.not_mem_nil

theorem look (hpast : WritesOnly message past) {x : Exchange} (hquiet : x.request.IsQuiet) :
    WritesOnly message (x :: past) := by
  intro o answer hmem
  rcases List.mem_cons.1 hmem with heq | hmem
  · subst heq
    exact hquiet.elim
  · exact hpast o answer hmem

theorem write (hpast : WritesOnly message past) {o : Object .llm} (hreports : Reports message o)
    (answer : Except AccessError (Object .llm)) :
    WritesOnly message (⟨.updateStatus .llm o, answer⟩ :: past) := by
  intro o' answer' hmem
  rcases List.mem_cons.1 hmem with heq | hmem
  · have hrequest := congrArg Exchange.request heq
    injection hrequest with _ ho
    exact ho ▸ hreports
  · exact hpast o' answer' hmem

theorem append {xs ys : List Exchange} (hxs : WritesOnly message xs) (hys : WritesOnly message ys) :
    WritesOnly message (xs ++ ys) :=
  fun o answer hmem => (List.mem_append.1 hmem).elim (hxs o answer) (hys o answer)

theorem of_reverse (h : WritesOnly message past.reverse) : WritesOnly message past :=
  fun o answer hmem => h o answer (List.mem_reverse.2 hmem)

end WritesOnly

/-- What is known when a success has been recorded, or could not be. -/
def Recorded (key : Key) (message : String) (r : Except AccessError (Object .llm))
    (past : List Exchange) : Prop :=
  WritesOnly message past ∧ ∀ o, r = .ok o → ∃ x ∈ past, Shown key message x

theorem WritesOnly.failed {key : Key} {message : String} {past : List Exchange}
    (hpast : WritesOnly message past) (err : AccessError) :
    Recorded key message (.error err) past :=
  ⟨hpast, fun _ hr => by cases hr⟩

section Recording

variable {key : Key} {message : String} {now : Instant} {past : List Exchange}

theorem wp_attempt_recording {onConflict : AccessError → Program (Except AccessError (Object .llm))}
    (hconflict : ∀ err past, WritesOnly message past →
      (onConflict err).wp .noting (Recorded key message) past) (hpast : WritesOnly message past) :
    (amend.attempt .status .llm key (fun _ => recordReady (·.succeeded message now))
      onConflict).wp .noting (Recorded key message) past := by
  rw [amend.wp_attempt]
  intro answer
  have hread : WritesOnly message (⟨.get .llm key, answer⟩ :: past) :=
    hpast.look trivial
  cases answer with
  | error err => exact hread.failed err
  | ok copy =>
    -- the copy shows the verdict already, or it is written so that it does
    intro time
    obtain ⟨hreports, hpresent⟩ := reports_recordReady message now copy
    have hlooked : WritesOnly message (⟨.now, time⟩ :: ⟨.get .llm key, .ok copy⟩ :: past) :=
      hread.look trivial
    split
    · intro answer
      have hwrote := hlooked.write hreports answer
      cases answer with
      | ok o => exact ⟨hwrote, fun _ _ => ⟨_, List.mem_cons_self .., .written hreports⟩⟩
      | error err =>
        refine (?_ : if err.isConflict then (onConflict err).wp .noting (Recorded key message) _
          else Recorded key message (.error err) _)
        split
        · exact hconflict err _ hwrote
        · exact hwrote.failed err
    · next hflag =>
      refine ⟨hlooked, fun _ _ => ⟨_, ?_, .present (hpresent (by simpa using hflag))⟩⟩
      exact List.mem_cons_of_mem _ (List.mem_cons_self ..)

theorem wp_record_recording (attempts : Nat) (hpast : WritesOnly message past) :
    (amend .status .llm key attempts fun _ => recordReady (·.succeeded message now)).wp .noting
      (Recorded key message) past := by
  have hgo : ∀ retries past, WritesOnly message past →
      (amend.go .status .llm key (fun _ => recordReady (·.succeeded message now)) retries).wp
        .noting (Recorded key message) past := by
    intro retries
    induction retries with
    | zero => exact fun past hpast => wp_attempt_recording (fun err _ h => h.failed err) hpast
    | succ retries ih => exact fun past hpast => wp_attempt_recording (fun _ => ih) hpast
  exact hgo (attempts - 1) past hpast

/-- A recording asks nothing of vendors. -/
theorem persist_silent (settings : Settings) (key : Key) (next : Condition → Condition) :
    (persist settings key next).Keeps .noting (fun past => past.filter (·.isDealing) = []) := by
  have hrecord : (amend .status .llm key settings.writeAttempts fun _ => recordReady next).Keeps
      .noting (fun past => past.filter (·.isDealing) = []) :=
    amend.keeps_status Meaning.noting_monotone (fun _ hpast _ => hpast) (fun _ hpast _ => hpast)
      (fun _ _ hpast _ => hpast) _ _
  exact .bind Meaning.noting_monotone hrecord fun _ => .pure _

end Recording

/-- The check writes nothing. -/
theorem check_writesOnly (message : String) (o : Object .llm) :
    (check o).Keeps .noting (WritesOnly message) := by
  have hquiet : Meaning.Hushed .noting (WritesOnly message) :=
    ⟨Meaning.noting_monotone, fun r hr past hpast answer => hpast.look (x := ⟨r, answer⟩) hr⟩
  exact hquiet.check o

/-! ### The pass -/

section Pass

variable {settings : Settings} {key : Key} {xs ys : List Exchange} {s₂ : σ}

theorem yields_frame_active {k : Kind} {o : Object k} {r : Except Failure (Option Directive)}
    {work : Object k → Attempt Failure (Option Directive)}
    (hfound : h.answer (.get k key) s = (.ok o, s₁))
    (hactive : Lifecycle.of o k.finalizer = .active)
    (hwork : (work o).outcome.Yields h s₁ r xs s') :
    (frame settings key work).outcome.Yields h s r (⟨.get k key, .ok o⟩ :: xs) s' := by
  have hread := Program.yields_ask h (.get k key) s
  rw [hfound] at hread
  have hfind : (Objects.find? k key).outcome.Yields h s (.ok (some o)) [⟨.get k key, .ok o⟩] s₁ :=
    hread.bind (Program.yields_done _)
  have hadvance : advance o k.finalizer settings.writeAttempts = pure none := by
    unfold advance
    simp only [hactive]
  unfold frame
  refine Attempt.yields_seq (Attempt.yields_mapError hfind _) ?_
  simp only [hadvance]
  exact Attempt.yields_nil_seq (Attempt.yields_mapError (Attempt.yields_pure none) _) hwork

/-- With the right label, the work is the check, and the recording of its outcome. -/
theorem yields_work {outcome : Except Failure String} {r : Except AccessError Unit}
    (hlabel : Labelled o) (hcheck : (check o).outcome.Yields h s outcome xs s₁)
    (hpersist : (persist settings key (next outcome (h.answer .now s₁).1)).outcome.Yields h
      (h.answer .now s₁).2 r ys s₂) :
    (work settings key o).outcome.Yields h s (ended settings r outcome)
      (xs ++ ⟨.now, (h.answer .now s₁).1⟩ :: ys) s₂ := by
  have hnormal : normalizeLabel settings o = pure false := if_pos hlabel
  have hchecked := Attempt.yields_always Failure hcheck
  unfold work
  rw [hnormal]
  refine Attempt.yields_nil_seq (Attempt.yields_mapError (Attempt.yields_pure false) _) ?_
  simp only [Bool.false_eq_true, if_false]
  refine Attempt.yields_seq hchecked ?_
  -- a failure to record is reported only if the check succeeded
  cases outcome with
  | ok message =>
    refine Attempt.yields_ask_seq ?_
    have hrecord := Attempt.yields_mapError hpersist Failure.access
    cases r with
    | error err => exact Attempt.yields_seq_error hrecord
    | ok _ => exact Attempt.yields_seq_nil hrecord (Attempt.yields_pure _)
  | error f =>
    refine Attempt.yields_ask_seq ?_
    have hrecord := Attempt.yields_always Failure hpersist
    exact Attempt.yields_seq_nil hrecord (Attempt.yields_throw _)

theorem yields_reconcile (settings : Settings) (key : Key) {r : Except Failure (Option Directive)}
    (hrun : (run settings key).outcome.Yields h s r xs s') :
    (reconcile .llm settings key).Yields h s (resolve settings.intervals r) xs s' := by
  have hend := hrun.bind (f := fun r => .done (resolve settings.intervals r))
    (Program.yields_done _)
  rwa [List.append_nil] at hend

end Pass

/-- What is to be known of a pass over a language model with an endpoint, which is read as `o` and
checked in the state `s₁`. -/
structure Verdict (h : Handler σ) (settings : Settings) (key : Key) (s s₁ : σ) (o : Object .llm)
    (e : Endpoint) : Prop where
  check : Outcome h s₁ o e ((check o).outcome.run h s₁).1
    (((reconcile .llm settings key).exchanges h s).filter (·.isDealing))
  failed : ∀ f, ((Llm.check o).outcome.run h s₁).1 = .error f →
    ((reconcile .llm settings key).run h s).1 = .error (f.withRequeue settings.intervals.medium)
  /-- After a success, only the recording of it can fail. -/
  succeeded : ∀ message, ((Llm.check o).outcome.run h s₁).1 = .ok message →
    ((reconcile .llm settings key).run h s).1 = .ok (.after settings.intervals.long) ∨
      ∃ err, ((reconcile .llm settings key).run h s).1 = .error (.access err)
  written : ∀ message, ((Llm.check o).outcome.run h s₁).1 = .ok message →
    WritesOnly message ((reconcile .llm settings key).exchanges h s)
  shown : ∀ message, ((Llm.check o).outcome.run h s₁).1 = .ok message →
    ∀ d, ((reconcile .llm settings key).run h s).1 = .ok d →
      ∃ x ∈ (reconcile .llm settings key).exchanges h s, Shown key message x

section Verdict

variable {settings : Settings} {key : Key} {message : String} {xs ys : List Exchange} {s₂ s₃ : σ}
  {outcome : Except Failure String} {r : Except AccessError Unit}

/-- The dealings with vendors are those of the check. -/
theorem dealings_of_pass {now : Instant} {next : Condition → Condition}
    (hrecord : (persist settings key next).outcome.Yields h s₂ r ys s₃) :
    List.filter (·.isDealing) (⟨.get .llm key, .ok o⟩ :: (xs ++ ⟨.now, now⟩ :: ys)) =
      xs.filter (·.isDealing) := by
  have hys := hrecord.of_wp_noting (persist_silent settings key next [] rfl)
  rw [List.append_nil, List.filter_reverse, List.reverse_eq_nil_iff] at hys
  rw [List.filter_cons_of_neg (by simp [Exchange.isDealing]), List.filter_append,
    List.filter_cons_of_neg (by simp [Exchange.isDealing]), hys, List.append_nil]

/-- What is known of the exchanges of a pass if the check succeeds. -/
theorem recorded_of_pass {now : Instant}
    (hcheck : (check o).outcome.Yields h s₁ (.ok message) xs s₂)
    (hrecord : (persist settings key (next (.ok message) now)).outcome.Yields h s' r ys s₃) :
    let all : List Exchange := ⟨.get .llm key, .ok o⟩ :: (xs ++ ⟨.now, now⟩ :: ys)
    WritesOnly message all ∧ (r = .ok () → ∃ x ∈ all, Shown key message x) := by
  intro all
  have hxs := hcheck.of_wp_noting (check_writesOnly message o [] (.nil message))
  have hwp : (persist settings key (next (.ok message) now)).wp .noting (fun r past =>
      WritesOnly message past ∧ (r = .ok () → ∃ x ∈ past, Shown key message x)) [] := by
    unfold persist
    rw [Attempt.wp_bind]
    refine Attempt.wp_mono Meaning.noting_monotone (fun r past hpast => ?_) _
      (wp_record_recording settings.writeAttempts (.nil message))
    cases r with
    | ok o' => exact ⟨hpast.1, fun _ => hpast.2 o' rfl⟩
    | error err => exact ⟨hpast.1, fun hr => by cases hr⟩
  obtain ⟨hys, hshown⟩ := hrecord.of_wp_noting hwp
  rw [List.append_nil] at hxs hys hshown
  -- the check writes nothing, and the recording nothing but the verdict
  have hrest : WritesOnly message (⟨.now, now⟩ :: ys) :=
    hys.of_reverse.look (x := ⟨.now, now⟩) trivial
  have hall : WritesOnly message all :=
    (hxs.of_reverse.append hrest).look (x := ⟨.get .llm key, .ok o⟩) trivial
  refine ⟨hall, fun hr => ?_⟩
  obtain ⟨x, hx, hshown⟩ := hshown hr
  exact ⟨x, by simp [all, List.mem_reverse.1 hx], hshown⟩

end Verdict

/-- The check of a language model with an endpoint succeeds if and only if all requirements are met,
and otherwise it fails as the first one that is not met tells it to.  Let a pass read a language
model that is active, has the right label and has nothing but an endpoint; the store and the vendors
may be anything.

* If a requirement before the answers of the models is not met then no vendor is asked anything.
  Otherwise the vendor is asked for the models in order, each as often as it is listed, up to the
  first one that fails; and nothing else is asked of vendors in the whole pass.
* If the check fails, then the pass fails with the failure, to be tried again after the medium
  interval.
* If it succeeds, every status that is written says so in the `Ready` condition, with the answers of
  the models one below the other as the message.  Only the recording can fail; if it does not then
  the language model has this condition, as it is read last or as it is written. -/
theorem check_tells_first_unmet (h : Handler σ) (settings : Settings) (key : Key) {s s₁ : σ}
    {o : Object .llm} {e : Endpoint} (hfound : h.answer (.get .llm key) s = (.ok o, s₁))
    (hactive : Lifecycle.of o Kind.llm.finalizer = .active) (hlabel : Labelled o)
    (hprovider : o.spec.provider = ⟨some e, none⟩) : Verdict h settings key s s₁ o e := by
  obtain ⟨outcome, xs, s₂, hchecked, houtcome⟩ := yields_checkEndpoint h s₁ o e
  have hcheck : (check o).outcome.Yields h s₁ outcome xs s₂ := by
    unfold check
    rw [hprovider]
    exact hchecked
  -- the recording, whatever comes of it
  have hrecord := Program.yields_self h
    (persist settings key (next outcome (h.answer .now s₂).1)).outcome (h.answer .now s₂).2
  generalize (persist settings key (next outcome (h.answer .now s₂).1)).outcome.run h
    (h.answer .now s₂).2 = recorded at hrecord
  obtain ⟨r, s₃⟩ := recorded
  have hpass := yields_reconcile settings key
    (yields_frame_active hfound hactive (yields_work hlabel hcheck hrecord))
  have hresult : ((reconcile .llm settings key).run h s).1 =
      resolve settings.intervals (ended settings r outcome) := by rw [hpass.run]
  have hchecked : ((check o).outcome.run h s₁).1 = outcome := by rw [hcheck.run]
  have hsuccess : ∀ message, outcome = .ok message →
      WritesOnly message ((reconcile .llm settings key).exchanges h s) ∧
        (r = .ok () → ∃ x ∈ (reconcile .llm settings key).exchanges h s, Shown key message x) := by
    rintro message rfl
    rw [hpass.exchanges]
    exact recorded_of_pass hcheck hrecord
  rw [← hchecked] at hsuccess
  constructor
  · rw [hchecked, hpass.exchanges, dealings_of_pass hrecord]
    exact houtcome
  · intro f hf
    obtain rfl := hchecked.symm.trans hf
    rw [hresult]
    exact f.resolve_withRequeue _ _
  · intro message hmessage
    obtain rfl := hchecked.symm.trans hmessage
    rw [hresult]
    cases r with
    | ok _ => exact .inl rfl
    | error err => exact .inr ⟨err, rfl⟩
  · exact fun message hmessage => (hsuccess message hmessage).1
  · intro message hmessage d hd
    refine (hsuccess message hmessage).2 ?_
    obtain rfl := hchecked.symm.trans hmessage
    rw [hresult] at hd
    cases r with
    | ok _ => rfl
    | error err => cases hd

/-- A language model with three models to try, one of them twice. -/
def triedLlm : Object .llm where
  metadata :=
    { name := some "m"
      ns := some "default"
      finalizers := some [Kind.llm.finalizer]
      labels := some (SortedMap.empty.insert providerLabel ProviderType.thirdParty.name) }
  spec :=
    { type := "openai"
      models := ["a", "a", "b"]
      provider := { endpoint := some { url := "u", authSecret := some { name := "s" } } } }

/-- A world with it and with its key. -/
def triedWorld : World Nat where
  cluster :=
    (Cluster.empty.store ⟨"default", "m"⟩ triedLlm).store (k := .secret) ⟨"default", "s"⟩
      { metadata := {}, spec := { data := some (SortedMap.empty.insert apiKeyEntry [107]) } }
  vendors := 0

/-- Vendors that answer only once. -/
def answeringOnce : Vendors Nat where
  connect _ := .ok ()
  validate _ _ n := (if n = 0 then .ok ⟨"fine", []⟩ else .error .emptyKey, n + 1)
  call _ _ n := (.error .emptyKey, n)

/-- A model is listed twice, and fails the second time. -/
theorem check_tells_first_unmet_twice :
    let e : Endpoint := { url := "u", authSecret := some { name := "s" } }
    let key : Key := ⟨"default", "m"⟩
    (World.handler answeringOnce).answer (.get .llm key) triedWorld = (.ok triedLlm, triedWorld) ∧
      Lifecycle.of triedLlm Kind.llm.finalizer = .active ∧ Labelled triedLlm ∧
      triedLlm.spec.provider = ⟨some e, none⟩ ∧
      Verdict (World.handler answeringOnce) {} key triedWorld triedWorld triedLlm e := by
  intro e key
  have hget : triedWorld.cluster.get .llm key = .ok triedLlm :=
    Cluster.get_of_stored (o := triedLlm) (by decide +kernel)
  have hfound : (World.handler answeringOnce).answer (.get .llm key) triedWorld =
      (.ok triedLlm, triedWorld) := Prod.ext hget rfl
  have hactive : Lifecycle.of triedLlm Kind.llm.finalizer = .active := by decide
  have hlabel : Labelled triedLlm := by unfold Labelled; decide
  exact ⟨hfound, hactive, hlabel, rfl, check_tells_first_unmet _ {} key hfound hactive hlabel rfl⟩

/-- The third model is not tried. -/
example : (made (tried (World.handler answeringOnce) triedLlm ⟨.openAi, "k", "u"⟩ triedWorld)).map
    (·.model) = ["a", "a"] := by decide

end ModelKeeper.Pass.Llm

import ModelKeeper.Proofs.Pass.Gate

/-!
# The calls of a pass over a prompt

A pass over a prompt begins with the reading of the prompt.  It calls a vendor once at most, and
only for a prompt that awaits an answer; when there is an answer, only the recording of it can fail
(`Pass.Prompt.wp_reconcile`).  This is so whatever the requests of the pass lead to.
-/

namespace ModelKeeper

/-- The answer of a vendor to a prompt, if the exchange is one. -/
def Exchange.reply? : Exchange → Option (Except ChatError Reply)
  | ⟨.call _ _, answer⟩ => some answer
  | _ => none

/-- Whether a request sends a prompt to a vendor. -/
def Request.IsCall : Request → Prop
  | .call _ _ => True
  | _ => False

theorem Exchange.reply?_eq_none {e : Exchange} (h : ¬ e.request.IsCall) : e.reply? = none := by
  obtain ⟨r, answer⟩ := e
  cases r with
  | call => exact absurd trivial h
  | _ => rfl

/-- Whether a program that began with this exchange has had these answers of vendors so far. -/
structure Begun (first : Exchange) (replies : List (Except ChatError Reply))
    (past : List Exchange) : Prop where
  first : past.getLast? = some first
  replies : past.filterMap Exchange.reply? = replies

namespace Begun

variable {first : Exchange} {replies : List (Except ChatError Reply)} {past : List Exchange}

theorem start (h : ¬ first.request.IsCall) : Begun first [] [first] := by
  constructor
  · rfl
  · rw [List.filterMap_cons_none (Exchange.reply?_eq_none h), List.filterMap_nil]

theorem getLast?_cons (h : Begun first replies past) (e : Exchange) :
    (e :: past).getLast? = some first := by
  cases past with
  | nil => cases h.first
  | cons e' past => exact h.first

theorem cons {e : Exchange} (h : Begun first replies past) (he : ¬ e.request.IsCall) :
    Begun first replies (e :: past) where
  first := h.getLast?_cons e
  replies := by rw [List.filterMap_cons_none (Exchange.reply?_eq_none he), h.replies]

theorem call (h : Begun first replies past) (c : Connection) (payload : List UInt8)
    (answer : Except ChatError Reply) :
    Begun first (answer :: replies) (⟨.call c payload, answer⟩ :: past) where
  first := h.getLast?_cons _
  replies := congrArg (answer :: ·) h.replies

/-- An amendment calls no vendor. -/
theorem amend (half : Half) (key : Key) (change : Change .prompt) (attempts : Nat) :
    (amend half .prompt key attempts change).Keeps .noting (Begun first replies) := by
  refine amend.keeps Meaning.noting_monotone (fun past h answer => ?_) attempts
  have hread : Begun first replies (⟨.get .prompt key, answer⟩ :: past) := h.cons id
  cases answer with
  | error e => exact hread
  | ok copy =>
    intro now
    have hlooked : Begun first replies (⟨.now, now⟩ :: ⟨.get .prompt key, .ok copy⟩ :: past) :=
      hread.cons id
    split
    · cases half <;> exact fun answer => hlooked.cons id
    · exact hlooked

end Begun

namespace Pass.Prompt

variable {key : Key} {settings : Settings} {first : Exchange} {past : List Exchange}

/-! ### What a pass asks for -/

/-- The answers that the sending of a prompt has had, and its outcome. -/
inductive Sending (r : Except Failure (List UInt8)) : List (Except ChatError Reply) → Prop
  | silent : Sending r []
  | failed (e : ChatError) : Sending r [.error e]
  | answered {reply : Reply} : r = .ok reply.bytes → Sending r [.ok reply]

/-- What is known when a prompt has been sent. -/
abbrev HasSent (first : Exchange) (r : Except Failure (List UInt8)) (past : List Exchange) : Prop :=
  ∃ replies, Begun first replies past ∧ Sending r replies

/-- Before the call nothing is answered. -/
theorem wp_before_call {α : Type} {p : Attempt Failure α}
    {next : α → Attempt Failure (List UInt8)} (hp : p.Keeps .noting (Begun first []))
    (hnext : ∀ a past, Begun first [] past → (next a).wp .noting (HasSent first) past)
    (h : Begun first [] past) : (p >>= next).wp .noting (HasSent first) past := by
  rw [Attempt.wp_bind]
  refine Attempt.wp_mono Meaning.noting_monotone (fun r past h => ?_) p (hp past h)
  cases r with
  | error e => exact ⟨[], h, .silent⟩
  | ok a => exact hnext a past h

theorem wp_sending_call (h : Begun first [] past) (c : Connection) (payload : List UInt8) :
    (observed .call (.of (.ask (.call c payload)))).wp .noting
      (fun r past => HasSent first ((r.map Reply.bytes).mapError Failure.chat) past) past := by
  unfold observed
  simp only [Attempt.wp_of, Program.wp_bind']
  intro _ answer _
  have hcalled := ((h.cons (e := ⟨.count (.llmRequests .call), ()⟩) id).call c payload answer).cons
    (e := ⟨.count (.llmRequestDuration .call), ()⟩) id
  cases answer with
  | ok reply => exact ⟨_, hcalled, .answered rfl⟩
  | error e => exact fun _ => ⟨_, hcalled.cons id, .failed e⟩

theorem wp_send_noting (o : Object .prompt) (h : Begun first [] past) :
    (send o).wp .noting (HasSent first) past := by
  have hask : ∀ r : Request, ¬ r.IsCall → (Program.ask r).Keeps .noting (Begun first []) :=
    fun r hr past h answer => h.cons hr
  unfold send
  cases o.spec.llm.filter (·.name != "") with
  | none => exact ⟨[], h, .silent⟩
  | some reference =>
    refine wp_before_call (.mapError Meaning.noting_monotone (hask (.get .llm _) id) _)
      (fun llm past h => ?_) h
    cases llm.spec.provider.resolve with
    | error e => exact ⟨[], h, .silent⟩
    | ok provider =>
      cases provider with
      | worker _ => exact ⟨[], h, .silent⟩
      | thirdParty endpoint =>
        have hkey : (endpoint.apiKey o.nsOrEmpty).Keeps .noting (Begun first []) := by
          unfold Endpoint.apiKey
          cases endpoint.secretName? with
          | none => exact fun _ h => h
          | some name =>
            refine Program.Keeps.bind Meaning.noting_monotone (hask (.get .secret _) id) ?_
            intro answer
            cases answer <;> exact fun _ h => h
        refine wp_before_call (.mapError Meaning.noting_monotone hkey _) (fun apiKey past h => ?_) h
        -- the vendor is told by the language model alone
        refine wp_before_call (fun _ h => h) (fun vendor past h => ?_) h
        refine wp_before_call (.mapError Meaning.noting_monotone (hask (.connect _) id) _)
          (fun _ past h => ?_) h
        rw [Attempt.wp_bind, Attempt.wp_mapError]
        refine Attempt.wp_mono Meaning.noting_monotone (fun r past h => ?_) _
          (wp_sending_call h _ _)
        cases r with
        | error e => exact h
        | ok reply => exact h

/-- Whether a prompt waits for an answer. -/
structure Awaits (o : Object .prompt) : Prop where
  active : Lifecycle.of o Kind.prompt.finalizer = .active
  unprocessed : o.isProcessed = false

/-- The answers that a pass has had after it has read the prompt, and its result: a call is made
for a prompt that awaits one, and after an answer only the recording can fail. -/
inductive Asks (read : Except AccessError (Object .prompt)) (r : Except Failure Directive) :
    List (Except ChatError Reply) → Prop
  | silent : Asks read r []
  | failed {o : Object .prompt} (e : ChatError) : read = .ok o → Awaits o → Asks read r [.error e]
  | answered {o : Object .prompt} (reply : Reply) : read = .ok o → Awaits o →
    (r = .ok .done ∨ ∃ e, r = .error (.access e)) → Asks read r [.ok reply]

/-- The first exchange of a pass is the reading of the prompt. -/
abbrev HasAsked (settings : Settings) (key : Key) (read : Except AccessError (Object .prompt))
    (r : Except Failure (Option Directive)) (past : List Exchange) : Prop :=
  ∃ replies, Begun ⟨.get .prompt key, read⟩ replies past ∧
    Asks read (resolve settings.intervals r) replies

theorem wp_work_noting {o : Object .prompt}
    (hactive : Lifecycle.of o Kind.prompt.finalizer = .active)
    (h : Begun ⟨.get .prompt key, .ok o⟩ [] past) :
    (work settings key o).wp .noting (HasAsked settings key (.ok o)) past := by
  unfold work
  rw [Attempt.wp_ite]
  split
  · exact ⟨[], h, .silent⟩
  · next hopen =>
    have hawaits : Awaits o := ⟨hactive, Bool.eq_false_iff.2 hopen⟩
    simp only [Attempt.wp_bind, Attempt.wp_always]
    refine Attempt.wp_mono Meaning.noting_monotone (fun r past hsent => ?_) _ (wp_send_noting o h)
    obtain ⟨replies, hbegun, hsending⟩ := hsent
    have hpersist : ∀ outcome,
        (amend .status .prompt key settings.writeAttempts (record o.metadata.generation outcome)).wp
          .noting (fun _ past => Begun ⟨.get .prompt key, .ok o⟩ replies past) past := fun _ =>
      Begun.amend _ _ _ _ past hbegun
    -- the answer is lost exactly if it cannot be recorded
    cases r with
    | ok bytes =>
      simp only [persist, access, Attempt.unlessFailed_ok, Attempt.wp_bind, Attempt.wp_mapError]
      refine Attempt.wp_mono Meaning.noting_monotone (fun r past hpast => ?_) _ (hpersist _)
      have hasks : ∀ r, (r = .ok .done ∨ ∃ e, r = .error (.access e)) →
          Asks (.ok o) r replies := fun r hr => by
        cases hsending with
        | silent => exact .silent
        | failed e => exact .failed e rfl hawaits
        | answered => exact .answered _ rfl hawaits hr
      cases r with
      | ok _ => exact ⟨replies, hpast, hasks _ (.inl rfl)⟩
      | error e => exact ⟨replies, hpast, hasks _ (.inr ⟨e, rfl⟩)⟩
    | error e =>
      simp only [persist, Attempt.unlessFailed_ok, Attempt.wp_outcome, Attempt.wp_bind,
        Attempt.wp_always]
      refine Attempt.wp_mono Meaning.noting_monotone (fun r past hpast => ?_) _ (hpersist _)
      have hasks : ∀ r, Asks (.ok o) r replies := fun r => by
        cases hsending with
        | silent => exact .silent
        | failed e => exact .failed e rfl hawaits
        | answered hok => cases hok
      cases r <;> exact ⟨replies, hpast, hasks _⟩

/-- A pass begins with the reading of the prompt, and calls a vendor at most once. -/
theorem wp_reconcile (settings : Settings) (key : Key) :
    (reconcile .prompt settings key).wp .noting
      (fun r past => ∃ read replies, Begun ⟨.get .prompt key, read⟩ replies past ∧
        Asks read r replies) [] := by
  unfold reconcile Pass.run run frame access
  simp only [Program.wp_bind', Attempt.wp_outcome, Attempt.wp_bind, Attempt.wp_mapError,
    Objects.find?, Attempt.wp_of, Program.ask, Program.wp_step, Program.wp_done]
  intro read
  have hread : Begun ⟨.get .prompt key, read⟩ [] [⟨.get .prompt key, read⟩] := .start id
  cases read with
  | error e => cases e <;> exact ⟨_, [], hread, .silent⟩
  | ok o =>
    simp only [Program.wp_pure, Attempt.mapError_ok, Attempt.unlessFailed_ok, Attempt.wp_bind,
      Attempt.wp_mapError, advance]
    have hamend : ∀ change : Change .prompt,
        (amend .body .prompt ⟨o.nsOrEmpty, o.nameOrEmpty⟩ settings.writeAttempts change).wp .noting
          (fun _ past => Begun ⟨.get .prompt key, .ok o⟩ [] past) [⟨.get .prompt key, .ok o⟩] :=
      fun _ => Begun.amend _ _ _ _ _ hread
    -- finalizers are seen to without a call, so only an active prompt is sent
    rcases Lifecycle.of_cases o Kind.prompt.finalizer with
      ⟨h, -⟩ | ⟨h, -⟩ | ⟨h, -⟩ | ⟨h, -⟩ <;> simp only [h]
    · rw [Attempt.wp_bind]
      refine Attempt.wp_mono Meaning.noting_monotone (fun r past hpast => ?_)
        (addFinalizer ..) (hamend _)
      cases r <;> exact ⟨_, [], hpast, .silent⟩
    · exact Attempt.wp_mono Meaning.noting_monotone (fun r past hpast => ⟨_, hpast⟩)
        (work settings key o) (wp_work_noting h hread)
    · rw [Attempt.wp_bind]
      unfold removeFinalizer
      rw [Attempt.wp_of, Program.wp_bind']
      refine Attempt.wp_mono Meaning.noting_monotone (fun r past hpast => ?_) _ (hamend _)
      cases r with
      | ok a => exact ⟨_, [], hpast, .silent⟩
      | error e => cases e <;> exact ⟨_, [], hpast, .silent⟩
    · exact ⟨_, [], hread, .silent⟩

end Pass.Prompt

end ModelKeeper

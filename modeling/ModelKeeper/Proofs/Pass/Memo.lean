import ModelKeeper.Pass.Entry
import ModelKeeper.Proofs.Pass.Memo.Known
import ModelKeeper.Proofs.Pass.Settling.Prompt
import ModelKeeper.Proofs.Text.Base64

/-!
# What a prompt remembers answers it

A prompt that is done keeps the answer of a vendor in its status, with the generation that was
answered.  Passes over the prompt run one after the other (`Pass.rounds`), and at any point of them
users may change, delete and make the prompt again.  The status is written to whatever is stored
then, and yet the answer is always one to this very prompt at this very generation
(`Pass.Prompt.done_answers`): the finalizer keeps the prompt there while a pass is waiting for an
answer.

The rules below say which requests a pass makes, and that it keeps to the terms of
`Pass.Prompt.terms` in doing so.
-/

namespace ModelKeeper

/-- Passes over an object, one after the other. -/
def Pass.rounds (w : Worked) (key : Key) : List Settings → Program Unit
  | [] => pure ()
  | settings :: rest => do
    let _ ← reconcile w settings key
    rounds w key rest

namespace Pass.Prompt

variable {σ : Type} {v : Vendors σ} {key : Key} {past : List (Moment (World σ))}

/-! ### Requests -/

section

variable {r : Request} {post : r.Answer → List (Moment (World σ)) → Prop}

/-- A quiet request.  If the prompt is read then it is at home. -/
theorem amid_quiet (hr : r.IsQuiet)
    (h : ∀ m : Moment (World σ), ∀ answer, m.toExchange = ⟨r, answer⟩ → m.request.IsQuiet →
      (∀ copy : Object .prompt, m.toExchange = ⟨.get .prompt key, .ok copy⟩ → copy.IsAt key) →
      post answer (m :: past)) :
    Meaning.amid (World.handler v) (terms key) r post past := by
  intro w hw
  refine ⟨.quiet hr, h ((World.handler v).moment r w) _ rfl hr fun copy hget => ?_⟩
  obtain ⟨o, ho, rfl⟩ := Cluster.stored_of_get (Amendment.get_of_moment hget)
  exact (hw.1.placed .prompt key o ho).settled

theorem wp_quiet (hr : r.IsQuiet)
    (h : ∀ m : Moment (World σ), ∀ answer, m.toExchange = ⟨r, answer⟩ → m.request.IsQuiet →
      post answer (m :: past)) :
    (Program.ask r).wp (.amid (World.handler v) (terms key)) post past :=
  amid_quiet hr fun m answer hm hquiet _ => h m answer hm hquiet

end

/-! ### Amending -/

section

variable {half : Half} {change : Change .prompt} {kept : List (Moment (World σ)) → Prop}

/-- Whether an amendment may go on with `kept`: quiet requests leave it as it is, and so does the
write of what was read, which the passes may make. -/
structure Allows (key : Key) (half : Half) (change : Change .prompt)
    (kept : List (Moment (World σ)) → Prop) : Prop where
  quiet : ∀ m past, m.request.IsQuiet → kept past → kept (m :: past)
  write : ∀ (m : Moment (World σ)) past copy now answer, Read key copy past →
    (change now copy).2 = true → m.Writes (change now copy).1 answer half → kept past →
    Owed key (m :: past) ∧ kept (m :: past)

theorem Allows.wp_attempt (h : Allows key half change kept)
    {onConflict : AccessError → Program (Except AccessError (Object .prompt))}
    (hconflict : ∀ e past, kept past →
      (onConflict e).wp (.amid (World.handler v) (terms key)) (fun _ past => kept past) past)
    (hpast : kept past) :
    (amend.attempt half .prompt key change onConflict).wp (.amid (World.handler v) (terms key))
      (fun _ past => kept past) past := by
  rw [amend.wp_attempt]
  refine amid_quiet trivial fun m answer hget hm _ => ?_
  have hgot := h.quiet m past hm hpast
  cases answer with
  | error e => exact hgot
  | ok copy =>
    -- what is written is made from a copy that this pass has read
    have hcopy : Read key copy (m :: past) := ⟨m, List.mem_cons_self .., hget⟩
    rw [Attempt.unlessFailed_ok]
    refine amid_quiet trivial fun m' now _ hm' _ => ?_
    have hlooked := h.quiet m' _ hm' hgot
    cases hchanged : (change now copy).2 with
    | false =>
      rw [if_neg Bool.false_ne_true]
      exact hlooked
    | true =>
      rw [if_pos rfl]
      refine Amendment.wp_write fun m'' _ hwrites _ => ?_
      obtain ⟨howed, hwrote⟩ := h.write m'' _ copy now _ (hcopy.cons m') hchanged hwrites hlooked
      exact ⟨howed, amend.unlessConflict_of hconflict _ hwrote⟩

theorem Allows.wp_go (h : Allows key half change kept) (retries : Nat) (hpast : kept past) :
    (amend.go half .prompt key change retries).wp (.amid (World.handler v) (terms key))
      (fun _ past => kept past) past := by
  induction retries generalizing past with
  | zero => exact h.wp_attempt (fun _ _ h => h) hpast
  | succ retries ih => exact h.wp_attempt (fun _ _ hpast => ih hpast) hpast

theorem Allows.wp_amend (h : Allows key half change kept) (attempts : Nat) (hpast : kept past) :
    (amend half .prompt key attempts change).wp (.amid (World.handler v) (terms key))
      (fun _ past => kept past) past :=
  h.wp_go (attempts - 1) hpast

end

/-- A change of finalizers is nothing that the passes may not do. -/
theorem allows_ofFinalizers {change : Change .prompt} (h : change.OfFinalizers) :
    Allows (σ := σ) key .body change (fun _ => True) where
  quiet _ _ _ _ := trivial
  write m past copy now answer hcopy hchanged hwrites _ := by
    rcases h now copy with hchange | ⟨fs, hchange⟩
    · rw [hchange] at hchanged
      cases hchanged
    · rw [hchange] at hwrites
      exact ⟨.tend fs hcopy hwrites.request_body, trivial⟩

/-! ### The work -/

/-- Whether an outcome may be recorded: a status that tells of it, whatever it was before, tells the
truth. -/
def Recordable (key : Key) (generation : Option Int) (outcome : Except String (List UInt8))
    (past : List (Moment (World σ))) : Prop :=
  ∀ now o, Tells (fun held => Lately key held past ∧ Kind.prompt.finalizer ∈ held.finalizers) past
    (record generation outcome now o).1.status

theorem Lately.quiet {copy : Object .prompt} (h : Lately key copy past) {m : Moment (World σ)}
    (hm : m.request.IsQuiet) : Lately key copy (m :: past) :=
  .more h hm.not_isUpdate

theorem Recordable.cons {generation : Option Int} {outcome : Except String (List UInt8)}
    (h : Recordable key generation outcome past) {m : Moment (World σ)}
    (hm : ¬ m.request.IsUpdate) : Recordable key generation outcome (m :: past) := fun now o =>
  (h now o).imp (fun _ hheld => ⟨.more hheld.1 hm, hheld.2⟩) fun _ _ hanswered => hanswered.cons m

/-- An answer to a prompt that is held may be recorded. -/
theorem recordable_ok {held : Object .prompt} (hlately : Lately key held past)
    (hmem : Kind.prompt.finalizer ∈ held.finalizers) {bytes : List UInt8}
    (hanswered : Answered held bytes past) :
    Recordable key held.metadata.generation (.ok bytes) past := by
  intro now o s g hs _ hg
  rw [record_ok] at hs
  obtain rfl := Option.some.inj hs
  refine ⟨held, bytes, ⟨hlately, hmem⟩, hg, hanswered, ?_⟩
  simp [PromptStatus.dataBytes?, PromptStatus.setData, Base64.decode?_encode]

/-- A failure may be recorded, since a status that tells of one does not claim to be done. -/
theorem recordable_error (generation : Option Int) (message : String) :
    Recordable key generation (.error message) past := by
  intro now o s g hs hdone _
  unfold record at hs
  simp only at hs
  split at hs
  · -- the failure was recorded before
    next hfailed =>
    obtain rfl := Option.some.inj hs
    rw [Condition.isTrue, hfailed.1] at hdone
    cases hdone
  · obtain rfl := Option.some.inj hs
    rw [Conditions.get_set] at hdone
    cases hdone

theorem allows_record (generation : Option Int) (outcome : Except String (List UInt8)) :
    Allows (σ := σ) key .status (record generation outcome)
      (Recordable key generation outcome) where
  quiet _ _ hm h := h.cons hm.not_isUpdate
  write m past copy now answer hcopy _ hwrites h := by
    have hr := hwrites.request_status
    obtain ⟨status, hstatus⟩ := record_ofStatus generation outcome now copy
    have htells := h now copy
    rw [hstatus] at hr htells
    refine ⟨.record status hcopy hr htells, h.cons ?_⟩
    rw [hr]
    exact id

theorem wp_persist (settings : Settings) {generation : Option Int}
    {outcome : Except String (List UInt8)} (h : Recordable key generation outcome past) :
    (persist settings key generation outcome).wp (.amid (World.handler v) (terms key))
      (fun _ _ => True) past := by
  unfold persist
  rw [Attempt.wp_bind]
  refine Attempt.wp_mono (Meaning.amid_monotone _ _) (fun r _ _ => ?_) _
    ((allows_record generation outcome).wp_amend settings.writeAttempts h)
  cases r <;> trivial

/-- What is known when a prompt has been sent: nothing was updated meanwhile, and an answer is one
to this prompt. -/
def Sent (key : Key) (o : Object .prompt) (r : Except Failure (List UInt8))
    (past : List (Moment (World σ))) : Prop :=
  Lately key o past ∧ ∀ bytes, r = .ok bytes → Answered o bytes past

theorem Lately.sent_error {o : Object .prompt} (h : Lately key o past) (e : Failure) :
    Sent key o (.error e) past :=
  ⟨h, by simp⟩

/-- On the way to an answer nothing is updated. -/
theorem wp_sending {α : Type} {o : Object .prompt} {p : Attempt Failure α}
    {next : α → Attempt Failure (List UInt8)}
    (hp : p.wp (.amid (World.handler v) (terms key)) (fun _ past => Lately key o past) past)
    (hnext : ∀ a past, Lately key o past →
      (next a).wp (.amid (World.handler v) (terms key)) (Sent key o) past) :
    (p >>= next).wp (.amid (World.handler v) (terms key)) (Sent key o) past := by
  rw [Attempt.wp_bind]
  refine Attempt.wp_mono (Meaning.amid_monotone _ _) (fun r past h => ?_) p hp
  cases r with
  | error e => exact h.sent_error e
  | ok a => exact hnext a past h

theorem wp_apiKey {o : Object .prompt} (hlately : Lately key o past) (endpoint : Endpoint)
    (ns : String) :
    (endpoint.apiKey ns).wp (.amid (World.handler v) (terms key))
      (fun _ past => Lately key o past) past := by
  unfold Endpoint.apiKey
  cases endpoint.secretName? with
  | none => exact hlately
  | some name =>
    rw [Attempt.wp_of, Program.wp_bind']
    refine wp_quiet trivial fun m answer _ hm => ?_
    cases answer <;> exact hlately.quiet hm

/-- The request for an answer. -/
theorem wp_call {o : Object .prompt} (hlately : Lately key o past) (connection : Connection) :
    (observed .call (.of (.ask (.call connection (payload o))))).wp
      (.amid (World.handler v) (terms key))
      (fun r past => Sent key o ((r.map Reply.bytes).mapError Failure.chat) past) past := by
  unfold observed
  simp only [Attempt.wp_of, Program.wp_bind']
  refine wp_quiet trivial fun m _ _ hm => ?_
  refine wp_quiet trivial fun m' answer hcall hm' => ?_
  refine wp_quiet trivial fun m'' _ _ hm'' => ?_
  -- counting and calling write nothing, so the copy is still the last one that was read
  have hlately' := ((hlately.quiet hm).quiet hm').quiet hm''
  cases answer with
  | ok reply =>
    refine ⟨hlately', fun bytes hbytes => ⟨m', by simp, connection, reply, hcall, ?_⟩⟩
    exact Except.ok.inj hbytes
  | error e =>
    simp only [Program.wp_bind']
    exact wp_quiet trivial fun m₃ _ _ hm₃ => (hlately'.quiet hm₃).sent_error (.chat e)

theorem wp_send {o : Object .prompt} (hlately : Lately key o past) :
    (send o).wp (.amid (World.handler v) (terms key)) (Sent key o) past := by
  unfold send
  cases o.spec.llm.filter (·.name != "") with
  | none => exact hlately.sent_error _
  | some reference =>
    refine wp_sending ?_ fun llm past hlately => ?_
    · rw [access, Attempt.wp_mapError]
      exact wp_quiet trivial fun m _ _ hm => hlately.quiet hm
    · cases llm.spec.provider.resolve with
      | error e => exact hlately.sent_error _
      | ok provider =>
        cases provider with
        | worker _ => exact hlately.sent_error _
        | thirdParty endpoint =>
          refine wp_sending ?_ fun apiKey past hlately => ?_
          · rw [Attempt.wp_mapError]
            exact wp_apiKey hlately endpoint _
          -- the vendor is told by the language model alone
          refine wp_sending hlately fun vendor past hlately => ?_
          refine wp_sending ?_ fun _ past hlately => ?_
          · rw [Attempt.wp_mapError]
            exact wp_quiet trivial fun m _ _ hm => hlately.quiet hm
          rw [Attempt.wp_bind, Attempt.wp_mapError]
          refine Attempt.wp_mono (Meaning.amid_monotone _ _) (fun r past h => ?_) _
            (wp_call hlately _)
          cases r with
          | error e => exact h
          | ok reply => exact h

/-- The work for a prompt that was just read with the finalizer. -/
theorem wp_work (settings : Settings) {o : Object .prompt} (hlately : Lately key o past)
    (hmem : Kind.prompt.finalizer ∈ o.finalizers) :
    (work settings key o).wp (.amid (World.handler v) (terms key)) (fun _ _ => True) past := by
  unfold work
  rw [Attempt.wp_ite]
  split
  · trivial
  · simp only [Attempt.wp_bind, Attempt.wp_always, Attempt.wp_outcome]
    refine Attempt.wp_mono (Meaning.amid_monotone _ _) (fun r past hsent => ?_) _ (wp_send hlately)
    -- only an answer is recorded as done, and it is the one just received
    cases r with
    | ok bytes =>
      simp only [access, Attempt.unlessFailed_ok, Attempt.wp_bind, Attempt.wp_mapError]
      have hrecordable := recordable_ok hsent.1 hmem (hsent.2 bytes rfl)
      refine Attempt.wp_mono (Meaning.amid_monotone _ _) (fun r _ _ => ?_) _
        (wp_persist settings hrecordable)
      cases r <;> trivial
    | error e =>
      simp only [Attempt.unlessFailed_ok, Attempt.wp_bind, Attempt.wp_always, Attempt.wp_outcome]
      exact Attempt.wp_mono (Meaning.amid_monotone _ _) (fun _ _ _ => trivial) _
        (wp_persist settings (recordable_error o.metadata.generation e.conditionMessage))

/-! ### The pass -/

/-- A prompt that is to be worked for has the finalizer, and nothing was done to it so far. -/
theorem wp_advance {o : Object .prompt} (hplace : o.IsAt key) (attempts : Nat) :
    (advance o Kind.prompt.finalizer attempts).wp (.amid (World.handler v) (terms key))
      (fun r past' => r = .ok none → past' = past ∧ Kind.prompt.finalizer ∈ o.finalizers) past := by
  unfold advance
  simp only [hplace.own]
  -- where the finalizer is put on or taken off, the pass ends with a directive
  rcases Lifecycle.of_cases o Kind.prompt.finalizer with
    ⟨h, -⟩ | ⟨h, hmem, -⟩ | ⟨h, -⟩ | ⟨h, -⟩ <;> simp only [h]
  · rw [Attempt.wp_bind]
    have hallows : Allows (σ := σ) key .body
        (fun _ => Object.addFinalizer Kind.prompt.finalizer) (fun _ => True) :=
      allows_ofFinalizers (Object.addFinalizer_ofFinalizers _ _)
    refine Attempt.wp_mono (Meaning.amid_monotone _ _) (fun r _ _ => ?_)
      (addFinalizer .prompt key Kind.prompt.finalizer attempts) (hallows.wp_amend attempts trivial)
    cases r <;> exact fun h => by cases h
  · exact fun _ => ⟨rfl, hmem⟩
  · rw [Attempt.wp_bind]
    unfold removeFinalizer
    rw [Attempt.wp_of, Program.wp_bind']
    have hallows : Allows (σ := σ) key .body
        (fun _ => Object.removeFinalizer Kind.prompt.finalizer) (fun _ => True) :=
      allows_ofFinalizers (Object.removeFinalizer_ofFinalizers _ _)
    refine Attempt.wp_mono (Meaning.amid_monotone _ _) (fun r _ _ => ?_)
      (amend .body .prompt key attempts fun _ => Object.removeFinalizer Kind.prompt.finalizer)
      (hallows.wp_amend attempts trivial)
    cases r with
    | ok o => exact fun h => by cases h
    | error e => cases e <;> exact fun h => by cases h
  · exact fun h => by cases h

theorem wp_run (settings : Settings) :
    (run settings key).wp (.amid (World.handler v) (terms key)) (fun _ _ => True) past := by
  unfold run frame access
  simp only [Attempt.wp_bind, Attempt.wp_mapError, Objects.find?, Attempt.wp_of, Program.wp_bind',
    Program.ask, Program.wp_step, Program.wp_done]
  refine amid_quiet trivial fun m answer hget _ hhome => ?_
  cases answer with
  | error e => cases e <;> trivial
  | ok o =>
    simp only [Program.wp_pure, Attempt.mapError_ok, Attempt.unlessFailed_ok, Attempt.wp_bind,
      Attempt.wp_mapError]
    refine Attempt.wp_mono (Meaning.amid_monotone _ _) (fun r past hadvanced => ?_) _
      (wp_advance (hhome o hget) settings.writeAttempts)
    cases r with
    | error e => trivial
    | ok d =>
      cases d with
      | some d => trivial
      | none =>
        -- an active prompt is worked on as it was read, with no exchange in between
        obtain ⟨rfl, hmem⟩ := hadvanced rfl
        exact wp_work settings (.read hget) hmem

theorem wp_rounds (passes : List Settings) :
    (rounds .prompt key passes).wp (.amid (World.handler v) (terms key)) (fun _ _ => True)
      past := by
  induction passes generalizing past with
  | nil => trivial
  | cons settings rest ih =>
    unfold rounds reconcile
    simp only [Program.wp_bind']
    exact Program.wp_mono (Meaning.amid_monotone _ _) (fun _ _ _ => ih) _ (wp_run settings)

/-! ### What a prompt remembers -/

/-- Whether what a status of a prompt keeps is the answer that a vendor gave, in the course of these
moments, to what was wanted of the prompt when it was read as `copy`. -/
structure Keeps (key : Key) (past : List (Moment (World σ))) (o : Object .prompt) (s : PromptStatus)
    (copy : Object .prompt) : Prop where
  read : Read key copy past
  uid : ∃ uid, o.metadata.uid = some uid ∧ copy.metadata.uid = some uid
  answered : ∃ bytes, Answered copy bytes past ∧ s.dataBytes? = some bytes

theorem Known.keeps {w : World σ} (h : Known key past w) {o : Object .prompt}
    (ho : w.cluster.stored? .prompt key = some o) {s : PromptStatus} (hs : o.status = some s)
    (hdone : (s.conditions.get .done).isTrue = true) {g : Int}
    (hg : s.observedGeneration = some g) :
    ∃ copy, Keeps key past o s copy ∧ copy.metadata.generation = some g ∧ o.Follows copy := by
  obtain ⟨copy, bytes, ⟨hread, huid⟩, hgeneration, hanswered, hdata⟩ :=
    h.tells o ho s g hs hdone hg
  obtain ⟨n, -, hn⟩ := (h.registered o ho).uid
  exact ⟨copy, ⟨hread, ⟨_, hn, huid.trans hn⟩, bytes, hanswered, hdata⟩, hgeneration,
    h.follows copy hread o ho huid.symm⟩

/-- What a prompt remembers is the answer to it.  Passes run over a prompt one after the other, and
others make it, change it, delete it and make it again at any point of them, beginning with no
prompt there.  Then at any time:

* if the status of the stored prompt claims that it is done with a generation, then it keeps the
  answer to this prompt as it was read at that generation;
* if the prompt counts as processed, then what was answered is what is still wanted. -/
theorem done_answers (v : Vendors σ) (key : Key) (passes : List Settings) {w₀ w : World σ}
    (hplaced : w₀.cluster.Placed) (hversioned : w₀.cluster.Versioned)
    (habsent : w₀.cluster.stored? .prompt key = none) {past : List (Unit × Moment (World σ))}
    {programs : Unit → Program Unit}
    (run : Turns (World.handler v) (Others key) (fun _ => rounds .prompt key passes) w₀ past w
      programs)
    {o : Object .prompt} (ho : w.cluster.stored? .prompt key = some o) {s : PromptStatus}
    (hs : o.status = some s) :
    (∀ g, (s.conditions.get .done).isTrue = true → s.observedGeneration = some g →
        ∃ copy, Keeps key (Turns.of () past) o s copy ∧ copy.metadata.generation = some g) ∧
      (o.isProcessed = true →
        ∃ copy, Keeps key (Turns.of () past) o s copy ∧
          copy.metadata.generation = o.metadata.generation ∧ o.WantsAlike copy) := by
  have hstart : (terms key).possible [] w₀ := possible_start hplaced hversioned habsent
  -- `Known` holds at every moment of the run, since each pass keeps to its terms
  obtain ⟨⟨hknown, -⟩, -⟩ := run.keeps (terms_stable key v) (fun _ => hstart) (fun _ => .start)
    (fun _ => wp_rounds passes) ()
  refine ⟨fun g hdone hg => ?_, fun hprocessed => ?_⟩
  · obtain ⟨copy, hkeeps, hgeneration, -⟩ := hknown.keeps ho hs hdone hg
    exact ⟨copy, hkeeps, hgeneration⟩
  · unfold Object.isProcessed at hprocessed
    rw [hs] at hprocessed
    simp only [Bool.and_eq_true, decide_eq_true_eq] at hprocessed
    obtain ⟨⟨hdone, hsome⟩, hsame⟩ := hprocessed
    obtain ⟨g, hg⟩ := Option.isSome_iff_exists.1 hsome
    obtain ⟨copy, hkeeps, hgeneration, hfollows⟩ := hknown.keeps ho hs hdone hg
    have hcurrent : o.metadata.generation = copy.metadata.generation := by
      rw [hgeneration, ← hsame, hg]
    exact ⟨copy, hkeeps, hcurrent.symm, hfollows.wantsAlike hcurrent⟩


/-- Vendors that give the same answer to everything. -/
def repeating (reply : Reply) : Vendors Unit where
  connect _ := .ok ()
  validate _ _ s := (.ok reply, s)
  call _ _ s := (.ok reply, s)

/-- A language model whose key is in the secret below. -/
def answeringLlm : Object .llm where
  metadata := { name := some "m", ns := some "default" }
  spec :=
    { type := "openai"
      provider :=
        { endpoint := some { url := "http://localhost", authSecret := some { name := "s" } } } }

/-- A secret with a key. -/
def llmSecret : Object .secret where
  metadata := { name := some "s", ns := some "default" }
  spec := { data := some (SortedMap.empty.insert apiKeyEntry [107]) }

/-- A prompt for the language model. -/
def newPrompt : Object .prompt where
  metadata := { name := some "p", ns := some "default" }
  spec := { llm := some { name := "m" } }

theorem done_answers_new :
    let key : Key := ⟨"default", "p"⟩
    let v := repeating ⟨"hi", [104, 105]⟩
    let w₀ : World Unit := { vendors := () }
    w₀.cluster.Placed ∧ w₀.cluster.Versioned ∧ w₀.cluster.stored? .prompt key = none ∧
      ∃ past w programs o s,
        Turns (World.handler v) (Others key) (fun _ : Unit => rounds .prompt key [{}, {}]) w₀ past w
          programs ∧
        w.cluster.stored? .prompt key = some o ∧ o.status = some s ∧ o.isProcessed = true ∧
        ∃ copy, Keeps key (Turns.of () past) o s copy ∧
          copy.metadata.generation = o.metadata.generation ∧ o.WantsAlike copy := by
  intro key v w₀
  have hplaced : w₀.cluster.Placed := Cluster.placed_empty
  have hversioned : w₀.cluster.Versioned := Cluster.versioned_empty
  have habsent : w₀.cluster.stored? .prompt key = none := rfl
  -- others put everything there, and then two passes run to their ends
  let w₁ : World Unit := { w₀ with cluster := (Cluster.empty.insert answeringLlm).2 }
  let w₂ : World Unit := { w₁ with cluster := (w₁.cluster.insert llmSecret).2 }
  let w₃ : World Unit := { w₂ with cluster := (w₂.cluster.create newPrompt).2 }
  have hllm : Others key w₀ w₁ :=
    @Cluster.Meanwhile.elsewhere key _ (.insert answeringLlm) trivial (by decide +kernel)
  have hsecret : Others key w₁ w₂ :=
    @Cluster.Meanwhile.elsewhere key _ (.insert llmSecret) trivial (by decide +kernel)
  have hprompt : Others key w₂ w₃ := .create ⟨rfl, rfl⟩ (by rintro p ⟨⟩) rfl
  have hstart : Turns (World.handler v) (Others key) (fun _ : Unit => rounds .prompt key [{}, {}])
      w₀ [] w₀ (fun _ => rounds .prompt key [{}, {}]) := .start
  obtain ⟨past, run⟩ := (((hstart.others hllm).others hsecret).others hprompt).finish ()
  let w := ((rounds .prompt key [{}, {}]).run (World.handler v) w₃).2
  obtain ⟨o, ho, hprocessed⟩ : ∃ o, w.cluster.stored? .prompt key = some o ∧ o.isProcessed = true :=
    (Option.any_eq_true _ _).1 (by decide +kernel)
  cases hs : o.status with
  | none => simp [Object.isProcessed, hs] at hprocessed
  | some s =>
    exact ⟨hplaced, hversioned, habsent, past, w, _, o, s, run, ho, hs, hprocessed,
      (done_answers v key [{}, {}] hplaced hversioned habsent run ho hs).2 hprocessed⟩

end Pass.Prompt

end ModelKeeper

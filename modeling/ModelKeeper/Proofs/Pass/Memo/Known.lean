import ModelKeeper.Pass.Prompt
import ModelKeeper.Proofs.Operator.Amend
import ModelKeeper.Proofs.Pass.Memo.Lineage
import ModelKeeper.Proofs.World.Elsewhere

/-!
# What passes over a prompt know amid others

Passes over a prompt run one after the other while others act (`Cluster.Meanwhile`).  What they know
at any time is told by their moments so far:

* `Known`: the prompt under the key follows every copy of it that was read, and if its status claims
  that it is done, then the answer that the status keeps was given to such a copy (`Tells`);
* `Held`: while the operator updates nothing, a prompt that was read with the finalizer stays there.

What they owe in return (`Owed`) is that they write a prompt only as it was read, with other
finalizers or with a status that tells the truth about a prompt that is held.  These are terms to
which others keep too (`terms_stable`).
-/

namespace ModelKeeper

/-- Whether a request is to replace everything but the status of an object. -/
def Request.IsUpdate : Request → Prop
  | .update _ _ => True
  | _ => False

theorem Request.IsQuiet.not_isUpdate {r : Request} (h : r.IsQuiet) : ¬ r.IsUpdate := by
  cases r <;> simp_all [IsQuiet, IsUpdate]

namespace Pass.Prompt

variable {σ τ : Type} {key : Key}

/-! ### What has happened -/

/-- Whether the prompt was read as `copy`. -/
def Read (key : Key) (copy : Object .prompt) (past : List (Moment τ)) : Prop :=
  ∃ m ∈ past, m.toExchange = ⟨.get .prompt key, .ok copy⟩

/-- Whether the prompt was read as `copy`, and no object has been updated since. -/
inductive Lately (key : Key) (copy : Object .prompt) : List (Moment τ) → Prop
  | read {m : Moment τ} {past : List (Moment τ)} :
    m.toExchange = ⟨.get .prompt key, .ok copy⟩ → Lately key copy (m :: past)
  | more {m : Moment τ} {past : List (Moment τ)} :
    Lately key copy past → ¬ m.request.IsUpdate → Lately key copy (m :: past)

/-- What a prompt sends to a vendor: its parameters, or those of a prompt that has none. -/
def payload (o : Object .prompt) : List UInt8 := (o.spec.params.getD Params.default).marshal

/-- Whether a vendor was sent what a prompt sends, and gave these bytes as the answer. -/
def Answered (o : Object .prompt) (bytes : List UInt8) (past : List (Moment τ)) : Prop :=
  ∃ m ∈ past, ∃ connection reply,
    m.toExchange = ⟨.call connection (payload o), .ok reply⟩ ∧ reply.bytes = bytes

/-- Whether a status tells the truth about a prompt of this sort: if it is done with a generation,
then it keeps the answer to such a prompt at that generation. -/
def Tells (sort : Object .prompt → Prop) (past : List (Moment τ)) (status : Option PromptStatus) :
    Prop :=
  ∀ s g, status = some s → (s.conditions.get .done).isTrue = true → s.observedGeneration = some g →
    ∃ copy bytes, sort copy ∧ copy.metadata.generation = some g ∧ Answered copy bytes past ∧
      s.dataBytes? = some bytes

section

variable {past : List (Moment τ)} {m : Moment τ} {copy : Object .prompt} {bytes : List UInt8}

theorem Read.cons (h : Read key copy past) (m : Moment τ) : Read key copy (m :: past) := by
  obtain ⟨m', hm', hget⟩ := h
  exact ⟨m', List.mem_cons_of_mem _ hm', hget⟩

theorem Lately.toRead (h : Lately key copy past) : Read key copy past := by
  induction h with
  | read hget => exact ⟨_, List.mem_cons_self .., hget⟩
  | more _ _ ih => exact ih.cons _

theorem Answered.cons (h : Answered copy bytes past) (m : Moment τ) :
    Answered copy bytes (m :: past) := by
  obtain ⟨m', hm', hcall⟩ := h
  exact ⟨m', List.mem_cons_of_mem _ hm', hcall⟩

theorem Tells.imp {sort sort' : Object .prompt → Prop} {past' : List (Moment τ)}
    {status : Option PromptStatus} (h : Tells sort past status)
    (hsort : ∀ copy, sort copy → sort' copy)
    (hpast : ∀ copy bytes, Answered copy bytes past → Answered copy bytes past') :
    Tells sort' past' status := by
  intro s g hs hdone hg
  obtain ⟨copy, bytes, hcopy, hgeneration, hanswered, hdata⟩ := h s g hs hdone hg
  exact ⟨copy, bytes, hsort copy hcopy, hgeneration, hpast copy bytes hanswered, hdata⟩

theorem tells_none (sort : Object .prompt → Prop) (past : List (Moment τ)) :
    Tells sort past none := by
  rintro s g ⟨⟩

end

/-! ### What is known -/

/-- What is known of the world. -/
structure Known (key : Key) (past : List (Moment (World σ))) (w : World σ) : Prop where
  placed : w.cluster.Placed
  versioned : w.cluster.Versioned
  registered : ∀ o, w.cluster.stored? .prompt key = some o → o.Registered w.cluster
  tells : ∀ o, w.cluster.stored? .prompt key = some o →
    Tells (fun copy => Read key copy past ∧ copy.metadata.uid = o.metadata.uid) past o.status
  copies : ∀ copy, Read key copy past → copy.Registered w.cluster ∧ w.cluster.Fresh key copy
  follows : ∀ copy, Read key copy past → ∀ o, w.cluster.stored? .prompt key = some o →
    o.metadata.uid = copy.metadata.uid → o.Follows copy

/-- Whether every prompt that was read with the finalizer is there, unless something was updated
since. -/
def Held (key : Key) (past : List (Moment (World σ))) (w : World σ) : Prop :=
  ∀ copy, Lately key copy past → Kind.prompt.finalizer ∈ copy.finalizers →
    ∃ o, w.cluster.stored? .prompt key = some o ∧ o.metadata.uid = copy.metadata.uid ∧
      Kind.prompt.finalizer ∈ o.finalizers

/-- What the passes owe, of the last of their moments. -/
inductive Owed (key : Key) : List (Moment τ) → Prop
  | start : Owed key []
  | quiet {m : Moment τ} {past : List (Moment τ)} : m.request.IsQuiet → Owed key (m :: past)
  | tend {m : Moment τ} {past : List (Moment τ)} {copy : Object .prompt} (fs : List String) :
    Read key copy past → m.request = .update .prompt (copy.withFinalizers fs) → Owed key (m :: past)
  | record {m : Moment τ} {past : List (Moment τ)} {copy : Object .prompt}
      (status : Option PromptStatus) :
    Read key copy past → m.request = .updateStatus .prompt { copy with status } →
    Tells (fun held => Lately key held past ∧ Kind.prompt.finalizer ∈ held.finalizers) past status →
    Owed key (m :: past)

/-- What passes over a prompt know and owe. -/
def terms (key : Key) : Terms (World σ) where
  possible past w := Known key past w ∧ Held key past w
  promise := Owed key

/-! ### What is known stays known -/

variable {past : List (Moment (World σ))} {w w' : World σ} {own : Cluster.OwnWrite}

theorem Known.goes (h : Known key past w) (hgrows : w.cluster.Grows w'.cluster)
    (hgoes : w.cluster.Goes key own w'.cluster)
    (htells : ∀ s, own = .status s → ∀ o, w.cluster.stored? .prompt key = some o →
      Tells (fun copy => Read key copy past ∧ copy.metadata.uid = o.metadata.uid) past s) :
    Known key past w' where
  placed := hgrows.placed h.placed
  versioned := hgrows.versioned h.versioned
  registered _ ho' := hgoes.registered hgrows.version h.registered ho'
  tells o' ho' := by
    -- there is no status, or the one from before, or the one that this pass has written
    rcases hgoes.status ho' with hnone | ⟨o, ho, huid, hsame | hown⟩
    · rw [hnone]
      exact tells_none _ _
    · rw [hsame, huid]
      exact h.tells o ho
    · rw [huid]
      exact htells _ hown o ho
  copies copy hcopy := by
    obtain ⟨hregistered, hfresh⟩ := h.copies copy hcopy
    exact ⟨hregistered.mono hgrows.version, hfresh.grows hgrows⟩
  follows copy hcopy _ ho' huid :=
    hgoes.follows (h.copies copy hcopy).1 (h.follows copy hcopy) ho' huid

theorem Held.goes (h : Held key past w) (hgoes : w.cluster.Goes key own w'.cluster)
    (hown : own ≠ .body) : Held key past w' := by
  intro copy hlately hmem
  obtain ⟨o, ho, huid, hmem'⟩ := h copy hlately hmem
  obtain ⟨o', ho', huid', hmem''⟩ := hgoes.held hown ho hmem'
  exact ⟨o', ho', huid'.trans huid, hmem''⟩

/-- A moment at which the prompt was read, if at all, as it still stands. -/
theorem Known.cons (h : Known key past w) (m : Moment (World σ))
    (hm : ∀ copy, m.toExchange = ⟨.get .prompt key, .ok copy⟩ →
      w.cluster.get .prompt key = .ok copy) : Known key (m :: past) w where
  placed := h.placed
  versioned := h.versioned
  registered := h.registered
  tells o ho := (h.tells o ho).imp (fun _ hcopy => ⟨hcopy.1.cons m, hcopy.2⟩) fun _ _ h => h.cons m
  copies copy hcopy := by
    obtain ⟨m', hm', hget⟩ := hcopy
    rcases List.mem_cons.1 hm' with rfl | hm'
    · -- the newest exchange is a read, and it shows the object that is stored
      have hanswer := hm copy hget
      obtain ⟨o, ho, rfl⟩ := Cluster.stored_of_get hanswer
      have hregistered := h.registered o ho
      rw [Object.settled_of_isFinite hregistered.finite] at hanswer ⊢
      exact ⟨hregistered, .of_get h.placed h.versioned hanswer⟩
    · exact h.copies copy ⟨m', hm', hget⟩
  follows copy hcopy o ho huid := by
    obtain ⟨m', hm', hget⟩ := hcopy
    rcases List.mem_cons.1 hm' with rfl | hm'
    · obtain ⟨o', ho', rfl⟩ := Cluster.stored_of_get (hm copy hget)
      obtain rfl := Option.some.inj (ho.symm.trans ho')
      have hregistered := h.registered o ho
      rw [Object.settled_of_isFinite hregistered.finite]
      exact hregistered.followed rfl rfl rfl
    · exact h.follows copy ⟨m', hm', hget⟩ o ho huid

theorem Held.cons (h : Held key past w) (m : Moment (World σ))
    (hm : ∀ copy, m.toExchange = ⟨.get .prompt key, .ok copy⟩ →
      w.cluster.get .prompt key = .ok copy) : Held key (m :: past) w := by
  intro copy hlately hmem
  cases hlately with
  | read hget =>
    obtain ⟨o, ho, rfl⟩ := Cluster.stored_of_get (hm copy hget)
    exact ⟨o, ho, rfl, hmem⟩
  | more hlately => exact h copy hlately hmem

/-! ### Steps -/

variable {v : Vendors σ}

/-- What others may do to a world meanwhile. -/
def Others (key : Key) (w w' : World σ) : Prop := w.cluster.Meanwhile key w'.cluster

/-- A prompt is written as it was read, so the same is wanted of it. -/
theorem Known.goes_update (h : Known key past w) {copy : Object .prompt}
    (hcopy : Read key copy past) (fs : List String) :
    w.cluster.Goes key .body (w.cluster.update (copy.withFinalizers fs)).2 := by
  obtain ⟨hregistered, hfresh⟩ := h.copies copy hcopy
  have hplace : (copy.withFinalizers fs).IsAt key := ⟨hfresh.isAt.ns, hfresh.isAt.name⟩
  refine Cluster.goes_update hplace hregistered.finite h.registered
    (fun stored hs hversion => .inl ?_) (.inl rfl)
  -- the update goes through only if what is stored is what was read
  have hsame : stored.metadata.version = copy.metadata.version := by
    obtain ⟨n, -, hn⟩ := hfresh.version
    rcases hversion with hnone | hversion
    · rw [show copy.metadata.version = none from hnone] at hn
      cases hn
    · exact hversion.symm
  have heq : stored = copy := by
    rw [← hfresh.same stored hs hsame, Object.settled_of_isFinite (h.registered stored hs).finite]
  subst heq
  exact Object.sameSpec_prompt_self hregistered.finite

/-- A status that tells the truth about a prompt that is held tells it about the stored one. -/
theorem Held.tells (h : Held key past w) {status : Option PromptStatus}
    (hstatus : Tells (fun held => Lately key held past ∧ Kind.prompt.finalizer ∈ held.finalizers)
      past status) {o : Object .prompt} (ho : w.cluster.stored? .prompt key = some o) :
    Tells (fun copy => Read key copy past ∧ copy.metadata.uid = o.metadata.uid) past status := by
  refine hstatus.imp (fun held hheld => ⟨hheld.1.toRead, ?_⟩) fun _ _ h => h
  obtain ⟨o', ho', huid, -⟩ := h held hheld.1 hheld.2
  obtain rfl := Option.some.inj (ho.symm.trans ho')
  exact huid.symm

/-- At first there is no prompt, and nothing was read. -/
theorem possible_start (hplaced : w.cluster.Placed) (hversioned : w.cluster.Versioned)
    (habsent : w.cluster.stored? .prompt key = none) : (terms key).possible [] w := by
  refine ⟨⟨hplaced, hversioned, ?_, ?_, ?_, ?_⟩, ?_⟩
  · simp [habsent]
  · simp [habsent]
  · rintro copy ⟨m, hm, -⟩
    cases hm
  · rintro copy ⟨m, hm, -⟩
    cases hm
  · rintro copy ⟨⟩

/-- A quiet request leaves everything as it is, and if the prompt is read then as it stands. -/
theorem possible_quiet {r : Request} (hquiet : r.IsQuiet) (hknown : Known key past w)
    (hheld : Held key past w) :
    (terms key).possible ((World.handler v).moment r w :: past)
      ((World.handler v).answer r w).2 := by
  have hsame : ((World.handler v).answer r w).2.cluster = w.cluster :=
    World.cluster_answer_of_isQuiet v hquiet w
  have hgoes : w.cluster.Goes key .none ((World.handler v).answer r w).2.cluster :=
    .same (by rw [hsame])
  -- a quiet request leaves what it has read as it is
  have hread : ∀ copy : Object .prompt,
      ((World.handler v).moment r w).toExchange = ⟨.get .prompt key, .ok copy⟩ →
      ((World.handler v).answer r w).2.cluster.get .prompt key = .ok copy := by
    intro copy hget
    rw [hsame]
    exact Amendment.get_of_moment hget
  have hgrows := World.grows_answer v r hknown.placed
  exact ⟨(hknown.goes hgrows hgoes (by simp)).cons _ hread,
    (hheld.goes hgoes (by simp)).cons _ hread⟩

/-- A write of the body leaves what is known, but nothing is held any more. -/
theorem possible_tend {r : Request} {copy : Object .prompt} {fs : List String}
    (hr : r = .update .prompt (copy.withFinalizers fs)) (hcopy : Read key copy past)
    (hknown : Known key past w) :
    (terms key).possible ((World.handler v).moment r w :: past)
      ((World.handler v).answer r w).2 := by
  subst hr
  have hgrows := World.grows_answer v (.update .prompt (copy.withFinalizers fs)) hknown.placed
  have hgoes := hknown.goes_update hcopy fs
  refine ⟨(hknown.goes hgrows hgoes (by simp)).cons _ fun _ hget => ?_, fun _ hlately _ => ?_⟩
  · cases hget
  · cases hlately with
    | read hget => cases hget
    | more _ hnot => exact absurd trivial hnot

/-- A write of a status that tells the truth about what is held. -/
theorem possible_record {r : Request} {copy : Object .prompt} {status : Option PromptStatus}
    (hr : r = .updateStatus .prompt { copy with status }) (hcopy : Read key copy past)
    (hstatus : Tells (fun held => Lately key held past ∧ Kind.prompt.finalizer ∈ held.finalizers)
      past status) (hknown : Known key past w) (hheld : Held key past w) :
    (terms key).possible ((World.handler v).moment r w :: past)
      ((World.handler v).answer r w).2 := by
  subst hr
  have hplace : ({ copy with status } : Object .prompt).IsAt key :=
    let hplace := (hknown.copies copy hcopy).2.isAt
    ⟨hplace.ns, hplace.name⟩
  have hgrows := World.grows_answer v (.updateStatus .prompt { copy with status }) hknown.placed
  have hgoes := Cluster.goes_updateStatus hplace hknown.registered
  refine ⟨(hknown.goes hgrows hgoes fun s hs o ho => ?_).cons _ fun _ hget => ?_,
    (hheld.goes hgoes (by simp)).cons _ fun _ hget => ?_⟩
  · cases hs
    exact hheld.tells hstatus ho
  · cases hget
  · cases hget

theorem terms_stable (key : Key) (v : Vendors σ) :
    Terms.Stable (fun _ : Unit => terms key) (World.handler v) (Others key) where
  others _ past w w' h hothers := by
    obtain ⟨hknown, hheld⟩ := h
    have hgoes := Cluster.Meanwhile.goes hothers hknown.registered
    exact ⟨hknown.goes (hothers.grows hknown.placed) hgoes (by simp),
      hheld.goes hgoes (by simp)⟩
  own _ past r w h hpromise := by
    obtain ⟨hknown, hheld⟩ := h
    cases hpromise with
    | quiet hquiet => exact possible_quiet hquiet hknown hheld
    | tend fs hcopy hr => exact possible_tend hr hcopy hknown
    | record status hcopy hr hstatus => exact possible_record hr hcopy hstatus hknown hheld
  beside i j hne := absurd rfl hne

end Pass.Prompt

end ModelKeeper

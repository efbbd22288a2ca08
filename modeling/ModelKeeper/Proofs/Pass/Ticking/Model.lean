import ModelKeeper.Proofs.ImageStore.Races
import ModelKeeper.Proofs.Pass.Failures
import ModelKeeper.Proofs.Pass.Ticking

/-!
# What a pass over a model comes to

In a world that nobody else acts on, all that a pass over an active model does is determined by the
world before it, but for the times in what it records.  `Pass.Model.ChainEffect` lists the ways in
which the chain can end, each with the status that the model has then and with the events;
`Pass.Model.Effect` does so for the whole pass.

The chain furnishes the namespace with the parts that it lacks (`Pass.Model.wp_chain_ofWorld`), and
a part that was just made is not ready.  So what there is to wait for is known from the parts that
were there before.
-/

namespace ModelKeeper

variable {σ : Type} {v : Vendors σ}

/-! ### Parts of the image store -/

namespace ImageStore

open Cluster (stored?)

/-- The parts that a namespace does not have, in the order in which they are made. -/
def lacking (c : Cluster) (ns : String) : List Part :=
  [.claim, .statefulSet, .service].filter fun p => (c.stored? p.kind (p.key ns)).isNone

/-- Whether the set of a namespace is there, and its pod is ready. -/
def hasReadySet (c : Cluster) (ns : String) : Bool :=
  (c.stored? .statefulSet (statefulSetKey ns)).any isStatefulSetReady

/-- Whether the service of a namespace is there, and has an address. -/
def hasReadyService (c : Cluster) (ns : String) : Bool :=
  (c.stored? .service (serviceKey ns)).any isServiceReady

end ImageStore

/-- The world when there has to be an object under a key: the one that was there, or a new one that
its maker reports. -/
structure World.Gained {k : Kind} (key : Key) (part : Object k) (e : Event) (w w' : World σ)
    (o : Object k) : Prop where
  stored : w'.cluster.stored? k key = some o
  sameBut : w.cluster.SameBut k key w'.cluster
  conflicts : w'.cluster.injectedConflicts = w.cluster.injectedConflicts
  events : w'.events = (if (w.cluster.stored? k key).isNone then [e] else []) ++ w.events
  was : o = (w.cluster.stored? k key).getD (w.cluster.created part)

theorem ImageStore.wp_ensure_ofWorld {k : Kind} {key : Key} {part : Object k} {w : World σ}
    {post : Except AccessError (Object k) → World σ → Prop} (hpart : part.IsAt key)
    (subject : Subject) (reason message : String)
    (hpost : ∀ a w' o, w.Gained key part ⟨subject, .normal, reason, message⟩ w' o →
      post (.ok a) w') :
    (ensure key part subject reason message).wp (.ofWorld v) post w := by
  unfold ensure
  simp only [Attempt.wp_bind, Objects.wp_find?_ofWorld]
  cases hs : w.cluster.stored? k key with
  | some o =>
    exact hpost o.settled w o
      { stored := hs
        sameBut := .refl k key w.cluster
        conflicts := rfl
        events := by simp [hs]
        was := by simp [hs] }
  | none =>
    unfold createOrGet report
    simp only [Option.map_none, Attempt.unlessFailed_ok, Attempt.wp_bind, Attempt.wp_of,
      Program.wp_bind', Program.ask, Program.wp_step, Program.wp_done, Program.wp_pure,
      Meaning.ofWorld_create, Cluster.create_absent hpart hs, if_true, Attempt.wp_always,
      Meaning.ofWorld_count, Meaning.ofWorld_emit, Attempt.wp_pure]
    exact hpost _ _ (w.cluster.created part)
      { stored := Cluster.stored?_store_self ..
        sameBut := fun _ _ hne => Cluster.stored?_store_of_ne hne _ _
        conflicts := rfl
        events := by simp [hs]
        was := by simp [hs] }

/-! ### The chain -/

namespace Pass.Model

open ImageStore

variable {settings : Settings} {key : Key} {w : World σ}

/-- Whether the namespace is furnished in `w'`, with this set and this service, by somebody who
found the world `w` and made what it lacked. -/
structure Furnishes (ns : String) (subject : Subject) (w w' : World σ) (set : Object .statefulSet)
    (service : Object .service) : Prop where
  furnished : Furnished ns set service w'.cluster
  models : ∀ home, w'.cluster.stored? .model home = w.cluster.stored? .model home
  conflicts : w'.cluster.injectedConflicts = w.cluster.injectedConflicts
  events : w'.events = ((lacking w.cluster ns).map (·.event subject)).reverse ++ w.events
  kept : ∀ o, w.cluster.stored? .statefulSet (statefulSetKey ns) = some o → o = set
  setReady : isStatefulSetReady set = hasReadySet w.cluster ns
  serviceReady : isServiceReady service = hasReadyService w.cluster ns

theorem wp_requireStatefulSet_ofWorld {ns : String} {set : Object .statefulSet}
    {post : Except Failure (Object .statefulSet) → World σ → Prop}
    (hs : w.cluster.stored? .statefulSet (statefulSetKey ns) = some set)
    (hpost : post (.ok set) w) :
    (requireStatefulSet ns).wp (.ofWorld v) post w := by
  unfold requireStatefulSet access
  simp only [Attempt.wp_bind, Attempt.wp_mapError, Objects.wp_find?_ofWorld, hs]
  exact hpost

/-- The parts are made one after another, and what was just made is not ready. -/
theorem furnishes {i : Input} {w₁ w₂ w₃ : World σ} {storage : Object .claim}
    {set : Object .statefulSet} {front : Object .service}
    (h₁ : w.Gained (claimKey i.key.ns) (claim i.key.ns i.plan) (Part.claim.event i.model.subject)
      w₁ storage)
    (h₂ : w₁.Gained (statefulSetKey i.key.ns) (statefulSet i.key.ns i.plan)
      (Part.statefulSet.event i.model.subject) w₂ set)
    (h₃ : w₂.Gained (serviceKey i.key.ns) (service i.key.ns set)
      (Part.service.event i.model.subject) w₃ front) :
    Furnishes i.key.ns i.model.subject w w₃ set front := by
  -- each part is made without touching the other kinds
  have hset := h₁.sameBut.other (show Kind.statefulSet ≠ .claim by decide) (statefulSetKey i.key.ns)
  have hfront := (h₂.sameBut.other (show Kind.service ≠ .statefulSet by decide)
    (serviceKey i.key.ns)).trans (h₁.sameBut.other (by decide) _)
  have hsetWas := h₂.was
  have hfrontWas := h₃.was
  rw [hset] at hsetWas
  rw [hfront] at hfrontWas
  exact
    { furnished :=
        { claim := by
            rw [h₃.sameBut.other (by decide), h₂.sameBut.other (by decide), h₁.stored]
            rfl
          set := (h₃.sameBut.other (by decide) _).trans h₂.stored
          service := h₃.stored }
      models := fun home => by
        rw [h₃.sameBut.other (by decide), h₂.sameBut.other (by decide),
          h₁.sameBut.other (by decide)]
      conflicts := h₃.conflicts.trans (h₂.conflicts.trans h₁.conflicts)
      events := by
        rw [h₃.events, h₂.events, h₁.events, hset, hfront]
        unfold lacking
        simp only [List.filter, Part.key]
        cases w.cluster.stored? .claim (claimKey i.key.ns) <;>
          cases w.cluster.stored? .statefulSet (statefulSetKey i.key.ns) <;>
          cases w.cluster.stored? .service (serviceKey i.key.ns) <;> rfl
      kept := fun o ho => by rw [hsetWas, ho, Option.getD_some]
      setReady := by
        unfold hasReadySet
        rw [hsetWas]
        cases w.cluster.stored? .statefulSet (statefulSetKey i.key.ns) <;> rfl
      serviceReady := by
        unfold hasReadyService
        rw [hfrontWas]
        cases w.cluster.stored? .service (serviceKey i.key.ns) <;> rfl }

/-- The chain furnishes the namespace, and then looks whether it is ready. -/
theorem wp_chain_ofWorld (i : Input) {post : Except Failure Unit → World σ → Prop}
    (hpost : ∀ w' set service, Furnishes i.key.ns i.model.subject w w' set service →
      (readinessStep i).wp (.ofWorld v) post w') :
    Attempt.wp (.ofWorld v) post (Chain.run i chain) w := by
  unfold chain
  simp only [Chain.run, Step.claim, Step.statefulSet, Step.service, Step.named, claimStep,
    statefulSetStep, serviceStep, access, Attempt.wp_bind, Attempt.wp_mapError]
  refine wp_ensure_ofWorld ⟨rfl, rfl⟩ _ _ _ fun _ w₁ storage h₁ => ?_
  refine wp_ensure_ofWorld ⟨rfl, rfl⟩ _ _ _ fun _ w₂ set h₂ => ?_
  refine wp_requireStatefulSet_ofWorld h₂.stored ?_
  refine wp_ensure_ofWorld ⟨rfl, rfl⟩ _ _ _ fun _ w₃ front h₃ => ?_
  simp only [Attempt.mapError_ok, Attempt.unlessFailed_ok, Attempt.wp_pure,
    Attempt.unlessFailed_nothing]
  exact hpost w₃ set front (furnishes h₁ h₂ h₃)

/-! ### What is said of a model -/

/-- The events with which a pass says of a model that it is in progress, what it waits for, and that
it is available. -/
def progressing (subject : Subject) : Event :=
  ⟨subject, .normal, EventReason.modelProgressing, "Provisioning image store"⟩

def waitingForSet (subject : Subject) : Event :=
  ⟨subject, .normal, EventReason.waitingForStatefulSet,
    "Waiting for image store stateful set to be ready"⟩

def waitingForService (subject : Subject) : Event :=
  ⟨subject, .normal, EventReason.waitingForService,
    "Waiting for image store service to become ready"⟩

def available (subject : Subject) : Event :=
  ⟨subject, .normal, EventReason.modelAvailable, "Image store is ready"⟩

/-- The events with which a pass says of the parts that were lacking that they were made. -/
def provisioned (c : Cluster) (ns : String) (subject : Subject) : List Event :=
  (lacking c ns).map (·.event subject)

/-! ### How the chain ends -/

/-- How the chain for the model `o` under a key ends in the world `w`: the result, the status of the
model after it, and the events in order. -/
inductive ChainEffect (settings : Settings) (key : Key) (w : World σ) (o : Object .model) :
    Except Failure Unit → Option ModelStatus → List Event → Prop
  | waitsForSet : hasReadySet w.cluster key.ns = false →
    ChainEffect settings key w o (.error (.requeueAfter settings.intervals.short)) o.status
      (provisioned w.cluster key.ns o.subject ++ [waitingForSet o.subject])
  | waitsForService : hasReadySet w.cluster key.ns = true →
    hasReadyService w.cluster key.ns = false →
    ChainEffect settings key w o (.error (.requeueAfter settings.intervals.short)) o.status
      (provisioned w.cluster key.ns o.subject ++ [waitingForService o.subject])
  /-- There is nothing new to record. -/
  | shown {set : Object .statefulSet} : hasReadySet w.cluster key.ns = true →
    hasReadyService w.cluster key.ns = true →
    w.cluster.stored? .statefulSet (statefulSetKey key.ns) = some set →
    Shown (Counts.of set) (o.status.getD {}) →
    ChainEffect settings key w o (.ok ()) o.status (provisioned w.cluster key.ns o.subject)
  | published {set : Object .statefulSet} (now : Instant) :
    hasReadySet w.cluster key.ns = true → hasReadyService w.cluster key.ns = true →
    w.cluster.stored? .statefulSet (statefulSetKey key.ns) = some set →
    ¬ Shown (Counts.of set) (o.status.getD {}) →
    w.cluster.injectedConflicts < max settings.writeAttempts 1 →
    ChainEffect settings key w o (.ok ()) (markAvailable (Counts.of set) now o).1.status
      (provisioned w.cluster key.ns o.subject ++
        if o.hasCondition .available then [] else [available o.subject])
  /-- All attempts to record it were lost to conflicts. -/
  | refused {set : Object .statefulSet} : hasReadySet w.cluster key.ns = true →
    hasReadyService w.cluster key.ns = true →
    w.cluster.stored? .statefulSet (statefulSetKey key.ns) = some set →
    ¬ Shown (Counts.of set) (o.status.getD {}) →
    max settings.writeAttempts 1 ≤ w.cluster.injectedConflicts →
    ChainEffect settings key w o
      (.error (.access (.conflict Kind.model.name key "injected conflict"))) o.status
      (provisioned w.cluster key.ns o.subject)

/-- Whether the world `w'` is what was left of `w` by somebody who gave the model `o` under a key
this status and said this: other models are as they were, and so is the set. -/
structure Leaves (key : Key) (o : Object .model) (w w' : World σ) (status : Option ModelStatus)
    (said : List Event) : Prop where
  stored : ∃ version, w'.cluster.stored? .model key =
    some { o with status, metadata := { o.metadata with version } }
  models : ∀ home, home ≠ key → w'.cluster.stored? .model home = w.cluster.stored? .model home
  set : ∀ set, w.cluster.stored? .statefulSet (statefulSetKey key.ns) = some set →
    w'.cluster.stored? .statefulSet (statefulSetKey key.ns) = some set
  events : w'.events = said.reverse ++ w.events

section

variable {o : Object .model} {status : Option ModelStatus} {said : List Event} {w' : World σ}

namespace Leaves

theorem tell (h : Leaves key o w w' status said) (e : Event) :
    Leaves key o w { w' with events := e :: w'.events } status (said ++ [e]) where
  stored := h.stored
  models := h.models
  set := h.set
  events := by simp [h.events]

/-- Conflicts that were lost to are all the difference. -/
theorem lose (h : Leaves key o w w' status said) (n : Nat) :
    Leaves key o w { w' with cluster := { w'.cluster with injectedConflicts := n } } status
      said where
  stored := h.stored
  models := h.models
  set := h.set
  events := h.events

/-- Another status is recorded. -/
theorem record {o' : Object .model} (h : Leaves key o w w' status said)
    (hs : w'.cluster.stored? .model key = some o') (status' : Option ModelStatus) :
    Leaves key o w { w' with cluster := w'.cluster.withStatus key o' status' } status' said where
  stored := by
    obtain ⟨version, hstored⟩ := h.stored
    obtain rfl := Option.some.inj (hs.symm.trans hstored)
    exact ⟨_, Cluster.stored?_withStatus ..⟩
  models home hne :=
    (Cluster.stored?_store_of_ne (fun hboth => hne hboth.2) _ _).trans (h.models home hne)
  set set hset :=
    (Cluster.stored?_store_of_ne (fun hboth => by cases hboth.1) _ _).trans (h.set set hset)
  events := h.events

end Leaves

variable {set : Object .statefulSet} {service : Object .service}

/-- A ready set was there before. -/
theorem Furnishes.was_stored {subject : Subject} (h : Furnishes key.ns subject w w' set service)
    (hready : isStatefulSetReady set = true) :
    w.cluster.stored? .statefulSet (statefulSetKey key.ns) = some set := by
  rw [h.setReady] at hready
  unfold hasReadySet at hready
  cases hs : w.cluster.stored? .statefulSet (statefulSetKey key.ns) with
  | none => simp [hs] at hready
  | some o => rw [h.kept o hs]

theorem Furnishes.leaves (h : Furnishes key.ns o.subject w w' set service)
    (hs : w.cluster.stored? .model key = some o) :
    Leaves key o w w' o.status (provisioned w.cluster key.ns o.subject) where
  stored := ⟨o.metadata.version, (h.models key).trans hs⟩
  models home _ := h.models home
  set set' hset' := by
    rw [h.furnished.set, h.kept set' hset']
  events := h.events

/-! ### Readiness -/

theorem wp_isReady_ofWorld (i : Input) {post : Except Failure Bool → World σ → Prop}
    (hfurnished : Furnished i.key.ns set service w.cluster)
    (hset : isStatefulSetReady set = false → post (.ok false)
      { w with events := waitingForSet i.model.subject :: w.events })
    (hservice : isStatefulSetReady set = true → isServiceReady service = false → post (.ok false)
      { w with events := waitingForService i.model.subject :: w.events })
    (hready : isStatefulSetReady set = true → isServiceReady service = true → post (.ok true) w) :
    (isReady i).wp (.ofWorld v) post w := by
  have hset' : isStatefulSetReady set.settled = isStatefulSetReady set := rfl
  have hservice' : isServiceReady service.settled = isServiceReady service := rfl
  unfold isReady access statefulSetReady serviceReady report
  simp only [Attempt.wp_bind, Attempt.wp_mapError, Objects.wp_find?_ofWorld, hfurnished.set,
    Option.map_some, Attempt.unlessFailed_ok, hset']
  -- the service is looked at only if the set is ready
  cases hsetReady : isStatefulSetReady set with
  | false => exact hset hsetReady
  | true =>
    simp only [if_true, Attempt.wp_pure, Attempt.mapError_ok, Attempt.unlessFailed_ok,
      Attempt.wp_mapError, Attempt.wp_bind, Objects.wp_find?_ofWorld, hfurnished.service,
      Option.map_some, hservice']
    cases hserviceReady : isServiceReady service with
    | false => exact hservice hsetReady hserviceReady
    | true => exact hready hsetReady hserviceReady

/-- What becomes of the status of a model with a change that is one at any time or at none. -/
theorem wp_persist_ofWorld {change : Change .model} {changed : Bool}
    {post : Except AccessError Unit → World σ → Prop} (hstatus : change.OfStatus)
    (hs : w.cluster.stored? .model key = some o) (hplace : o.IsAt key)
    (hflag : ∀ now, (change now o).2 = changed) (hsame : changed = false → post (.ok ()) w)
    (hput : ∀ now, changed = true → w.cluster.injectedConflicts < max settings.writeAttempts 1 →
      post (.ok ())
        { w with cluster := w.cluster.withStatus key o (change now o).1.status })
    (hrefused : changed = true → max settings.writeAttempts 1 ≤ w.cluster.injectedConflicts →
      post (.error (.conflict Kind.model.name key "injected conflict"))
        { w with
          cluster := { w.cluster with
            injectedConflicts := w.cluster.injectedConflicts - max settings.writeAttempts 1 } }) :
    (persist settings key change).wp (.ofWorld v) post w := by
  unfold persist
  rw [Attempt.wp_bind]
  exact Change.wp_record_ofWorld hstatus hs hplace hflag settings.writeAttempts
    (fun hfalse _ => hsame hfalse) (fun now htrue hlt _ => hput now htrue hlt) hrefused

theorem wp_chain_effect (settings : Settings) (hs : w.cluster.stored? .model key = some o)
    (hplace : o.IsAt key) :
    Attempt.wp (.ofWorld v)
      (fun r w' => ∃ status said, ChainEffect settings key w o r status said ∧
        Leaves key o w w' status said)
      (Chain.run ⟨settings, key, o⟩ chain) w := by
  refine wp_chain_ofWorld _ fun w' set service h => ?_
  have hleaves : Leaves key o w w' _ _ := h.leaves hs
  have hs' : w'.cluster.stored? .model key = some o := (h.models key).trans hs
  unfold readinessStep
  rw [Attempt.wp_bind]
  refine wp_isReady_ofWorld _ h.furnished (fun hset => ?_) (fun hset hservice => ?_)
    fun hset hservice => ?_
  · exact ⟨_, _, .waitsForSet (h.setReady.symm.trans hset), hleaves.tell _⟩
  · exact ⟨_, _, .waitsForService (h.setReady.symm.trans hset) (h.serviceReady.symm.trans hservice),
      hleaves.tell _⟩
  · have hstored := h.was_stored hset
    have hsetBefore := h.setReady.symm.trans hset
    have hserviceBefore := h.serviceReady.symm.trans hservice
    simp only [Attempt.unlessFailed_ok, Bool.not_true, Bool.false_eq_true, if_false,
      Attempt.wp_bind]
    refine wp_requireStatefulSet_ofWorld h.furnished.set ?_
    simp only [Attempt.unlessFailed_ok, access, Attempt.wp_mapError]
    by_cases hshown : Shown (Counts.of set) (o.status.getD {})
    · refine wp_persist_ofWorld (markAvailable_ofStatus _) hs' hplace
        (fun _ => markAvailable_eq_false.2 hshown) (fun _ => ?_) (fun _ htrue => by cases htrue)
        fun htrue => by cases htrue
      -- the model says that it is available, so there is nothing to report
      have havailable : o.hasCondition .available = true :=
        (hasCondition_eq o _).trans (Conditions.has_of_isTrue hshown.isTrue)
      simp only [Attempt.mapError_ok, Attempt.unlessFailed_ok, havailable, Bool.not_true,
        Bool.false_eq_true, if_false]
      exact ⟨_, _, .shown hsetBefore hserviceBefore hstored hshown, hleaves⟩
    · have hflag : ∀ now, (markAvailable (Counts.of set) now o).2 = true := fun now => by
        rw [← Bool.not_eq_false, markAvailable_eq_false]
        exact hshown
      refine wp_persist_ofWorld (markAvailable_ofStatus _) hs' hplace hflag
        (fun hfalse => by cases hfalse) (fun now _ hlt => ?_) fun _ hle => ?_
      · rw [h.conflicts] at hlt
        have heffect : ChainEffect settings key w o _ _ _ :=
          .published now hsetBefore hserviceBefore hstored hshown hlt
        have hrecorded := hleaves.record hs' (markAvailable (Counts.of set) now o).1.status
        simp only [Attempt.mapError_ok, Attempt.unlessFailed_ok]
        cases hcondition : o.hasCondition .available with
        | true =>
          rw [if_pos hcondition, List.append_nil] at heffect
          exact ⟨_, _, heffect, hrecorded⟩
        | false =>
          rw [if_neg (by simp [hcondition])] at heffect
          exact ⟨_, _, heffect, hrecorded.tell _⟩
      · rw [h.conflicts] at hle
        exact ⟨_, _, .refused hsetBefore hserviceBefore hstored hshown hle, hleaves.lose _⟩

end

/-! ### How the pass ends -/

/-- How a pass over the active model `o` under a key ends in the world `w`: the result, the status
of the model after it, and the events in order. -/
inductive Effect (settings : Settings) (key : Key) (w : World σ) (o : Object .model) :
    Except Failure (Option Directive) → Option ModelStatus → List Event → Prop
  | progressing (now : Instant) : ¬ Started o →
    w.cluster.injectedConflicts < max settings.writeAttempts 1 →
    Effect settings key w o (.error (.requeueAfter settings.intervals.short))
      (markProgressing now o).1.status [Model.progressing o.subject]
  /-- All attempts to mark the model were lost to conflicts. -/
  | refused : ¬ Started o → max settings.writeAttempts 1 ≤ w.cluster.injectedConflicts →
    Effect settings key w o
      (.error (.access (.conflict Kind.model.name key "injected conflict"))) o.status []
  | done {status : Option ModelStatus} {said : List Event} : Started o →
    ChainEffect settings key w o (.ok ()) status said →
    Effect settings key w o (.ok none) status said
  | waiting {d : Duration} {status : Option ModelStatus} {said : List Event} : Started o →
    ChainEffect settings key w o (.error (.requeueAfter d)) status said →
    Effect settings key w o (.error (.requeueAfter d)) status said
  /-- The failure was recorded, unless this was lost to conflicts too. -/
  | failed {e : Failure} {status status' : Option ModelStatus} {said : List Event} : Started o →
    ChainEffect settings key w o (.error e) status said →
    (status' = status ∨
      ∃ now, status' = some (failedStatus e.conditionMessage now { o with status })) →
    Effect settings key w o (.error (e.withRequeue settings.intervals.medium)) status' said

section

variable {o : Object .model}

theorem wp_work_effect (hs : w.cluster.stored? .model key = some o) (hplace : o.IsAt key) :
    (work settings key o).wp (.ofWorld v)
      (fun r w' => ∃ status said, Effect settings key w o r status said ∧
        Leaves key o w w' status said) w := by
  unfold work access
  by_cases hstarted : Started o
  · have hcondition := hstarted.not_new
    simp only [hcondition, Bool.false_eq_true, if_false, Attempt.wp_bind, Attempt.wp_always]
    refine Attempt.wp_mono (Meaning.ofWorld_monotone v) ?_ _ (wp_chain_effect settings hs hplace)
    rintro r w' ⟨status, said, heffect, hleaves⟩
    -- a failure is recorded, in the world that the chain has left
    have hfailed : ∀ e, r = .error e →
        (persist settings key (markFailed e.conditionMessage)).wp (.ofWorld v)
          (fun _ w'' => ∃ status said,
            Effect settings key w o (.error (e.withRequeue settings.intervals.medium)) status said ∧
              Leaves key o w w'' status said) w' := by
      rintro e rfl
      obtain ⟨version, hs'⟩ := hleaves.stored
      have hplace' : Object.IsAt { o with status, metadata := { o.metadata with version } } key :=
        ⟨hplace.ns, hplace.name⟩
      have hkept := Effect.failed hstarted heffect (.inl rfl)
      by_cases hshows : Shows e.conditionMessage
          { o with status, metadata := { o.metadata with version } }
      · exact wp_persist_ofWorld (markFailed_ofStatus _) hs' hplace'
          (fun _ => markFailed_eq_false.2 hshows) (fun _ => ⟨_, _, hkept, hleaves⟩)
          (fun _ htrue => by cases htrue) fun htrue => by cases htrue
      · refine wp_persist_ofWorld (markFailed_ofStatus _) hs' hplace'
          (fun _ => by rw [← Bool.not_eq_false, markFailed_eq_false]; exact hshows)
          (fun hfalse => by cases hfalse) (fun now _ _ => ?_)
          fun _ _ => ⟨_, _, hkept, hleaves.lose _⟩
        rw [markFailed_status hshows]
        exact ⟨_, _, .failed hstarted heffect (.inr ⟨now, rfl⟩), hleaves.record hs' _⟩
    match r with
    | .ok () => exact ⟨status, said, .done hstarted heffect, hleaves⟩
    | .error e =>
      cases e with
      | requeueAfter d => exact ⟨status, said, .waiting hstarted heffect, hleaves⟩
      | _ =>
        show Attempt.wp _ _ (Attempt.always _ >>= _) _
        rw [Attempt.wp_bind, Attempt.wp_always]
        exact hfailed _ rfl
  · -- the model is marked as in progress first
    have hnew := hstarted
    unfold Started at hnew
    rw [not_or, Bool.not_eq_true, Bool.not_eq_true] at hnew
    have hleaves : Leaves key o w w o.status [] :=
      ⟨⟨o.metadata.version, hs⟩, fun _ _ => rfl, fun _ h => h, rfl⟩
    simp only [hnew, Bool.not_false, Bool.and_self, if_true, Attempt.wp_bind, Attempt.wp_mapError]
    refine wp_persist_ofWorld markProgressing_ofStatus hs hplace
      (fun _ => markProgressing_flag hnew.2) (fun hfalse => by cases hfalse) (fun now _ hlt => ?_)
      fun _ hle => ?_
    · exact ⟨_, _, .progressing now hstarted hlt, (hleaves.record hs _).tell _⟩
    · exact ⟨_, _, .refused hstarted hle, hleaves.lose _⟩

/-- What a pass over an active model comes to. -/
theorem wp_reconcile_effect (hs : w.cluster.stored? .model key = some o) (hplace : o.IsAt key)
    (hactive : Lifecycle.of o Kind.model.finalizer = .active) :
    (reconcile .model settings key).wp (.ofWorld v)
      (fun result w' => ∃ r status said, Effect settings key w o r status said ∧
        result = resolve settings.intervals r ∧ Leaves key o w w' status said) w := by
  unfold reconcile
  rw [Program.wp_bind']
  refine wp_frame_active_ofWorld hs hactive ?_
  refine Attempt.wp_mono (Meaning.ofWorld_monotone v) ?_ _ (wp_work_effect hs hplace)
  rintro r w' ⟨status, said, heffect, hleaves⟩
  exact ⟨r, status, said, heffect, rfl, hleaves⟩

end

/-! ### A model whose image store is ready -/

/-- Where a model is kept whose image store is ready. -/
def readyKey : Key := ⟨"default", "m"⟩

/-- A set of two pods of which one is ready. -/
def readySet : Object .statefulSet where
  metadata := (statefulSet readyKey.ns (.forModel {} {})).metadata
  spec := some { replicas := some 2 }
  status := some { replicas := 2, readyReplicas := some 1, availableReplicas := some 1 }

/-- A service with an address. -/
def readyService : Object .service where
  metadata := (service readyKey.ns readySet).metadata
  spec := some { clusterIp := some "10.0.0.1" }

/-- A cluster with a model, the set and the service. -/
def readyCluster (o : Object .model) : Cluster :=
  ((Cluster.empty.store readyKey o).store (statefulSetKey readyKey.ns) readySet).store
    (serviceKey readyKey.ns) readyService

theorem placed_readyCluster {o : Object .model} (h : o.IsAt readyKey) : (readyCluster o).Placed :=
  ((Cluster.placed_empty.store readyKey h).store _ ⟨rfl, rfl⟩).store _ ⟨rfl, rfl⟩

end Pass.Model

end ModelKeeper

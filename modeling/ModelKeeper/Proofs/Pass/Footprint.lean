import ModelKeeper.Proofs.Pass.Gate
import ModelKeeper.Proofs.Pass.Writes

/-!
# The footprint of a pass

A pass leaves everything in the store alone but the object that it is over, and the parts of an
image store that a model lacks.  Of the object it touches little (`Pass.Worked.Spares`): a label of
a language model, its own finalizer, and the conditions that the kind owns.

`Pass.Worked.Makes.spares` says so of one write and `Pass.footprint` of a whole pass, however many
conflicts are in the way.  The generation stays too, but an object without any gets one with the
first write of its body (`Pass.label_gives_generation`).
-/

namespace ModelKeeper

/-- Conditions of the types of the list are not looked at. -/
def Conditions.without (types : List ConditionType) (cs : Conditions) : Conditions :=
  cs.filter fun c => !types.contains c.type

theorem Conditions.without_set {types : List ConditionType} {new : Condition}
    (h : new.type ∈ types) (cs : Conditions) : (cs.set new).without types = cs.without types := by
  unfold without
  induction cs with
  | nil => simp [set, h]
  | cons c cs ih =>
    unfold set
    split
    · next hc => simp [h, hc]
    · rw [List.filter_cons, ih, List.filter_cons]

/-- The value of a label. -/
def Object.label? {k : Kind} (o : Object k) (name : String) : Option String :=
  o.metadata.labels.bind (·.get? name)

namespace Pass

/-! ### What is spared of the object -/

namespace Worked

/-- The types of the conditions that passes set. -/
def conditionTypes : Worked → List ConditionType
  | .llm => [.ready]
  | .prompt => [.done]
  | .model => [.progressing, .available, .replicaFailure]

/-- The conditions of an object. -/
def conditions : (w : Worked) → Object w.kind → Conditions
  | .llm, o => (o.status.getD {}).conditions
  | .prompt, o => (o.status.getD {}).conditions
  | .model, o => (o.status.getD {}).conditions

/-- Whether an object is another one after passes over it.  They touch labels, finalizers, the
version and the status; and of these only the label of the provider, the finalizer of the kind and
the conditions of its types.  A generation is given to an object that has none. -/
structure Spares (w : Worked) (o o' : Object w.kind) : Prop where
  spec : o'.spec = o.spec
  metadata : ∃ labels finalizers version generation,
    o'.metadata = { o.metadata with labels, finalizers, version, generation }
  generation : o'.metadata.generation = o.metadata.generation ∨
    o.metadata.generation = none ∧ o'.metadata.generation = some 1
  labels : ∀ name, o'.label? name = o.label? name ∨ w = .llm ∧ name = providerLabel
  finalizers : o'.finalizers.filter (· != w.kind.finalizer) =
    o.finalizers.filter (· != w.kind.finalizer)
  conditions : (w.conditions o').without w.conditionTypes =
    (w.conditions o).without w.conditionTypes

namespace Spares

variable {w : Worked} {o o' o'' : Object w.kind}

theorem refl (w : Worked) (o : Object w.kind) : w.Spares o o where
  spec := rfl
  metadata := ⟨_, _, _, _, rfl⟩
  generation := .inl rfl
  labels _ := .inl rfl
  finalizers := rfl
  conditions := rfl

theorem trans (h : w.Spares o o') (h' : w.Spares o' o'') : w.Spares o o'' where
  spec := h'.spec.trans h.spec
  metadata := by
    obtain ⟨labels, finalizers, version, generation, hmeta⟩ := h.metadata
    obtain ⟨labels', finalizers', version', generation', hmeta'⟩ := h'.metadata
    exact ⟨labels', finalizers', version', generation', by rw [hmeta', hmeta]⟩
  generation := by
    rcases h.generation with hsame | ⟨hnone, hone⟩
    · rw [← hsame]
      exact h'.generation
    · -- what has been given is kept
      rcases h'.generation with hsame' | ⟨hnone', -⟩
      · exact .inr ⟨hnone, hsame'.trans hone⟩
      · rw [hone] at hnone'
        cases hnone'
  labels name := by
    rcases h.labels name with hsame | hllm
    · exact (h'.labels name).imp_left (·.trans hsame)
    · exact .inr hllm
  finalizers := h'.finalizers.trans h.finalizers
  conditions := h'.conditions.trans h.conditions

theorem isAt {key : Key} (h : w.Spares o o') (hplace : o.IsAt key) : o'.IsAt key := by
  obtain ⟨labels, finalizers, version, generation, hmeta⟩ := h.metadata
  constructor
  · rw [hmeta]
    exact hplace.ns
  · rw [hmeta]
    exact hplace.name

theorem isFinite (h : w.Spares o o') (hfinite : o.IsFinite) : o'.IsFinite := by
  cases w with
  | llm => trivial
  | model => trivial
  | prompt =>
    intro p hp
    exact hfinite p (by rw [← h.spec]; exact hp)

end Spares

/-! ### What a write spares -/

variable {w : Worked} {half : Half} {change : Change w.kind}

/-- Whether an object is another one with a change of labels and finalizers. -/
structure Retags (w : Worked) (o o' : Object w.kind) : Prop where
  changed : ∃ labels finalizers, o' = { o with metadata := { o.metadata with labels, finalizers } }
  labels : ∀ name, o'.label? name = o.label? name ∨ w = .llm ∧ name = providerLabel
  finalizers : o'.finalizers.filter (· != w.kind.finalizer) =
    o.finalizers.filter (· != w.kind.finalizer)

theorem Retags.refl (w : Worked) (o : Object w.kind) : w.Retags o o :=
  ⟨⟨o.metadata.labels, o.metadata.finalizers, rfl⟩, fun _ => .inl rfl, rfl⟩

theorem Makes.retags (h : w.Makes .body change) (now : Instant) (o : Object w.kind) :
    w.Retags o (change now o).1 := by
  -- a label and the finalizer are all that a change of the body touches
  cases h with
  | addFinalizer w =>
    by_cases hmem : w.kind.finalizer ∈ o.finalizers
    · simp only [Object.addFinalizer_of_mem hmem]
      exact .refl w o
    · simp only [Object.addFinalizer_of_not_mem hmem]
      exact ⟨⟨o.metadata.labels, _, rfl⟩, fun _ => .inl rfl, by simp⟩
  | removeFinalizer w =>
    by_cases hmem : w.kind.finalizer ∈ o.finalizers
    · simp only [Object.removeFinalizer_of_mem hmem]
      exact ⟨⟨o.metadata.labels, _, rfl⟩, fun _ => .inl rfl, by simp⟩
    · simp only [Object.removeFinalizer_of_not_mem hmem]
      exact .refl w o
  | label type =>
    unfold Llm.label
    simp only
    split
    · exact .refl .llm o
    · refine ⟨⟨_, o.metadata.finalizers, rfl⟩, fun name => ?_, rfl⟩
      by_cases hname : name = providerLabel
      · exact .inr ⟨rfl, hname⟩
      · refine .inl ?_
        simp only [Object.label?, Option.bind_some, SortedMap.get?_insert, if_neg hname]
        cases o.metadata.labels <;> simp

/-- A change of the status sets conditions of the types of the kind. -/
theorem Makes.status (h : w.Makes .status change) (now : Instant) (o : Object w.kind) :
    ∃ status, (change now o).1 = { o with status } ∧
      (w.conditions (change now o).1).without w.conditionTypes =
        (w.conditions o).without w.conditionTypes := by
  -- every change puts conditions of its own kind only
  cases h with
  | recordReady outcome now' =>
    unfold Llm.recordReady
    simp only
    split
    · exact ⟨_, rfl, rfl⟩
    · exact ⟨_, rfl, Conditions.without_set (by simp [Llm.next_type, conditionTypes]) _⟩
  | record generation outcome =>
    unfold Prompt.record
    cases outcome with
    | ok bytes =>
      exact ⟨_, rfl, Conditions.without_set (by simp [Condition.now, conditionTypes]) _⟩
    | error message =>
      simp only
      split
      · exact ⟨_, rfl, rfl⟩
      · exact ⟨_, rfl, Conditions.without_set (by simp [Condition.now, conditionTypes]) _⟩
  | markProgressing =>
    unfold Model.markProgressing
    simp only
    split
    · exact ⟨_, rfl, rfl⟩
    · exact ⟨_, rfl, Conditions.without_set (by simp [Condition.now, conditionTypes]) _⟩
  | markFailed message =>
    unfold Model.markFailed
    simp only
    split
    · exact ⟨_, rfl, rfl⟩
    · exact ⟨_, rfl, Conditions.without_set (by simp [Condition.now, conditionTypes]) _⟩
  | markAvailable n =>
    refine ⟨_, rfl, ?_⟩
    have havailable : ∀ s : ModelStatus, (Model.showAvailable now s).conditions.without
        model.conditionTypes = s.conditions.without model.conditionTypes := by
      intro s
      unfold Model.showAvailable
      simp only
      split
      · rfl
      · exact Conditions.without_set (by simp [Condition.now, conditionTypes]) _
    have hclear : ∀ s : ModelStatus, (Model.clearFailure now s).conditions.without
        model.conditionTypes = s.conditions.without model.conditionTypes := by
      intro s
      unfold Model.clearFailure
      split
      · exact Conditions.without_set (by simp [Condition.now, conditionTypes]) _
      · rfl
    exact (hclear _).trans (havailable _)

/-- What a pass writes spares all that it is to spare: a write of the body leaves what is wanted as
it is, so it leaves the generation too. -/
theorem Makes.spares (h : w.Makes half change) {o : Object w.kind} (hfinite : o.IsFinite)
    (now : Instant) (version : String) :
    w.Spares o (half.replaced o (change now o.settled).1 version) := by
  rw [Object.settled_of_isFinite hfinite]
  cases half with
  | body =>
    have hretags := h.retags now o
    obtain ⟨labels, finalizers, hchanged⟩ := hretags.changed
    -- what is wanted is the same, so the generation stays
    have hself : o.sameSpec o = true := w.sameSpec_self hfinite
    have hsame : (change now o).1.sameSpec o = true := by
      rw [hchanged]
      exact hself
    have hdeletion : (o.metadata.deletion <|> o.metadata.deletion) = o.metadata.deletion := by
      cases o.metadata.deletion <;> rfl
    exact
      { spec := by rw [Half.replaced, hchanged]; rfl
        metadata := ⟨labels, finalizers, some version, some (o.metadata.generation.getD 1), by
          simp only [Half.replaced, Cluster.merged, hsame, if_true]
          simp only [hchanged, hdeletion]⟩
        generation := by
          simp only [Half.replaced, Cluster.merged, hsame, if_true]
          cases o.metadata.generation <;> simp
        labels := hretags.labels
        finalizers := hretags.finalizers
        conditions := by cases w <;> rfl }
  | status =>
    obtain ⟨status, hchanged, hconditions⟩ := h.status now o
    exact
      { spec := rfl
        metadata := ⟨o.metadata.labels, o.metadata.finalizers, some version,
          o.metadata.generation, rfl⟩
        generation := .inl rfl
        labels := fun _ => .inl rfl
        finalizers := rfl
        conditions := by
          rw [← hconditions]
          cases w <;> rfl }

end Worked

/-! ### What is spared of the cluster -/

/-- Whether a cluster is another one after a pass over the object under a key: this object is spared
if it is still there, and the other objects are as they were.  Over a model, parts of the image
store of its namespace may have been made where there were none. -/
structure Worked.Footprint (w : Worked) (key : Key) (c c' : Cluster) : Prop where
  others : ∀ j home, ¬ (j = w.kind ∧ home = key) →
    c'.stored? j home = c.stored? j home ∨
      w = .model ∧ c.stored? j home = none ∧
        ∃ p : ImageStore.Part, j = p.kind ∧ home = p.key key.ns
  object : ∀ o', c'.stored? w.kind key = some o' →
    ∃ o, c.stored? w.kind key = some o ∧ w.Spares o o'

namespace Worked.Footprint

variable {w : Worked} {key : Key} {c c' c'' : Cluster}

theorem refl (w : Worked) (key : Key) (c : Cluster) : w.Footprint key c c where
  others _ _ _ := .inl rfl
  object o ho := ⟨o, ho, .refl w o⟩

theorem write (h : w.Footprint key c c') {half : Half} {change : Change w.kind}
    (hmakes : w.Makes half change) {stored : Object w.kind}
    (hs : c'.stored? w.kind key = some stored)
    (hfinite : ∀ o : Object w.kind, c.stored? w.kind key = some o → o.IsFinite) (now : Instant) :
    w.Footprint key c (c'.nextVersion.putBack half key (change.result half c' stored now)) where
  others j home hne := by
    rw [Cluster.sameBut_putBack c'.nextVersion half key _ j home hne]
    exact h.others j home hne
  object o' ho' := by
    rw [Cluster.stored?_putBack_self, Option.ite_none_left_eq_some] at ho'
    obtain rfl := Option.some.inj ho'.2
    obtain ⟨o, ho, hspares⟩ := h.object stored hs
    exact ⟨o, ho, hspares.trans (hmakes.spares (hspares.isFinite (hfinite o ho)) now _)⟩

theorem make (h : Worked.model.Footprint key c c') (p : ImageStore.Part)
    (hnone : c'.stored? p.kind (p.key key.ns) = none) (o : Object p.kind) :
    Worked.model.Footprint key c (c'.nextVersion.store (p.key key.ns) o) := by
  have hkind : p.kind ≠ .model := by cases p <;> decide
  constructor
  · intro j home hne
    by_cases hpart : j = p.kind ∧ home = p.key key.ns
    · obtain ⟨rfl, rfl⟩ := hpart
      -- what the pass finds missing is missing since the start, or made by it
      rcases h.others _ _ hne with hsame | hmade
      · exact .inr ⟨rfl, hsame.symm.trans hnone, p, rfl, rfl⟩
      · exact .inr hmade
    · rw [Cluster.stored?_store_of_ne hpart]
      exact h.others j home hne
  · have hne : ¬ (Kind.model = p.kind ∧ key = p.key key.ns) := fun hboth => hkind hboth.1.symm
    intro o' ho'
    exact h.object o' ((Cluster.stored?_store_of_ne hne c'.nextVersion o).symm.trans ho')

end Worked.Footprint

variable {σ : Type} {v : Vendors σ} {key : Key}

theorem footprint_onCluster (w : Worked) (settings : Settings) {c : Cluster}
    (hobject : ∀ o : Object w.kind, c.stored? w.kind key = some o → o.IsAt key ∧ o.IsFinite) :
    (reconcile w settings key).wp (.onCluster v) (fun _ c' => w.Footprint key c c') c := by
  have hleaves : w.Leaves key (.onCluster v) (w.Footprint key c) := by
    refine w.leaves_onCluster v key (fun c' hc' o' ho' => ?_) (fun c' hc' _ => ⟨hc'.1, hc'.2⟩)
      (fun half change hmakes c' stored now hc' hs => ?_) fun hmodel p source c' hc' hnone => ?_
    · obtain ⟨o, ho, hspares⟩ := hc'.object o' ho'
      exact hspares.isAt (hobject o ho).1
    · exact hc'.write hmakes hs (fun o ho => (hobject o ho).2) now
    · subst hmodel
      exact hc'.make p hnone _
  exact hleaves.reconcile c (.refl w key c)

/-- What a pass leaves alone.  Let a pass run over the object under a key in a world that nobody
else acts on, with a clock that goes on as it likes.

* All other objects are as they were, except that over a model the parts of the image store of its
  namespace may have been made where there were none.
* If the object is still there then it was there before, and all of it is spared that is not the
  operator's (`Pass.Worked.Spares`). -/
theorem footprint (v : Vendors σ) (w : Worked) (settings : Settings) (key : Key)
    (clock : Nat → Instant) {s : World σ × Nat} (hplaced : s.1.cluster.Placed)
    (hfinite : ∀ o : Object w.kind, s.1.cluster.stored? w.kind key = some o → o.IsFinite) :
    w.Footprint key s.1.cluster
      ((reconcile w settings key).run (World.ticking v clock) s).2.1.cluster :=
  Program.run_of_wp (World.ticking_serves v clock) _
    (footprint_onCluster w settings fun o ho => ⟨hplaced _ _ o ho, hfinite o ho⟩)

/-- A model in progress, with a finalizer and a condition of others. -/
def sharedModel (key : Key) : Object .model where
  metadata :=
    { name := some key.name
      ns := some key.ns
      finalizers := some ["other", Kind.model.finalizer]
      generation := some 3 }
  spec := {}
  status := some { conditions := [{ type := .unknown }, { type := .progressing }] }

/-- The pass makes the parts of the image store, which is not ready yet. -/
theorem footprint_shared :
    let key : Key := ⟨"default", "m"⟩
    let c := Cluster.empty.store key (sharedModel key)
    let s : World Unit × Nat := ({ cluster := c, vendors := () }, 0)
    let h := World.ticking .unreachable fun n => ⟨n, 0⟩
    let c' := ((reconcile .model {} key).run h s).2.1.cluster
    c.Placed ∧ (sharedModel key).IsFinite ∧
      (c'.stored? .statefulSet (ImageStore.statefulSetKey key.ns)).isSome = true ∧
      Worked.model.Footprint key c c' := by
  intro key c s h c'
  have hplaced : c.Placed := Cluster.placed_empty.store key ⟨rfl, rfl⟩
  have hfootprint : Worked.model.Footprint key s.1.cluster c' :=
    footprint .unreachable .model {} key (fun n => ⟨n, 0⟩) hplaced fun _ _ => trivial
  exact ⟨hplaced, trivial, by decide +kernel, hfootprint⟩

/-- An active language model that has neither its label nor a generation. -/
def unlabelledLlm : Object .llm where
  metadata :=
    { name := some "m"
      ns := some "default"
      finalizers := some [Kind.llm.finalizer]
      version := some "2" }
  spec := {}

/-- The generation is not quite left alone: with the label an object gets one, if it has none. -/
theorem label_gives_generation :
    let key : Key := ⟨"default", "m"⟩
    let c : Cluster := { Cluster.empty.store key unlabelledLlm with version := 2 }
    let s : World Unit := { cluster := c, vendors := () }
    let c' := ((reconcile .llm {} key).run (World.handler .unreachable) s).2.cluster
    c.Placed ∧ unlabelledLlm.IsFinite ∧
      (c.stored? .llm key).map (fun o : Object .llm => o.metadata.generation) = some none ∧
      (c'.stored? .llm key).map (fun o : Object .llm => o.metadata.generation) =
        some (some 1) := by
  intro key c s c'
  exact ⟨Cluster.placed_empty.store key ⟨rfl, rfl⟩, trivial, by decide +kernel, by decide +kernel⟩

end Pass

end ModelKeeper

import ModelKeeper.Proofs.Pass.Ticking.Model
import ModelKeeper.Proofs.Pass.Transitions

/-!
# What is published of an image store

When the image store of a model is ready, the status of the model tells so and shows the counts of
the set (`Pass.Model.Publishes`).  `Pass.Model.availability_published` says that this is what a
chain that does not fail comes to, and that nothing else makes a model available or touches its
counts.
-/

namespace ModelKeeper

/-! ### What is recorded -/

/-- How many pods of a set are wanted: one if nothing is said. -/
def Object.wantedReplicas (set : Object .statefulSet) : Int := (set.spec.bind (·.replicas)).getD 1

/-- What a set reports; nothing if it has not reported yet. -/
def Object.reported (set : Object .statefulSet) : StatefulSetStatus := set.status.getD {}

/-- Whether the pods of a set are counted by 32-bit integers that are not negative. -/
structure Object.CountsPods (set : Object .statefulSet) : Prop where
  wanted : 0 ≤ set.wantedReplicas ∧ set.wantedReplicas < 0x80000000
  available : 0 ≤ set.reported.availableReplicas.getD 0 ∧
    set.reported.availableReplicas.getD 0 < 0x80000000

namespace Pass.Model

open ImageStore

/-- Whether the status `s'` publishes a set that is ready, over the status `s`. -/
structure Publishes (set : Object .statefulSet) (s s' : ModelStatus) : Prop where
  available : (s'.conditions.get .available).isTrue = true
  reason : (s'.conditions.get .available).reason = Reason.newReplicaSetAvailable
  failure : (s'.conditions.get .replicaFailure).isTrue = false
  replicas : s'.replicas = set.reported.replicas
  readyReplicas : s'.readyReplicas = set.reported.readyReplicas.getD 0
  availableReplicas : s'.availableReplicas = set.reported.availableReplicas.getD 0
  unavailableReplicas : s'.unavailableReplicas =
    max 0 (set.wantedReplicas - set.reported.availableReplicas.getD 0)
  others : ∀ type, type ≠ .available → type ≠ .replicaFailure →
    s'.conditions.get type = s.conditions.get type

/-- The difference of two counts is no smaller than the least integer, so it does not wrap. -/
theorem unavailable_of_counts {set : Object .statefulSet} (h : set.CountsPods) :
    (Counts.of set).unavailable =
      max 0 (set.wantedReplicas - set.reported.availableReplicas.getD 0) := by
  obtain ⟨⟨hwanted, hwanted'⟩, havailable, havailable'⟩ := h
  have hdifference : Int.bmod
      (set.wantedReplicas - set.reported.availableReplicas.getD 0) 0x100000000 =
      set.wantedReplicas - set.reported.availableReplicas.getD 0 :=
    Int.bmod_eq_of_le (by omega) (by omega)
  rw [← hdifference, Int.max_comm]
  rfl

theorem Shown.publishes {set : Object .statefulSet} {s s' : ModelStatus}
    (h : Shown (Counts.of set) s') (hset : set.CountsPods)
    (hothers : ∀ type, type ≠ .available → type ≠ .replicaFailure →
      s'.conditions.get type = s.conditions.get type) : Publishes set s s' where
  available := h.isTrue
  reason := h.reason
  failure := h.failure
  replicas := (congrArg (·.replicas) h.counts).symm
  readyReplicas := (congrArg (·.readyReplicas) h.counts).symm
  availableReplicas := (congrArg (·.availableReplicas) h.counts).symm
  unavailableReplicas :=
    (congrArg (·.unavailableReplicas) h.counts).symm.trans (unavailable_of_counts hset)
  others := hothers

/-- Conditions of other types are as they were. -/
theorem get_after {type : ConditionType} (havailable : type ≠ .available)
    (hfailure : type ≠ .replicaFailure) (n : Counts) (now : Instant) (s : ModelStatus) :
    (clearFailure now (showAvailable now (showCounts n s))).conditions.get type =
      s.conditions.get type := by
  have hshow : (showAvailable now (showCounts n s)).conditions.get type =
      s.conditions.get type := by
    unfold showAvailable
    simp only
    split
    · rfl
    · simp [Conditions.get_set, Condition.now, havailable.symm, showCounts]
  have hclear : ∀ s : ModelStatus,
      (clearFailure now s).conditions.get type = s.conditions.get type := by
    intro s
    unfold clearFailure
    split
    · simp [Conditions.get_set, Condition.now, hfailure.symm]
    · rfl
  -- the two conditions that are put have other types
  rw [hclear, hshow]

/-! ### What a model reports -/

/-- The counts that a status shows. -/
def shownCounts (s : ModelStatus) : Counts :=
  ⟨s.replicas, s.readyReplicas, s.availableReplicas, s.unavailableReplicas⟩

/-- Whether two statuses report the same of the image store. -/
structure SameReport (s s' : ModelStatus) : Prop where
  available : s'.conditions.get .available = s.conditions.get .available
  counts : shownCounts s' = shownCounts s

theorem SameReport.refl (s : ModelStatus) : SameReport s s := ⟨rfl, rfl⟩

/-- Other conditions are no report. -/
theorem SameReport.set {new : Condition} (h : new.type ≠ .available) (s : ModelStatus) :
    SameReport s { s with conditions := s.conditions.set new } where
  available := by simp [Conditions.get_set, h]
  counts := rfl

/-- Then no model has become available, and no count is another. -/
theorem SameReport.not_new {o o' : Object .model}
    (h : SameReport (o.status.getD {}) (o'.status.getD {})) :
    ¬ (¬ o.IsAvailable ∧ o'.IsAvailable ∨
      shownCounts (o'.status.getD {}) ≠ shownCounts (o.status.getD {})) := by
  rintro (⟨hnot, his⟩ | hne)
  · unfold Object.IsAvailable at his
    rw [h.available] at his
    exact hnot his
  · exact hne h.counts

variable {σ : Type} {v : Vendors σ} {settings : Settings} {key : Key} {w : World σ}
  {o : Object .model}

theorem sameReport_markProgressing (now : Instant) (o : Object .model) :
    SameReport (o.status.getD {}) ((markProgressing now o).1.status.getD {}) := by
  unfold markProgressing
  simp only
  split
  · exact .refl _
  · exact .set (by simp [Condition.now]) _

theorem sameReport_failedStatus (message : String) (now : Instant) (o : Object .model) :
    SameReport (o.status.getD {}) (failedStatus message now o) :=
  .set (by simp [Condition.now]) _

theorem ChainEffect.sameReport {r : Except Failure Unit} {status : Option ModelStatus}
    {said : List Event} (h : ChainEffect settings key w o r status said)
    (hnot : ¬ (hasReadySet w.cluster key.ns = true ∧ hasReadyService w.cluster key.ns = true)) :
    status = o.status := by
  cases h with
  | waitsForSet | waitsForService | shown | refused => rfl
  | published _ hset hservice => exact absurd ⟨hset, hservice⟩ hnot

/-- A chain that does not fail publishes the set. -/
theorem ChainEffect.publishes {status : Option ModelStatus} {said : List Event}
    (h : ChainEffect settings key w o (.ok ()) status said)
    (hcounts : ∀ home set, w.cluster.stored? .statefulSet home = some set → set.CountsPods) :
    ∃ set, w.cluster.stored? .statefulSet (statefulSetKey key.ns) = some set ∧
      Publishes set (o.status.getD {}) (status.getD {}) := by
  cases h with
  | shown _ _ hset hshown =>
    exact ⟨_, hset, hshown.publishes (hcounts _ _ hset) fun _ _ _ => rfl⟩
  | published now _ _ hset =>
    exact ⟨_, hset, (shown_after _ now _).publishes (hcounts _ _ hset)
      fun _ havailable hfailure => get_after havailable hfailure _ now _⟩

/-- A pass reports nothing new unless it finds the image store ready. -/
theorem Effect.sameReport {r : Except Failure (Option Directive)} {status : Option ModelStatus}
    {said : List Event} (h : Effect settings key w o r status said)
    (hnot : ¬ (hasReadySet w.cluster key.ns = true ∧ hasReadyService w.cluster key.ns = true)) :
    SameReport (o.status.getD {}) (status.getD {}) := by
  cases h with
  | progressing now => exact sameReport_markProgressing now o
  | refused => exact .refl _
  | done _ hchain | waiting _ hchain => exact hchain.sameReport hnot ▸ .refl _
  | failed _ hchain hstatus =>
    obtain rfl := hchain.sameReport hnot
    rcases hstatus with rfl | ⟨now, rfl⟩
    · exact .refl _
    · exact sameReport_failedStatus _ now o

/-! ### Publication -/

theorem exists_of_hasReadySet {c : Cluster} {ns : String} (h : hasReadySet c ns = true) :
    ∃ set, c.stored? .statefulSet (statefulSetKey ns) = some set ∧ readyReplicas set = 1 := by
  obtain ⟨set, hs, hready⟩ := (Option.any_eq_true _ _).1 h
  exact ⟨set, hs, of_decide_eq_true hready⟩

theorem exists_of_hasReadyService {c : Cluster} {ns : String} (h : hasReadyService c ns = true) :
    ∃ service ip, c.stored? .service (serviceKey ns) = some service ∧
      service.spec.bind (·.clusterIp) = some ip ∧ ip ≠ "" := by
  obtain ⟨service, hs, hready⟩ := (Option.any_eq_true _ _).1 h
  unfold isServiceReady at hready
  cases hip : service.spec.bind (·.clusterIp) with
  | none => simp [hip] at hready
  | some ip => exact ⟨service, ip, hs, hip, by simpa [hip] using hready⟩

/-- When the chain does not fail, the pass is done with what the chain has left. -/
theorem run_of_chain {τ : Type} {h : Handler τ} {s s' : τ}
    (hget : h.answer (.get .model key) s = (.ok o, s))
    (hactive : Lifecycle.of o Kind.model.finalizer = .active) (hstarted : Started o)
    (hchain : Program.run h (Chain.run ⟨settings, key, o⟩ chain).run s = (.ok (), s')) :
    (reconcile .model settings key).run h s = (.ok (.after settings.intervals.long), s') := by
  have hcondition := hstarted.not_new
  have hfind : ∀ post, (Objects.find? .model key).wp h.meaning post s = post (.ok (some o)) s := by
    intro post
    unfold Objects.find?
    simp only [Attempt.wp_of, Program.wp_bind', Program.ask, Program.wp_step, Program.wp_done,
      Handler.meaning, hget, Program.wp_pure]
  have hrun : (run settings key).wp h.meaning
      (fun r s'' => (resolve settings.intervals r, s'') =
        (.ok (.after settings.intervals.long), s')) s := by
    refine (wp_frame_of_active hfind hactive).mpr ?_
    unfold work
    simp only [hcondition, Bool.false_eq_true, if_false, Attempt.wp_bind, Attempt.wp_always]
    rw [Program.wp_meaning, hchain]
    rfl
  exact reconcile_of_run (w := .model)
    (fun r s'' => (r, s'') = (.ok (.after settings.intervals.long), s')) hrun

/-- A pass over a model reports nothing new of it unless it finds the image store ready. -/
theorem sameReport_reconcile (v : Vendors σ) (clock : Nat → Instant) (settings : Settings)
    (hplaced : w.cluster.Placed) (looks : Nat)
    (hnot : ¬ (hasReadySet w.cluster key.ns = true ∧ hasReadyService w.cluster key.ns = true))
    {o' : Object .model} (hs : w.cluster.stored? .model key = some o)
    (hs' : ((reconcile .model settings key).run (World.ticking v clock)
      (w, looks)).2.1.cluster.stored? .model key = some o') :
    SameReport (o.status.getD {}) (o'.status.getD {}) := by
  -- over an active model the chain has not got as far as publishing
  by_cases hactive : Lifecycle.of o Kind.model.finalizer = .active
  · obtain ⟨r, status, said, heffect, -, hleaves⟩ := Program.ticking_run_of_wp clock looks _
      (wp_reconcile_effect (v := v) hs (hplaced _ _ o hs) hactive)
    obtain ⟨version, hstored⟩ := hleaves.stored
    obtain rfl := Option.some.inj (hs'.symm.trans hstored)
    exact heffect.sameReport hnot
  · have hidle : ∀ p : Object .model, w.cluster.stored? .model key = some p →
        Lifecycle.of p Kind.model.finalizer ≠ .active := fun p hp =>
      Option.some.inj (hs.symm.trans hp) ▸ hactive
    obtain ⟨-, hsame⟩ := Program.ticking_run_of_wp clock looks _
      (wp_reconcile_idle (v := v) .model (hplaced .model key) hidle)
    obtain ⟨p, hp, hstatus⟩ := hsame o' hs'
    obtain rfl := Option.some.inj (hp.symm.trans hs)
    rw [hstatus]
    exact .refl _

/-- A pass over something else reports nothing of a model. -/
theorem sameReport_others (v : Vendors σ) (clock : Nat → Instant) (j : Worked)
    (settings : Settings) (hplaced : w.cluster.Placed) (looks : Nat) {home : Key}
    (hother : ¬ (Worked.model = j ∧ home = key)) {o' : Object .model}
    (hs : w.cluster.stored? .model home = some o)
    (hs' : ((reconcile j settings key).run (World.ticking v clock)
      (w, looks)).2.1.cluster.stored? .model home = some o') :
    SameReport (o.status.getD {}) (o'.status.getD {}) := by
  obtain ⟨-, hothers⟩ := Program.run_of_wp (World.ticking_serves v clock) (reconcile j settings key)
    (s := (w, looks)) (wp_reconcile_others j settings hplaced)
  obtain rfl := Option.some.inj (hs'.symm.trans ((hothers .model home hother).trans hs))
  exact .refl _

/-- The status of an image store is published soundly.  In a world that nobody else acts on,
whatever its clock shows and however many conflicts are in the way:

* if the chain for an active model does not fail, then the status that is stored after the pass
  publishes the set that is stored (`Pass.Model.Publishes`);
* if a pass, over whatever object, makes a model say that it is available, or if it touches the
  counts that a model shows, then it was a pass over this model, one pod of the set of its namespace
  was ready and the service had an address. -/
theorem availability_published (v : Vendors σ) (clock : Nat → Instant) {w : World σ}
    (hplaced : w.cluster.Placed)
    (hcounts : ∀ home set, w.cluster.stored? .statefulSet home = some set → set.CountsPods)
    (looks : Nat) :
    let h := World.ticking v clock
    (∀ settings key (o : Object .model), w.cluster.stored? .model key = some o →
      Lifecycle.of o Kind.model.finalizer = .active → Started o →
      (Program.run h (Chain.run ⟨settings, key, o⟩ chain).run (w, looks)).1 = .ok () →
      let after := ((reconcile .model settings key).run h (w, looks)).2.1
      ∃ set o', after.cluster.stored? .statefulSet (statefulSetKey key.ns) = some set ∧
        after.cluster.stored? .model key = some o' ∧
        Publishes set (o.status.getD {}) (o'.status.getD {})) ∧
    ∀ (j : Worked) settings key home (o o' : Object .model),
      w.cluster.stored? .model home = some o →
      ((reconcile j settings key).run h (w, looks)).2.1.cluster.stored? .model home = some o' →
      ¬ o.IsAvailable ∧ o'.IsAvailable ∨
        shownCounts (o'.status.getD {}) ≠ shownCounts (o.status.getD {}) →
      j = .model ∧ home = key ∧
        (∃ set, w.cluster.stored? .statefulSet (statefulSetKey key.ns) = some set ∧
          readyReplicas set = 1) ∧
        ∃ service ip, w.cluster.stored? .service (serviceKey key.ns) = some service ∧
          service.spec.bind (·.clusterIp) = some ip ∧ ip ≠ "" := by
  intro h
  refine ⟨fun settings key o hs hactive hstarted hok => ?_,
    fun j settings key home o o' hs hs' hnew => ?_⟩
  · -- the pass is done with what the chain has left
    have hget : h.answer (.get .model key) (w, looks) = (.ok o, (w, looks)) :=
      Prod.ext (Cluster.get_of_stored hs) rfl
    obtain ⟨status, said, heffect, hleaves⟩ := Program.ticking_run_of_wp clock looks _
      (wp_chain_effect (v := v) settings hs (hplaced _ _ o hs))
    rw [run_of_chain hget hactive hstarted (Prod.ext hok rfl)]
    obtain ⟨version, hstored⟩ := hleaves.stored
    obtain ⟨set, hset, hpublishes⟩ := (hok ▸ heffect).publishes hcounts
    exact ⟨set, _, hleaves.set set hset, hstored, hpublishes⟩
  · by_cases hown : Worked.model = j ∧ home = key
    · obtain ⟨rfl, rfl⟩ := hown
      refine ⟨rfl, rfl, ?_⟩
      by_contra hunready
      refine (sameReport_reconcile v clock settings hplaced looks (fun hready => ?_) hs
        hs').not_new hnew
      exact hunready ⟨exists_of_hasReadySet hready.1, exists_of_hasReadyService hready.2⟩
    · exact absurd hnew (sameReport_others v clock j settings hplaced looks hown hs hs').not_new

/-- A model that is in progress and shows a failure. -/
def readyModel : Object .model where
  metadata :=
    { name := some readyKey.name
      ns := some readyKey.ns
      finalizers := some [Kind.model.finalizer] }
  spec := {}
  status := some
    { conditions :=
        [{ type := .progressing, status := .isTrue },
          { type := .replicaFailure, status := .isTrue }] }

/-- A world with this model, its set and its service, in which the next write fails. -/
def readyWorld : World Unit where
  cluster := (readyCluster readyModel).injectConflicts 1
  vendors := ()

/-- The set is published, and one pod is not available. -/
theorem availability_published_ready :
    let h := World.ticking .unreachable fun n => ⟨n, 0⟩
    let after := ((reconcile .model {} readyKey).run h (readyWorld, 0)).2.1
    readyWorld.cluster.Placed ∧ readySet.CountsPods ∧
      ∃ set o', after.cluster.stored? .statefulSet (statefulSetKey readyKey.ns) = some set ∧
        after.cluster.stored? .model readyKey = some o' ∧
        Publishes set (readyModel.status.getD {}) (o'.status.getD {}) := by
  intro h after
  have hplaced : readyWorld.cluster.Placed := placed_readyCluster ⟨rfl, rfl⟩
  have hcounts : readySet.CountsPods := ⟨by decide, by decide⟩
  -- there is one set in this world
  have hsets : ∀ home set, readyWorld.cluster.stored? .statefulSet home = some set →
      set.CountsPods := by
    intro home set hs
    have hother := Cluster.stored?_store_of_ne (show ¬ (Kind.statefulSet = .service ∧
      home = serviceKey readyKey.ns) from fun hboth => by cases hboth.1)
      ((Cluster.empty.store readyKey readyModel).store (statefulSetKey readyKey.ns) readySet)
      readyService
    replace hs := hother.symm.trans hs
    by_cases hhome : home = statefulSetKey readyKey.ns
    · subst hhome
      rw [Cluster.stored?_store_self] at hs
      exact Option.some.inj hs ▸ hcounts
    · rw [Cluster.stored?_store_of_ne fun hboth => hhome hboth.2] at hs
      cases hs
  obtain ⟨hpublishes, -⟩ := availability_published .unreachable (fun n => ⟨n, 0⟩) hplaced hsets 0
  exact ⟨hplaced, hcounts, hpublishes {} readyKey readyModel (by decide +kernel) (by decide)
    (.inr (by decide)) (by decide +kernel)⟩

end Pass.Model

end ModelKeeper

import ModelKeeper.Pass.Basic
import ModelKeeper.Proofs.Program.Settling

/-!
# What passes come to rest in

The parts of a pass that all kinds share, in a cluster that nobody else writes: the recording of a
status (`Change.wp_record`), the writing of a body (`Change.wp_replace`), and the frame around the
work.  The frame lets an absent or gone object be (`Pass.rests_frame`), brings the others on their
way (`Pass.wp_frame_new`, `Pass.wp_frame_terminating`) and works for active ones
(`Pass.wp_frame_active`), so a pass settles if it does so over an active object
(`Pass.settles_frame`).
-/

namespace ModelKeeper

variable {σ : Type} {v : Vendors σ} {k : Kind} {key : Key} {c : Cluster}

namespace Attempt

variable {α : Type}

/-- Counting does not get in the way of looking. -/
theorem Looks.observed {p : Attempt ChatError α} (hp : p.Looks v k key c) (operation : Operation) :
    (Pass.observed operation p).Looks v k key c :=
  Program.Looks.bind (Program.looks_count _) fun _ => Program.Looks.bind hp fun r =>
    Program.Looks.bind (Program.looks_count _) fun _ =>
      match r with
      | .ok _ => Program.looks_done _
      | .error _ => Program.Looks.bind (Program.looks_count _) fun _ => Program.looks_done _

/-- So does asking for the key of an endpoint. -/
theorem looks_apiKey (hk : k ≠ .secret) (e : Endpoint) (ns : String) :
    (e.apiKey ns).Looks v k key c := by
  unfold Endpoint.apiKey
  cases e.secretName? with
  | none => exact Program.looks_done _
  | some name =>
    refine Program.Looks.bind (Program.looks_get fun h => hk h.1.symm) fun r => ?_
    cases r with
    | ok secret => exact Program.looks_done _
    | error err => exact Program.looks_done _

end Attempt

/-! ### Writes without conflicts -/

/-- Whether nothing is in the way of writes to the object under a key. -/
structure Cluster.Ready (k : Kind) (key : Key) (c : Cluster) : Prop where
  conflicts : c.injectedConflicts = 0
  isAt : ∀ o : Object k, c.stored? k key = some o → o.IsAt key
  generation : ∀ o : Object k, c.stored? k key = some o → o.metadata.generation.isSome

/-- The cluster after the object `o` under a key has been replaced by `o'`. -/
structure Cluster.Replaced (key : Key) (o : Object k) (c c' : Cluster) (o' : Object k) : Prop where
  sameBut : c.SameBut k key c'
  stored : c'.stored? k key = some o'
  ready : c'.Ready k key
  isDeleted : o'.isDeleted = o.isDeleted

/-- The same if nothing but the status and the version was replaced. -/
structure Cluster.Recorded (key : Key) (o : Object k) (c c' : Cluster) (o' : Object k) : Prop
    extends c.Replaced key o c' o' where
  spec : o'.spec = o.spec
  metadata : ∃ version, o'.metadata = { o.metadata with version }

theorem Cluster.Recorded.lifecycle {o o' : Object k} {c' : Cluster} (h : c.Recorded key o c' o')
    (finalizer : String) : Lifecycle.of o' finalizer = Lifecycle.of o finalizer := by
  refine Lifecycle.of_congr ?_ h.isDeleted
  obtain ⟨version, hmeta⟩ := h.metadata
  unfold Object.finalizers
  rw [hmeta]

namespace Change

variable {change : Change k} {o : Object k} {post : Except AccessError (Object k) → Cluster → Prop}

/-- The status of an object is recorded, if it is another one. -/
theorem wp_record (hstatus : change.OfStatus) (hready : c.Ready k key)
    (hs : c.stored? k key = some o) (attempts : Nat)
    (hsame : ∀ now, (change now o.settled).2 = false → post (.ok (change now o.settled).1) c)
    (hput : ∀ now a c' o', (change now o.settled).2 = true → c.Recorded key o c' o' →
      o'.status = (change now o.settled).1.status → post (.ok a) c') :
    (amend .status k key attempts change).wp (.onCluster v) post c := by
  refine wp_amend hstatus.proper hs (hready.isAt o hs) hready.conflicts attempts hsame
    fun now hflag => ?_
  -- the write of a status cannot free the object
  have hself : (c.nextVersion.putBack .status key (change.result .status c o now)).stored? k key =
      some (change.result .status c o now) := by
    rw [Cluster.stored?_putBack_self]
    exact if_neg (by simp)
  refine hput now _ _ (change.result .status c o now) hflag
    { sameBut := Cluster.sameBut_putBack c.nextVersion .status key _
      stored := hself
      ready := ⟨(Cluster.injectedConflicts_putBack ..).trans hready.conflicts,
        fun o' ho' => ?_, fun o' ho' => ?_⟩
      isDeleted := rfl
      spec := rfl
      metadata := ⟨_, rfl⟩ } rfl
  · obtain rfl := Option.some.inj (hself.symm.trans ho')
    exact ⟨(hready.isAt o hs).ns, (hready.isAt o hs).name⟩
  · obtain rfl := Option.some.inj (hself.symm.trans ho')
    exact hready.generation o hs

/-- The body of an object that is not to go away is replaced. -/
theorem wp_replace (hproper : change.Proper) (hready : c.Ready k key)
    (hs : c.stored? k key = some o) (hdeleted : o.isDeleted = false) (attempts : Nat)
    (hflag : ∀ now, (change now o.settled).2 = true)
    (hput : ∀ now a c' o', c.Replaced key o c' o' →
      o'.metadata.finalizers = (change now o.settled).1.metadata.finalizers →
      o'.metadata.labels = (change now o.settled).1.metadata.labels →
      o'.spec = (change now o.settled).1.spec → post (.ok a) c') :
    (amend .body k key attempts change).wp (.onCluster v) post c := by
  refine wp_amend hproper hs (hready.isAt o hs) hready.conflicts attempts
    (fun now h => by simp [hflag now] at h) fun now _ => ?_
  -- a proper change does not mark the object, so it stays whatever finalizers it has
  have hdeleted' : (change.result .body c o now).isDeleted = false := by
    obtain ⟨labels, annotations, finalizers, hmeta⟩ := hproper now o.settled
    have hnone : o.metadata.deletion = none := by simpa [Object.isDeleted] using hdeleted
    simp [result, Half.replaced, Cluster.merged, Object.isDeleted, hmeta, hnone]
  have hself : (c.nextVersion.putBack .body key (change.result .body c o now)).stored? k key =
      some (change.result .body c o now) := by
    rw [Cluster.stored?_putBack_self, hdeleted']
    exact if_neg fun h => Bool.false_ne_true h.2.1
  refine hput now _ _ (change.result .body c o now)
    { sameBut := Cluster.sameBut_putBack c.nextVersion .body key _
      stored := hself
      ready := ⟨(Cluster.injectedConflicts_putBack ..).trans hready.conflicts,
        fun o' ho' => ?_, fun o' ho' => ?_⟩
      isDeleted := hdeleted'.trans hdeleted.symm } rfl rfl rfl
  · obtain rfl := Option.some.inj (hself.symm.trans ho')
    have hplace := hproper.isAt (hready.isAt o hs).settled now
    exact ⟨hplace.ns, hplace.name⟩
  · obtain rfl := Option.some.inj (hself.symm.trans ho')
    rfl

end Change

/-! ### The frame -/

namespace Pass

variable {settings : Settings} {work : Object k → Attempt Failure (Option Directive)}
  {post : Except Failure (Option Directive) → Cluster → Prop}

theorem wp_frame_absent (hs : c.stored? k key = none) (hpost : post (.ok (some .done)) c) :
    (frame settings key work).outcome.wp (.onCluster v) post c := by
  unfold frame access
  simp only [Attempt.wp_outcome, Attempt.wp_bind, Attempt.wp_mapError, Objects.wp_find?, hs]
  exact hpost

theorem wp_frame_of_stored {o : Object k} (hs : c.stored? k key = some o)
    (hadvance : (advance o.settled k.finalizer settings.writeAttempts).wp (.onCluster v)
      (fun r c' =>
        match r with
        | .error e => post (.error (.access e)) c'
        | .ok (some d) => post (.ok (some d)) c'
        | .ok none => (work o.settled).wp (.onCluster v) post c') c) :
    (frame settings key work).outcome.wp (.onCluster v) post c := by
  unfold frame access
  simp only [Attempt.wp_outcome, Attempt.wp_bind, Attempt.wp_mapError, Objects.wp_find?, hs,
    Option.map_some, Attempt.mapError_ok, Attempt.unlessFailed_ok]
  refine Attempt.wp_mono (Meaning.onCluster_monotone v) ?_ _ hadvance
  intro r c' h
  match r with
  | .error e => exact h
  | .ok none => exact h
  | .ok (some d) => exact h

theorem wp_frame_active {o : Object k} (hs : c.stored? k key = some o)
    (hactive : Lifecycle.of o k.finalizer = .active)
    (hwork : (work o.settled).wp (.onCluster v) post c) :
    (frame settings key work).outcome.wp (.onCluster v) post c := by
  refine wp_frame_of_stored hs ?_
  have hlifecycle : Lifecycle.of o.settled k.finalizer = .active := hactive
  unfold advance
  simp only [hlifecycle]
  exact hwork

/-- An object that is absent or gone is left alone. -/
theorem rests_frame (h : ∀ o, c.stored? k key = some o → Lifecycle.of o k.finalizer = .gone) :
    (frame settings key work).outcome.Rests v c (.ok (some .done)) := by
  cases hs : c.stored? k key with
  | none => exact wp_frame_absent hs ⟨rfl, rfl⟩
  | some o =>
    have hlifecycle : Lifecycle.of o.settled k.finalizer = .gone := h o hs
    refine wp_frame_of_stored hs ?_
    unfold advance
    simp only [hlifecycle]
    exact ⟨rfl, rfl⟩

/-- A new object becomes an active one. -/
theorem wp_frame_new {o : Object k} (hready : c.Ready k key) (hs : c.stored? k key = some o)
    (hmem : k.finalizer ∉ o.finalizers) (hdeleted : o.isDeleted = false)
    (hput : ∀ c' o', c.Replaced key o c' o' → Lifecycle.of o' k.finalizer = .active →
      post (.ok (some .immediate)) c') :
    (frame settings key work).outcome.wp (.onCluster v) post c := by
  have hnew : Lifecycle.of o.settled k.finalizer = .new := by
    simp [Lifecycle.of, hmem, hdeleted]
  have hchange : o.settled.addFinalizer k.finalizer =
      (o.settled.withFinalizers (o.finalizers ++ [k.finalizer]), true) :=
    Object.addFinalizer_of_not_mem hmem
  refine wp_frame_of_stored hs ?_
  unfold advance
  simp only [(hready.isAt o hs).settled.own, hnew, Attempt.wp_bind]
  refine Change.wp_replace (Object.addFinalizer_ofFinalizers k k.finalizer).proper hready hs
    hdeleted settings.writeAttempts (fun now => by rw [hchange])
    fun now a c' o' hreplaced hfinalizers _ _ => ?_
  refine hput c' o' hreplaced (Lifecycle.of_eq_active.2 ⟨?_, hreplaced.isDeleted.trans hdeleted⟩)
  simp only [Object.finalizers, hfinalizers, hchange]
  simp [Object.withFinalizers]

/-- An object that terminates goes away, or is gone as far as the operator is concerned. -/
theorem wp_frame_terminating {o : Object k} (hready : c.Ready k key)
    (hs : c.stored? k key = some o) (hmem : k.finalizer ∈ o.finalizers)
    (hdeleted : o.isDeleted = true)
    (hput : ∀ c', (∀ o', c'.stored? k key = some o' → Lifecycle.of o' k.finalizer = .gone) →
      post (.ok (some .done)) c') :
    (frame settings key work).outcome.wp (.onCluster v) post c := by
  have hterminating : Lifecycle.of o.settled k.finalizer = .terminating := by
    simp [Lifecycle.of, hmem, hdeleted]
  have hchange : o.settled.removeFinalizer k.finalizer =
      (o.settled.withFinalizers (o.finalizers.filter (· != k.finalizer)), true) :=
    Object.removeFinalizer_of_mem hmem
  refine wp_frame_of_stored hs ?_
  unfold advance removeFinalizer
  simp only [(hready.isAt o hs).settled.own, hterminating, Attempt.wp_bind]
  rw [Attempt.wp_of, Program.wp_bind']
  refine Change.wp_amend (Object.removeFinalizer_ofFinalizers k k.finalizer).proper hs
    (hready.isAt o hs) hready.conflicts settings.writeAttempts (fun now h => by simp [hchange] at h)
    fun now _ => hput _ fun o' ho' => ?_
  rw [Cluster.stored?_putBack_self, Option.ite_none_left_eq_some] at ho'
  -- if the object is still there, others have finalizers on it, and ours is gone
  obtain rfl := Option.some.inj ho'.2
  refine Lifecycle.of_eq_gone.2 ⟨?_, ?_⟩
  · simp [Change.result, hchange, Half.replaced, Cluster.merged, Object.finalizers,
      Object.withFinalizers]
  · rw [Object.isDeleted, Option.isSome_iff_exists] at hdeleted
    obtain ⟨time, htime⟩ := hdeleted
    simp [Change.result, Half.replaced, Cluster.merged, Object.isDeleted, htime]

/-- A pass settles if it settles where the object is active. -/
theorem settles_frame (hready : c.Ready k key)
    (hactive : ∀ c' o, c'.Ready k key → c'.stored? k key = some o →
      Lifecycle.of o k.finalizer = .active → (frame settings key work).outcome.Settles v 1 c') :
    (frame settings key work).outcome.Settles v 2 c := by
  cases hs : c.stored? k key with
  | none => exact (rests_frame fun o ho => by simp [hs] at ho).settles.succ.succ
  | some o =>
    rcases Lifecycle.of_cases o k.finalizer with
      ⟨-, hmem, hdeleted⟩ | ⟨h, -⟩ | ⟨-, hmem, hdeleted⟩ | ⟨hgone, -⟩
    · -- a new object is active after one pass
      exact wp_frame_new hready hs hmem hdeleted fun c' o' hreplaced hactive' =>
        hactive c' o' hreplaced.ready hreplaced.stored hactive'
    · exact (hactive c o hready hs h).succ
    · -- a terminating one is gone or absent after one pass
      have hsettles : (frame settings key work).outcome.Settles v 0 c :=
        wp_frame_terminating hready hs hmem hdeleted fun _ => rests_frame
      exact hsettles.succ.succ
    · refine (rests_frame fun o' ho' => ?_).settles.succ.succ
      exact Option.some.inj (hs.symm.trans ho') ▸ hgone

end Pass

end ModelKeeper

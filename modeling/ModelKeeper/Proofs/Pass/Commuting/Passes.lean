import ModelKeeper.Proofs.Pass.Commuting.Along

/-!
# Passes beside themselves

If two clusters agree in all that a pass sees, it ends in the same way in both, does the same to the
outside, and moves them alike (`Pass.beside_reconcile`).  The frame is treated once for all kinds
(`Pass.beside_frame`), and then the work for each.
-/

namespace ModelKeeper.Pass

variable {σ : Type} {v : Vendors σ} {w : Worked} {key : Key} {c d : Cluster} {a : Nat}
  {time : Instant} {s t : World σ} {settings : Settings}

/-- Whether a program that may fail goes along in both clusters, up to its end, and in the same
way. -/
abbrev Together {δ α : Type} (v : Vendors σ) (w : Worked) (key : Key) (c d : Cluster)
    (time : Instant) (p : Attempt δ α) (s t : World σ) : Prop :=
  p.Beside (World.handler v) (Program.Even (World.At time (w.Moved key c d)))
    (World.At time (w.Moved key c d)) p s t

section Records

variable {p : Attempt AccessError Unit}
  (hp : p.Beside (World.handler v) (fun _ _ => World.At time (w.Moved key c d)) (fun _ _ => False)
    p s t)
include hp

/-- A pass that has come to something records it. -/
theorem together_recorded {α : Type} (x : α) :
    Together v w key c d time (do access p; pure x) s t :=
  .bind (hp.mapError _) (fun _ _ _ _ h => .pure ⟨rfl, h⟩) fun _ _ h => h.elim

/-- A pass that has failed records it, and fails. -/
theorem together_failed {α : Type} (e : Failure) :
    Together v w key c d time
      (do let _ ← Attempt.always p.outcome; throw e : Attempt Failure α) s t := by
  refine .bind (.always hp) ?_ fun _ _ h => h
  intro _ _ s t hboth
  cases hboth with
  | ok h => exact .throw e h
  | error _ h => exact h.elim

end Records

section Frame

variable {o : Object w.kind} {work : Object w.kind → Attempt Failure (Option Directive)}

/-- An object that is not terminating is let be, or gets its finalizer, or is worked for. -/
theorem beside_frame (v : Vendors σ) (hs : c.stored? w.kind key = some o) (hplace : o.IsAt key)
    (hlife : Lifecycle.of o w.kind.finalizer ≠ .terminating)
    (h : World.At time (w.Partway key c d a) s t)
    (hwork : o.isDeleted = false → Together v w key c d time (work o.settled) s t) :
    Together v w key c d time (frame settings key work) s t := by
  have hmoved := h.mono fun _ _ h => h.moved
  unfold frame access
  refine .bind ((Objects.beside_find? v w.kind key s t).mapError _) ?_ fun _ _ h => h.elim
  rintro _ _ _ _ ⟨rfl, rfl, rfl, rfl⟩
  rw [h.clusters.own, h.clusters.own', hs]
  simp only [Option.map_some]
  have hlifecycle : Lifecycle.of o.settled w.kind.finalizer = Lifecycle.of o w.kind.finalizer := rfl
  unfold advance
  simp only [hlifecycle, hplace.settled.own]
  rcases Lifecycle.of_cases o w.kind.finalizer with
    ⟨hof, -, hdeleted⟩ | ⟨hof, -, hdeleted⟩ | ⟨hof, -⟩ | ⟨hof, -⟩
  · -- a new object gets its finalizer on both sides, as it is the same on both
    simp only [hof]
    have hadd := beside_amend_own v (.addFinalizer w) hs hplace hdeleted settings.writeAttempts h
    have hnew : Attempt.Beside (World.handler v)
        (fun x y s t => (x = some Directive.immediate ∧ y = x) ∧
          World.At time (w.Moved key c d) s t) (fun _ _ => False)
        (do
          let _ ← addFinalizer w.kind key w.kind.finalizer settings.writeAttempts
          pure (some .immediate)) _ s t :=
      .bind hadd (fun _ _ _ _ h => .pure ⟨⟨rfl, rfl⟩, h⟩) fun _ _ h => h
    refine .bind (hnew.mapError _) ?_ fun _ _ h => h.elim
    rintro _ _ s t ⟨⟨rfl, rfl⟩, h⟩
    exact .pure ⟨rfl, h⟩
  · simp only [hof]
    exact hwork hdeleted
  · exact absurd hof hlife
  · -- an object that is gone is let be
    simp only [hof]
    exact .pure ⟨rfl, hmoved⟩

end Frame

/-! ### Language models -/

namespace Llm

variable {o : Object .llm}

theorem beside_normalizeLabel (v : Vendors σ) (hs : c.stored? .llm key = some o)
    (hplace : o.IsAt key) (hdeleted : o.isDeleted = false)
    (h : World.At time (Worked.llm.Partway key c d a) s t) (settings : Settings) :
    (normalizeLabel settings o).Beside (World.handler v)
      (fun x y s t => y = x ∧ World.At time
        (if x then Worked.llm.Moved key c d else Worked.llm.Partway key c d a) s t)
      (fun _ _ => False) (normalizeLabel settings o) s t := by
  unfold normalizeLabel
  simp only [hplace.own]
  split
  · exact .pure ⟨rfl, h⟩
  · exact .bind (beside_amend_own v (.label _) hs hplace hdeleted settings.writeAttempts h)
      (fun _ _ _ _ h => .pure ⟨rfl, h⟩) fun _ _ h => h

theorem beside_work (hv : v.Steady) (hsees : Worked.llm.Sees key c d)
    (hs : c.stored? .llm key = some o) (hplace : o.IsAt key) (hdeleted : o.isDeleted = false)
    (h : World.At time (Worked.llm.Partway key c d a) s t) :
    Together v .llm key c d time (work settings key o) s t := by
  unfold work access
  refine .bind (.mapError (beside_normalizeLabel v hs hplace hdeleted h settings) _) ?_
    fun _ _ h => h.elim
  rintro _ labelled s t ⟨rfl, h⟩
  cases labelled with
  | true => exact .pure ⟨rfl, h⟩
  | false =>
    -- the label is as it should be, so nothing is written before the check
    have hcheck := Attempt.beside_of_keeps ((inquires_partway hv hsees a time).check o) h
    refine .bind (.always hcheck) ?_ fun _ _ h => h
    intro outcome outcome' s t hboth
    cases hboth with
    | ok heven =>
      obtain ⟨rfl, h⟩ := heven
      refine .bind (.always (World.beside_now h)) ?_ fun _ _ h => h
      rintro _ _ s t ⟨rfl, rfl, h⟩
      exact together_recorded
        (beside_persist v (.recordReady (.ok _) _) hs hplace hdeleted _ h) none
    | error e h =>
      refine .bind (.always (World.beside_now h)) ?_ fun _ _ h => h
      rintro _ _ s t ⟨rfl, rfl, h⟩
      exact together_failed (beside_persist v (.recordReady (.error e) _) hs hplace hdeleted _ h) _

end Llm

/-! ### Prompts -/

namespace Prompt

variable {o : Object .prompt}

/-- What is wanted of a language model is read in the same way. -/
theorem beside_get (v : Vendors σ) (hsees : Worked.prompt.Sees key c d)
    (h : World.At time (Worked.prompt.Partway key c d a) s t) (home : Key) :
    (Objects.get .llm home).Beside (World.handler v)
      (fun x y s t => y.spec = x.spec ∧ World.At time (Worked.prompt.Partway key c d a) s t)
      (World.At time (Worked.prompt.Partway key c d a)) (Objects.get .llm home) s t := by
  have hwanted : (t.cluster.stored? .llm home).map Object.spec =
      (s.cluster.stored? .llm home).map Object.spec := by
    -- no pass over a prompt makes a language model, so both runs find what was there first
    rcases h.clusters.objects .llm home with ⟨hc, hd⟩ | ⟨⟨hkind, -⟩ | ⟨hmodel, -⟩, -⟩
    · rw [hc, hd, hsees.wanted home]
    · cases hkind
    · cases hmodel
  refine .ask_inward (.get .llm home) (.get .llm home) rfl rfl ?_
  show Attempt.Both _ _ (s.cluster.get .llm home) (t.cluster.get .llm home) s t
  unfold Cluster.get
  cases hx : s.cluster.stored? .llm home with
  | none =>
    rw [hx, Option.map_none, Option.map_eq_none_iff] at hwanted
    rw [hwanted]
    exact .error _ h
  | some x =>
    rw [hx, Option.map_some, Option.map_eq_some_iff] at hwanted
    obtain ⟨y, hy, hspec⟩ := hwanted
    rw [hy]
    exact .ok ⟨hspec, h⟩

theorem beside_send (hv : v.Steady) (hsees : Worked.prompt.Sees key c d)
    (h : World.At time (Worked.prompt.Partway key c d a) s t) (o : Object .prompt) :
    (send o).Beside (World.handler v)
      (Program.Even (World.At time (Worked.prompt.Partway key c d a)))
      (World.At time (Worked.prompt.Partway key c d a)) (send o) s t := by
  cases hnamed : o.spec.llm.filter (·.name != "") with
  | none =>
    unfold send
    rw [hnamed]
    exact .throw _ h
  | some reference =>
    rw [send_eq hnamed]
    refine .bind (.mapError (beside_get v hsees h _) _) ?_ fun _ _ h => h
    rintro llm llm' s t ⟨hspec, h⟩
    -- another pass may have changed the language model, but not what is wanted of it
    rw [hspec]
    exact Attempt.beside_of_keeps ((inquires_partway hv hsees a time).sendTo o _ _) h

theorem beside_work (hv : v.Steady) (hsees : Worked.prompt.Sees key c d)
    (hs : c.stored? .prompt key = some o) (hplace : o.IsAt key) (hdeleted : o.isDeleted = false)
    (h : World.At time (Worked.prompt.Partway key c d a) s t) :
    Together v .prompt key c d time (work settings key o.settled) s t := by
  unfold work access
  split
  · exact .pure ⟨rfl, h.mono fun _ _ h => h.moved⟩
  · refine .bind (.always (beside_send hv hsees h o.settled)) ?_ fun _ _ h => h
    intro outcome outcome' s t hboth
    cases hboth with
    | ok heven =>
      obtain ⟨rfl, h⟩ := heven
      exact together_recorded (beside_persist v (.record _ (.ok _)) hs hplace hdeleted _ h) _
    | error e h =>
      exact together_failed
        (beside_persist v (.record _ (.error e.conditionMessage)) hs hplace hdeleted _ h) _

end Prompt

/-! ### Models -/

namespace Model

/-- Whether the chain has gone along, with the model as it was. -/
def Unwritten (key : Key) (c d c' d' : Cluster) : Prop :=
  ∃ a, Worked.model.Partway key c d a c' d'

theorem exists_partway (h : World.At time (Unwritten key c d) s t) :
    ∃ a, World.At time (Worked.model.Partway key c d a) s t := by
  obtain ⟨a, hclusters⟩ := h.clusters
  exact ⟨a, h.clock, h.clock', hclusters⟩

section Parts

variable (p : ImageStore.Part) {source source' : p.Source}

theorem beside_createOrGet (v : Vendors σ)
    (hmatched : (p.object key.ns source).Matched c.version d.version a (p.object key.ns source'))
    (hs : s.cluster.stored? p.kind (p.key key.ns) = none)
    (ht : t.cluster.stored? p.kind (p.key key.ns) = none)
    (h : World.At time (Worked.model.Partway key c d a) s t) :
    (ImageStore.createOrGet (p.key key.ns) (p.object key.ns source)).Beside (World.handler v)
      (fun x y s t => (x.2 = true ∧ y.2 = true) ∧
        World.At time (Worked.model.Partway key c d (a + 1)) s t) (fun _ _ => False)
      (ImageStore.createOrGet (p.key key.ns) (p.object key.ns source')) s t := by
  have hmade : ∀ {w : World σ} {source : p.Source},
      w.cluster.stored? p.kind (p.key key.ns) = none →
      (World.handler v).answer (.create p.kind (p.object key.ns source)) w =
        (.ok (w.cluster.created (p.object key.ns source)),
          { w with
            cluster := w.cluster.nextVersion.store (p.key key.ns)
              (w.cluster.created (p.object key.ns source)) }) :=
    fun hw => ImageStore.create_absent (p.object_isAt ..) hw
  -- both runs make the part, each with the numbers that its cluster hands out
  have hcreate : (Program.ask (.create p.kind (p.object key.ns source))).Beside (World.handler v)
      (fun x y s' t' => (x = .ok (s.cluster.created (p.object key.ns source)) ∧
          y = .ok (t.cluster.created (p.object key.ns source'))) ∧
        World.At time (Worked.model.Partway key c d (a + 1)) s' t')
      (Program.ask (.create p.kind (p.object key.ns source'))) s t := by
    refine .ask_inward _ _ rfl rfl ?_
    rw [hmade hs, hmade ht]
    exact ⟨⟨rfl, rfl⟩, h.clock, h.clock', h.clusters.made p hmatched⟩
  refine Program.Beside.bind hcreate ?_
  rintro _ _ s t ⟨⟨rfl, rfl⟩, h⟩
  exact .done (.ok ⟨⟨rfl, rfl⟩, h⟩)

/-- A part is taken on both sides, or made on both. -/
theorem beside_ensure (hv : v.Steady) (hsees : Worked.model.Sees key c d)
    (hmatched : (p.object key.ns source).Matched c.version d.version a (p.object key.ns source'))
    (subject : Subject) (h : World.At time (Worked.model.Partway key c d a) s t) :
    (p.ensure subject key.ns source).Beside (World.handler v)
      (fun _ _ => World.At time (Unwritten key c d)) (World.At time (Unwritten key c d))
      (p.ensure subject key.ns source') s t := by
  have hensure : ∀ source, p.ensure subject key.ns source =
      ImageStore.ensure (p.key key.ns) (p.object key.ns source) subject (p.event subject).reason
        (p.event subject).message := fun source => by cases p <;> rfl
  rw [hensure, hensure]
  unfold ImageStore.ensure
  refine .bind (Objects.beside_find? v p.kind (p.key key.ns) s t) ?_ fun _ _ h => h.elim
  rintro _ _ _ _ ⟨rfl, rfl, rfl, rfl⟩
  -- the part is missing in both clusters, or there in both
  rcases h.clusters.alike hsees (.inr ⟨rfl, p, rfl, rfl⟩) with ⟨hs, ht⟩ | ⟨o, o', hs, ht, -⟩
  · rw [hs, ht]
    refine .bind (beside_createOrGet p v hmatched hs ht h) ?_ fun _ _ h => h.elim
    rintro ⟨o, _⟩ ⟨o', _⟩ s t ⟨⟨rfl, rfl⟩, h⟩
    have h := h.mono fun _ _ h => (⟨a + 1, h⟩ : Unwritten key c d _ _)
    simp only [if_true]
    refine .bind (.always (World.beside_outward hv (.count (.provisioned p.kind)) rfl h))
      (fun _ _ s t h => ?_) fun _ _ h => h
    exact .bind (.always (World.beside_report hv subject _ _ h.2))
      (fun _ _ _ _ h => .pure h.2) fun _ _ h => h
  · rw [hs, ht]
    exact .pure (h.mono fun _ _ h => ⟨a, h⟩)

/-- A step of the chain that takes or makes a part. -/
theorem beside_partStep (hv : v.Steady) (hsees : Worked.model.Sees key c d)
    (hmatched : (p.object key.ns source).Matched c.version d.version a (p.object key.ns source'))
    (subject : Subject) (h : World.At time (Worked.model.Partway key c d a) s t) :
    Attempt.Beside (World.handler v) (fun _ _ => World.At time (Unwritten key c d))
      (World.At time (Unwritten key c d))
      (do let _ ← access (p.ensure subject key.ns source))
      (do let _ ← access (p.ensure subject key.ns source')) s t :=
  .bind ((beside_ensure p hv hsees hmatched subject h).mapError _) (fun _ _ _ _ h => .pure h)
    fun _ _ h => h

/-- A part that is there is looked at in the same way on both sides. -/
theorem beside_find_part (v : Vendors σ) (hsees : Worked.model.Sees key c d)
    (h : World.At time (Worked.model.Partway key c d a) s t) :
    (Objects.find? p.kind (p.key key.ns)).Beside (World.handler v)
      (fun x y s t => World.At time (Worked.model.Partway key c d a) s t ∧
        ((x = none ∧ y = none) ∨
          ∃ o o', x = some o ∧ y = some o' ∧ o.Alike c.version d.version a o'))
      (World.At time (Unwritten key c d)) (Objects.find? p.kind (p.key key.ns)) s t := by
  refine (Objects.beside_find? v p.kind (p.key key.ns) s t).mono ?_ fun _ _ h => h.elim
  rintro _ _ _ _ ⟨rfl, rfl, rfl, rfl⟩
  refine ⟨h, ?_⟩
  rcases h.clusters.alike hsees (.inr ⟨rfl, p, rfl, rfl⟩) with ⟨hs, ht⟩ | ⟨o, o', hs, ht, halike⟩
  · exact .inl ⟨by rw [hs]; rfl, by rw [ht]; rfl⟩
  · refine .inr ⟨o, o', ?_, ?_, halike⟩
    · rw [hs, Option.map_some, p.settled_eq]
    · rw [ht, Option.map_some, p.settled_eq]

end Parts

theorem beside_requireStatefulSet (v : Vendors σ) (hsees : Worked.model.Sees key c d)
    (h : World.At time (Worked.model.Partway key c d a) s t) :
    (requireStatefulSet key.ns).Beside (World.handler v)
      (fun set set' s t => set.Alike c.version d.version a set' ∧
        World.At time (Worked.model.Partway key c d a) s t)
      (World.At time (Unwritten key c d)) (requireStatefulSet key.ns) s t := by
  unfold requireStatefulSet access
  refine .bind (.mapError (beside_find_part .statefulSet v hsees h) _) ?_ fun _ _ h => h
  rintro _ _ s t ⟨h, ⟨rfl, rfl⟩ | ⟨set, set', rfl, rfl, halike⟩⟩
  · exact .throw _ (h.mono fun _ _ h => ⟨a, h⟩)
  · exact .pure ⟨halike, h⟩

/-- The services in front of two sets that are alike. -/
theorem matched_service {n m : Nat} {set set' : Object .statefulSet} (ns : String)
    (h : set.Alike n m a set') :
    (ImageStore.service ns set).Matched n m a (ImageStore.service ns set') := by
  rcases h with rfl | ⟨p, ⟨version, uid, owners⟩, hnumbers, rfl, rfl⟩
  · exact .refl n m a _
  · refine ⟨ImageStore.service ns p, uid, fun i hi => ?_, ?_, ?_⟩
    · exact hnumbers i (by simp [Handout.numbers, Option.mem_def.1 hi])
    · unfold ImageStore.service
      rw [Object.handed_name, Object.handed_uid]
      cases uid <;> rfl
    · unfold ImageStore.service
      rw [Object.handed_name, Object.handed_uid]
      cases uid <;> rfl

section Readiness

variable (hv : v.Steady) (hsees : Worked.model.Sees key c d)
include hv hsees

theorem beside_statefulSetReady (subject : Subject)
    (h : World.At time (Worked.model.Partway key c d a) s t) :
    (ImageStore.statefulSetReady subject key.ns).Beside (World.handler v)
      (Program.Even (World.At time (Worked.model.Partway key c d a)))
      (World.At time (Unwritten key c d)) (ImageStore.statefulSetReady subject key.ns) s t := by
  unfold ImageStore.statefulSetReady
  refine .bind (beside_find_part .statefulSet v hsees h) ?_ fun _ _ h => h
  rintro _ _ s t ⟨h, ⟨rfl, rfl⟩ | ⟨set, set', rfl, rfl, halike⟩⟩
  · exact .pure ⟨rfl, h⟩
  · have hready : ImageStore.isStatefulSetReady set' = ImageStore.isStatefulSetReady set := by
      unfold ImageStore.isStatefulSetReady ImageStore.readyReplicas
      rw [halike.status]
    simp only [hready]
    split
    · exact .pure ⟨rfl, h⟩
    · exact .bind (.always (World.beside_report hv subject _ _ h))
        (fun _ _ _ _ h => .pure ⟨rfl, h.2⟩) fun _ _ h => h

theorem beside_serviceReady (subject : Subject)
    (h : World.At time (Worked.model.Partway key c d a) s t) :
    (ImageStore.serviceReady subject key.ns).Beside (World.handler v)
      (Program.Even (World.At time (Worked.model.Partway key c d a)))
      (World.At time (Unwritten key c d)) (ImageStore.serviceReady subject key.ns) s t := by
  unfold ImageStore.serviceReady
  refine .bind (beside_find_part .service v hsees h) ?_ fun _ _ h => h
  rintro _ _ s t ⟨h, ⟨rfl, rfl⟩ | ⟨service, service', rfl, rfl, halike⟩⟩
  · exact .pure ⟨rfl, h⟩
  · have hready : ImageStore.isServiceReady service' = ImageStore.isServiceReady service := by
      unfold ImageStore.isServiceReady
      rw [halike.spec]
    simp only [hready]
    split
    · exact .pure ⟨rfl, h⟩
    · exact .bind (.always (World.beside_report hv subject _ _ h))
        (fun _ _ _ _ h => .pure ⟨rfl, h.2⟩) fun _ _ h => h

theorem beside_isReady (o : Object .model)
    (h : World.At time (Worked.model.Partway key c d a) s t) :
    (isReady ⟨settings, key, o⟩).Beside (World.handler v)
      (Program.Even (World.At time (Worked.model.Partway key c d a)))
      (World.At time (Unwritten key c d)) (isReady ⟨settings, key, o⟩) s t := by
  unfold isReady access
  refine .bind (.mapError (beside_statefulSetReady hv hsees o.subject h) _) ?_ fun _ _ h => h
  rintro _ ready s t ⟨rfl, h⟩
  cases ready with
  | false => exact .pure ⟨rfl, h⟩
  | true => exact .mapError (beside_serviceReady hv hsees o.subject h) _

end Readiness

section Work

variable {o : Object .model} (hv : v.Steady) (hsees : Worked.model.Sees key c d)
  (hs : c.stored? .model key = some o) (hplace : o.IsAt key) (hdeleted : o.isDeleted = false)
include hv hsees hs hplace hdeleted

/-- If the last step of the chain fails then nothing was written yet. -/
theorem beside_readinessStep (h : World.At time (Worked.model.Partway key c d a) s t) :
    (readinessStep ⟨settings, key, o⟩).Beside (World.handler v)
      (fun _ _ => World.At time (Worked.model.Moved key c d)) (World.At time (Unwritten key c d))
      (readinessStep ⟨settings, key, o⟩) s t := by
  unfold readinessStep
  refine .bind (beside_isReady hv hsees o h) ?_ fun _ _ h => h
  rintro _ ready s t ⟨rfl, h⟩
  cases ready with
  | false => exact .throw _ (h.mono fun _ _ h => ⟨a, h⟩)
  | true =>
    refine .bind (beside_requireStatefulSet v hsees h) ?_ fun _ _ h => h
    rintro set set' s t ⟨halike, h⟩
    -- the sets may differ in their numbers, but not in what is published of them
    have hcounts : Counts.of set' = Counts.of set := by
      unfold Counts.of
      rw [halike.spec, halike.status]
    rw [hcounts]
    refine .bind (.mapError (beside_persist v (.markAvailable _) hs hplace hdeleted _ h) _)
      (fun _ _ s t h => ?_) fun _ _ h => h.elim
    split
    · exact (Attempt.Beside.always (World.beside_report hv _ _ _ h)).mono (fun _ _ _ _ h => h.2)
        fun _ _ h => h
    · exact .pure h

theorem beside_chain (h : World.At time (Worked.model.Partway key c d a) s t) :
    Attempt.Beside (World.handler v) (fun _ _ => World.At time (Worked.model.Moved key c d))
      (World.At time (Unwritten key c d)) (Chain.run ⟨settings, key, o⟩ chain)
      (Chain.run ⟨settings, key, o⟩ chain) s t := by
  have hclaim : (claimStep ⟨settings, key, o⟩).Beside (World.handler v)
      (fun _ _ => World.At time (Unwritten key c d)) (World.At time (Unwritten key c d))
      (claimStep ⟨settings, key, o⟩) s t :=
    beside_partStep .claim hv hsees (.refl _ _ _ _) o.subject h
  refine .bind hclaim (fun _ _ s t h => ?_) fun _ _ h => h
  obtain ⟨a, h⟩ := exists_partway h
  have hset : (statefulSetStep ⟨settings, key, o⟩).Beside (World.handler v)
      (fun _ _ => World.At time (Unwritten key c d)) (World.At time (Unwritten key c d))
      (statefulSetStep ⟨settings, key, o⟩) s t :=
    beside_partStep .statefulSet hv hsees (.refl _ _ _ _) o.subject h
  refine .bind hset (fun _ _ s t h => ?_) fun _ _ h => h
  obtain ⟨a, h⟩ := exists_partway h
  -- the set may have been made on both sides just now, and then the services are matched only
  have hservice : (serviceStep ⟨settings, key, o⟩).Beside (World.handler v)
      (fun _ _ => World.At time (Unwritten key c d)) (World.At time (Unwritten key c d))
      (serviceStep ⟨settings, key, o⟩) s t := by
    unfold serviceStep
    refine .bind (beside_requireStatefulSet v hsees h) ?_ fun _ _ h => h
    rintro set set' s t ⟨halike, h⟩
    exact beside_partStep .service hv hsees (matched_service key.ns halike) o.subject h
  refine .bind hservice (fun _ _ s t h => ?_) fun _ _ h => h
  obtain ⟨a, h⟩ := exists_partway h
  exact .bind (beside_readinessStep hv hsees hs hplace hdeleted h) (fun _ _ _ _ h => .pure h)
    fun _ _ h => h

theorem beside_work (h : World.At time (Worked.model.Partway key c d a) s t) :
    Together v .model key c d time (work settings key o) s t := by
  unfold work access
  split
  · refine .bind (.mapError (beside_persist v .markProgressing hs hplace hdeleted _ h) _)
      (fun _ _ s t h => ?_) fun _ _ h => h.elim
    exact .bind (.always (World.beside_report hv _ _ _ h)) (fun _ _ _ _ h => .throw _ h.2)
      fun _ _ h => h
  · refine .bind (.always (beside_chain hv hsees hs hplace hdeleted h)) ?_ fun _ _ h => h
    intro _ _ s t hboth
    cases hboth with
    | ok h => exact .pure ⟨rfl, h⟩
    | error e h =>
      obtain ⟨a, h⟩ := exists_partway h
      split
      · next heq => cases heq
      · exact .throw _ (h.mono fun _ _ h => h.moved)
      · exact together_failed (beside_persist v (.markFailed _) hs hplace hdeleted _ h) _

end Work

end Model

/-! ### All passes -/

/-- Whether there is an object under a key, and it is not terminating. -/
def Worked.Stands (w : Worked) (key : Key) (c : Cluster) : Prop :=
  ∃ o : Object w.kind, c.stored? w.kind key = some o ∧
    Lifecycle.of o w.kind.finalizer ≠ .terminating

/-- A pass that sees the same in two worlds has the same result in both, does the same to the
outside, and moves both alike. -/
theorem beside_reconcile (hv : v.Steady) (w : Worked) (settings : Settings) (hplaced : c.Placed)
    (hstands : w.Stands key c) (h : World.At time (fun c' d' => c' = c ∧ d' = d) s t)
    (hsees : w.Sees key c d) :
    (reconcile w settings key).Beside (World.handler v)
      (Program.Even (World.At time (w.Moved key c d))) (reconcile w settings key) s t := by
  obtain ⟨o, hs, hlife⟩ := hstands
  have hplace := hplaced _ _ o hs
  have h : World.At time (w.Partway key c d 0) s t := h.mono fun c' d' ⟨hc, hd⟩ => by
    rw [hc, hd]
    exact hsees.partway
  -- one case for each kind of work
  have hrun : Together v w key c d time (run w settings key) s t := by
    cases w with
    | llm =>
      exact beside_frame v hs hplace hlife h fun hdeleted =>
        Llm.beside_work hv hsees hs hplace hdeleted h
    | model =>
      exact beside_frame v hs hplace hlife h fun hdeleted =>
        Model.beside_work hv hsees hs hplace hdeleted h
    | prompt =>
      exact beside_frame v hs hplace hlife h fun hdeleted =>
        Prompt.beside_work hv hsees hs hplace hdeleted h
  refine Program.Beside.bind hrun fun r r' s t hboth => ?_
  cases hboth with
  | ok heven => exact .done ⟨by rw [heven.1], heven.2⟩
  | error e h => exact .done ⟨rfl, h⟩

end ModelKeeper.Pass

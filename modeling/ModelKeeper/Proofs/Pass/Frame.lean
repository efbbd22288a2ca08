import ModelKeeper.Pass.Basic
import ModelKeeper.Proofs.World.Alone

/-!
# The frame of a pass

What a pass does around the work for its kind, where nobody else writes the cluster: an absent or
gone object is left alone; a new one gets the finalizer and a terminating one loses it, unless there
are too many conflicts; and an active one is worked for (`Pass.wp_frame_stored_owned`).
-/

namespace ModelKeeper

variable {ε : Type} {m : Meaning ε} {k : Kind} {key : Key} {c : Cluster} {o : Object k} {e : ε}
  {half : Half} {shows : Instant → Prop} {within : Cluster → ε → Prop}
  {wrote : Object k → Except AccessError (Object k) → Cluster → ε → Prop}

theorem Objects.wp_find?_owned (howns : m.Owns half k key shows within wrote) (he : within c e)
    {post : Except AccessError (Option (Object k)) → ε → Prop}
    (hpost : ∀ e', within c e' → post (.ok ((c.stored? k key).map Object.settled)) e') :
    (find? k key).wp m post e := by
  unfold find?
  simp only [Attempt.wp_of, Program.wp_bind', Program.ask, Program.wp_step, Program.wp_done]
  refine howns.get c e _ he fun e' he' => ?_
  have hfound := hpost e' he'
  unfold Cluster.get
  cases hs : c.stored? k key with
  | none | some o =>
    rw [hs] at hfound
    exact hfound

/-- What becomes of an object whose body is changed: it is replaced, after the injected conflicts,
or they use up all attempts. -/
theorem Change.wp_replace_owned {change : Change k}
    {post : Except AccessError (Object k) → ε → Prop}
    (howns : m.Owns .body k key shows within wrote) (hproper : change.Proper) (hplace : o.IsAt key)
    {incoming : Object k} (hchange : ∀ now, change now o.settled = (incoming, true))
    (attempts : Nat) (hs : c.stored? k key = some o) (he : within c e)
    (hput : c.injectedConflicts < max attempts 1 → ∀ a answer e',
      wrote incoming answer (c.withBody key o incoming) e' → post (.ok a) e')
    (hconflict : max attempts 1 ≤ c.injectedConflicts → ∀ e',
      within { c with injectedConflicts := c.injectedConflicts - max attempts 1 } e' →
      post (.error (.conflict k.name key "injected conflict")) e') :
    (amend .body k key attempts change).wp m post e := by
  refine wp_amend_steady howns hproper hplace (fun now _ => congrArg Prod.snd (hchange now))
    attempts hs he (fun _ _ _ hfalse => by cases hfalse) (fun now e' _ _ hlt hwrote => ?_)
    fun e' _ hle he' => hconflict hle e' he'
  unfold result at hwrote
  rw [hchange now] at hwrote
  exact hput hlt _ _ e' hwrote

namespace Pass

variable {settings : Settings} {work : Object k → Attempt Failure (Option Directive)}
  {post : Except Failure (Option Directive) → ε → Prop}

/-- An active object is worked for, whoever answers. -/
theorem wp_frame_of_active
    (hfind : ∀ post, (Objects.find? k key).wp m post e = post (.ok (some o)) e)
    (hactive : Lifecycle.of o k.finalizer = .active) :
    (frame settings key work).wp m post e = (work o).wp m post e := by
  unfold frame access advance
  simp only [Attempt.wp_bind, Attempt.wp_mapError, hfind, Attempt.mapError_ok,
    Attempt.unlessFailed_ok, hactive, Attempt.wp_pure]

variable (howns : m.Owns .body k key shows within wrote)
include howns

theorem wp_frame_absent_owned (hs : c.stored? k key = none) (he : within c e)
    (hpost : ∀ e', within c e' → post (.ok (some .done)) e') :
    (frame settings key work).wp m post e := by
  unfold frame access
  simp only [Attempt.wp_bind, Attempt.wp_mapError]
  refine Objects.wp_find?_owned howns he fun e' he' => ?_
  rw [hs]
  exact hpost e' he'

/-- An object that is there is brought on its way, and worked for if it is active. -/
theorem wp_frame_stored_owned (hs : c.stored? k key = some o) (hplace : o.IsAt key)
    (he : within c e)
    (hactive : Lifecycle.of o k.finalizer = .active → ∀ e', within c e' →
      (work o.settled).wp m post e')
    (hgone : Lifecycle.of o k.finalizer = .gone → ∀ e', within c e' → post (.ok (some .done)) e')
    (hadded : Lifecycle.of o k.finalizer = .new →
      c.injectedConflicts < max settings.writeAttempts 1 → ∀ incoming answer e',
      wrote incoming answer (c.withBody key o
        (o.settled.withFinalizers (o.finalizers ++ [k.finalizer]))) e' →
      post (.ok (some .immediate)) e')
    (hreleased : Lifecycle.of o k.finalizer = .terminating →
      c.injectedConflicts < max settings.writeAttempts 1 → ∀ incoming answer e',
      wrote incoming answer (c.withBody key o
        (o.settled.withFinalizers (o.finalizers.filter (· != k.finalizer)))) e' →
      post (.ok (some .done)) e')
    (hrefused : Lifecycle.of o k.finalizer = .new ∨ Lifecycle.of o k.finalizer = .terminating →
      max settings.writeAttempts 1 ≤ c.injectedConflicts → ∀ e',
      within { c with
        injectedConflicts := c.injectedConflicts - max settings.writeAttempts 1 } e' →
      post (.error (.access (.conflict k.name key "injected conflict"))) e') :
    (frame settings key work).wp m post e := by
  have hlifecycle : Lifecycle.of o.settled k.finalizer = Lifecycle.of o k.finalizer := rfl
  unfold frame access
  simp only [Attempt.wp_bind, Attempt.wp_mapError]
  refine Objects.wp_find?_owned howns he fun e he => ?_
  rw [hs]
  simp only [Option.map_some, Attempt.mapError_ok, Attempt.unlessFailed_ok, Attempt.wp_bind,
    Attempt.wp_mapError]
  unfold advance
  simp only [hplace.settled.own, hlifecycle]
  rcases Lifecycle.of_cases o k.finalizer with
    ⟨h, hmem, -⟩ | ⟨h, -⟩ | ⟨h, hmem, -⟩ | ⟨h, -⟩ <;> simp only [h]
  · -- a new object
    rw [Attempt.wp_bind]
    exact Change.wp_replace_owned howns (Object.addFinalizer_ofFinalizers k k.finalizer).proper
      hplace (fun _ => Object.addFinalizer_of_not_mem hmem) settings.writeAttempts hs he
      (fun hlt _ => hadded h hlt _) fun hle => hrefused (.inl h) hle
  · exact hactive h e he
  · -- a terminating one
    unfold removeFinalizer
    rw [Attempt.wp_bind, Attempt.wp_of, Program.wp_bind']
    exact Change.wp_replace_owned howns (Object.removeFinalizer_ofFinalizers k k.finalizer).proper
      hplace (fun _ => Object.removeFinalizer_of_mem hmem) settings.writeAttempts hs he
      (fun hlt _ => hreleased h hlt _) fun hle => hrefused (.inr h) hle
  · exact hgone h e he

end Pass

end ModelKeeper

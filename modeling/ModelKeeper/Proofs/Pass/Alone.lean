import ModelKeeper.Pass.Entry
import ModelKeeper.Proofs.Pass.Frame
import ModelKeeper.Proofs.Pass.Quiet
import ModelKeeper.Proofs.Pass.Settling.Llm

/-!
# Passes in a world of their own

In a world that nobody else acts on, a pass over an active object does the work for the object as it
stands (`Pass.wp_frame_alone`).  The check of a language model leaves the cluster and the clock as
they are, so the pass comes to the recording of what was checked, at the time at which the pass
began (`Pass.Llm.wp_run_alone`).
-/

namespace ModelKeeper.Pass

/-- What holds of the run of a pass, and of what this resolves to, holds of the pass. -/
theorem reconcile_of_run {σ : Type} {h : Handler σ} {w : Worked} {settings : Settings} {key : Key}
    {s : σ} (post : Except Failure Directive → σ → Prop)
    (hrun : (run w settings key).wp h.meaning
      (fun r s' => post (resolve settings.intervals r) s') s) :
    post ((reconcile w settings key).run h s).1 ((reconcile w settings key).run h s).2 := by
  have hreconcile : (reconcile w settings key).wp h.meaning post s := by
    unfold reconcile
    rw [Program.wp_bind']
    exact hrun
  rwa [Program.wp_meaning] at hreconcile

variable {σ : Type} {v : Vendors σ} {k : Kind} {key : Key} {settings : Settings} {w : World σ}

section Frame

variable {o : Object k} {post : Except Failure (Option Directive) → World σ → Prop}
  {work : Object k → Attempt Failure (Option Directive)}

theorem wp_frame_absent_alone (hs : w.cluster.stored? k key = none)
    (hpost : post (.ok (some .done)) w) :
    (frame settings key work).wp (World.handler v).meaning post w :=
  wp_frame_absent_owned (World.owns_meaning v w .body k key) hs rfl fun _ hw => hw ▸ hpost

/-- An object that is there is brought on its way, and worked for if it is active. -/
theorem wp_frame_stored_alone (hs : w.cluster.stored? k key = some o) (hplace : o.IsAt key)
    (hactive : Lifecycle.of o k.finalizer = .active →
      (work o.settled).wp (World.handler v).meaning post w)
    (hgone : Lifecycle.of o k.finalizer = .gone → post (.ok (some .done)) w)
    (hadded : Lifecycle.of o k.finalizer = .new →
      w.cluster.injectedConflicts < max settings.writeAttempts 1 →
      post (.ok (some .immediate))
        { w with
          cluster := w.cluster.withBody key o
            (o.settled.withFinalizers (o.finalizers ++ [k.finalizer])) })
    (hreleased : Lifecycle.of o k.finalizer = .terminating →
      w.cluster.injectedConflicts < max settings.writeAttempts 1 →
      post (.ok (some .done))
        { w with
          cluster := w.cluster.withBody key o
            (o.settled.withFinalizers (o.finalizers.filter (· != k.finalizer))) })
    (hrefused : max settings.writeAttempts 1 ≤ w.cluster.injectedConflicts → ∀ e,
      post (.error (.access e))
        { w with
          cluster := { w.cluster with
            injectedConflicts := w.cluster.injectedConflicts - max settings.writeAttempts 1 } }) :
    (frame settings key work).wp (World.handler v).meaning post w :=
  wp_frame_stored_owned (World.owns_meaning v w .body k key) hs hplace rfl
    (fun h _ hw => hw ▸ hactive h) (fun h _ hw => hw ▸ hgone h)
    (fun h hlt _ _ _ hw => hw ▸ hadded h hlt) (fun h hlt _ _ _ hw => hw ▸ hreleased h hlt)
    fun _ hle _ hw => hw ▸ hrefused hle _

theorem wp_frame_alone (hs : w.cluster.stored? k key = some o)
    (hactive : Lifecycle.of o k.finalizer = .active)
    (hwork : (work o.settled).wp (World.handler v).meaning post w) :
    (frame settings key work).wp (World.handler v).meaning post w := by
  have hfind : ∀ post, (Objects.find? k key).wp (World.handler v).meaning post w =
      post (.ok (some o.settled)) w := fun post => by simp [hs]
  rw [wp_frame_of_active hfind hactive]
  exact hwork

end Frame

namespace Llm

variable {o : Object .llm}

/-- The check leaves the cluster and the clock as they are. -/
theorem check_alone (v : Vendors σ) (o : Object .llm) (w : World σ) :
    ((check o).outcome.run (World.handler v) w).2.cluster = w.cluster ∧
      ((check o).outcome.run (World.handler v) w).2.clock = w.clock := by
  have hcheck := (World.hushed_handler v w.cluster w.clock).check o w ⟨rfl, rfl⟩
  rwa [Program.wp_meaning] at hcheck

/-- How a pass ends after a check, and after the recording of its outcome. -/
def ended (settings : Settings) (r : Except AccessError Unit) :
    Except Failure String → Except Failure (Option Directive)
  | .ok _ => (r.mapError Failure.access).map fun _ => none
  | .error e => .error (e.withRequeue settings.intervals.medium)

/-- With the right label, the pass is the check, and the recording of its outcome. -/
theorem wp_run_alone {post : Except Failure (Option Directive) → World σ → Prop}
    (hs : w.cluster.stored? .llm key = some o) (hplace : o.IsAt key)
    (hactive : Lifecycle.of o Kind.llm.finalizer = .active) (hlabel : Labelled o)
    {outcome : Except Failure String} {w₁ : World σ}
    (hcheck : (check o.settled).outcome.run (World.handler v) w = (outcome, w₁))
    (hsame : Settled outcome o → post (ended settings (.ok ()) outcome) w₁)
    (hput : ¬ Settled outcome o →
      w₁.cluster.injectedConflicts < max settings.writeAttempts 1 →
      post (ended settings (.ok ()) outcome)
        { w₁ with
          cluster := w₁.cluster.withStatus key o
            (recordReady (next outcome w.clock) o).1.status })
    (hconflict : ¬ Settled outcome o →
      max settings.writeAttempts 1 ≤ w₁.cluster.injectedConflicts →
      ∀ e, post (ended settings (.error e) outcome)
        { w₁ with
          cluster := { w₁.cluster with
            injectedConflicts := w₁.cluster.injectedConflicts -
              max settings.writeAttempts 1 } }) :
    (run settings key).wp (World.handler v).meaning post w := by
  obtain ⟨hcluster, hclock⟩ : w₁.cluster = w.cluster ∧ w₁.clock = w.clock := by
    have halone := check_alone v o.settled w
    rwa [hcheck] at halone
  have hs₁ : w₁.cluster.stored? .llm key = some o := by rw [hcluster, hs]
  have hnot : (recordReady (next outcome w.clock) o).2 = true → ¬ Settled outcome o := by
    intro hflag hsettled
    rw [recordReady_eq_false.2 hsettled] at hflag
    cases hflag
  -- the recording at the end of the pass
  have hpersist : (persist settings key (next outcome w.clock)).wp (World.handler v).meaning
      (fun r w' => post (ended settings r outcome) w') w₁ := by
    unfold persist
    rw [Attempt.wp_bind]
    exact Change.wp_record_alone (recordReady_ofStatus _) hs₁ hplace settings.writeAttempts
      (fun hflag _ => hsame (recordReady_eq_false.1 hflag))
      (fun hflag hlt _ => hput (hnot hflag) hlt)
      fun hflag hle e => hconflict (hnot hflag) hle e
  have hnormal : normalizeLabel settings o.settled = pure false := if_pos hlabel
  refine wp_frame_alone hs hactive ?_
  unfold work access
  rw [hnormal]
  simp only [Attempt.wp_bind, Attempt.wp_mapError, Attempt.wp_pure, Attempt.unlessFailed_ok,
    Attempt.mapError_ok, Attempt.wp_always, Bool.false_eq_true, if_false, Program.wp_meaning,
    hcheck]
  cases outcome with
  | ok message =>
    simp only [Attempt.wp_bind, Attempt.wp_mapError, Attempt.wp_always, Program.ask,
      Program.wp_step, Program.wp_done, World.meaning_now, hclock, Attempt.unlessFailed_ok]
    refine Attempt.wp_mono (World.handler v).meaning_monotone ?_ _ hpersist
    intro r w' hpost
    cases r with
    | ok _ => exact hpost
    | error e => exact hpost
  | error e =>
    simp only [Attempt.wp_bind, Attempt.wp_always, Program.ask, Program.wp_step, Program.wp_done,
      World.meaning_now, hclock, Attempt.unlessFailed_ok]
    exact hpersist

end Llm

end ModelKeeper.Pass

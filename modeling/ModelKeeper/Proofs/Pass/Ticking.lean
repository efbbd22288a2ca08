import ModelKeeper.Pass.Entry
import ModelKeeper.Proofs.Pass.Frame
import ModelKeeper.Proofs.World.Ticking

/-!
# The frame of a pass in a world of its own

What the frame of a pass does in a world that nobody else acts on and whose clock runs: an absent or
gone object is left alone, a new one gets the finalizer and a terminating one loses it, unless there
are too many conflicts, and an active one is worked for (`Pass.wp_frame_stored_ofWorld`).
-/

namespace ModelKeeper.Pass

variable {σ : Type} {v : Vendors σ} {k : Kind} {key : Key} {settings : Settings} {w : World σ}
  {o : Object k} {post : Except Failure (Option Directive) → World σ → Prop}
  {work : Object k → Attempt Failure (Option Directive)}

theorem wp_frame_absent_ofWorld (hs : w.cluster.stored? k key = none)
    (hpost : post (.ok (some .done)) w) :
    (frame settings key work).wp (.ofWorld v) post w :=
  wp_frame_absent_owned (Meaning.owns_ofWorld v w .body k key) hs rfl fun _ hw => hw ▸ hpost

theorem wp_frame_stored_ofWorld (hs : w.cluster.stored? k key = some o) (hplace : o.IsAt key)
    (hactive : Lifecycle.of o k.finalizer = .active → (work o.settled).wp (.ofWorld v) post w)
    (hgone : Lifecycle.of o k.finalizer = .gone → post (.ok (some .done)) w)
    (hadded : Lifecycle.of o k.finalizer = .new →
      w.cluster.injectedConflicts < max settings.writeAttempts 1 →
      post (.ok (some .immediate))
        { w with
          cluster := w.cluster.withBody key o
            (o.settled.withFinalizers (o.finalizers ++ [k.finalizer])) })
    (hreleased : Lifecycle.of o k.finalizer = .terminating →
      w.cluster.injectedConflicts < max settings.writeAttempts 1 →
      post (.ok (some .done))
        { w with
          cluster := w.cluster.withBody key o
            (o.settled.withFinalizers (o.finalizers.filter (· != k.finalizer))) })
    (hrefused : Lifecycle.of o k.finalizer = .new ∨ Lifecycle.of o k.finalizer = .terminating →
      max settings.writeAttempts 1 ≤ w.cluster.injectedConflicts →
      post (.error (.access (.conflict k.name key "injected conflict")))
        { w with
          cluster := { w.cluster with
            injectedConflicts := w.cluster.injectedConflicts - max settings.writeAttempts 1 } }) :
    (frame settings key work).wp (.ofWorld v) post w :=
  wp_frame_stored_owned (Meaning.owns_ofWorld v w .body k key) hs hplace rfl
    (fun h _ hw => hw ▸ hactive h) (fun h _ hw => hw ▸ hgone h)
    (fun h hlt _ _ _ hw => hw ▸ hadded h hlt) (fun h hlt _ _ _ hw => hw ▸ hreleased h hlt)
    fun h hle _ hw => hw ▸ hrefused h hle

theorem wp_frame_active_ofWorld (hs : w.cluster.stored? k key = some o)
    (hactive : Lifecycle.of o k.finalizer = .active)
    (hwork : (work o.settled).wp (.ofWorld v) post w) :
    (frame settings key work).wp (.ofWorld v) post w := by
  have hfind : ∀ post, (Objects.find? k key).wp (.ofWorld v) post w =
      post (.ok (some o.settled)) w := fun post => by simp [hs]
  rw [wp_frame_of_active hfind hactive]
  exact hwork

/-! ### Passes over other objects -/

/-- A pass is the frame around the work for its kind. -/
theorem run_eq_frame (j : Worked) (settings : Settings) (key : Key) :
    ∃ work, run j settings key = frame (k := j.kind) settings key work := by
  cases j <;> exact ⟨_, rfl⟩

/-- A pass over an object that is not active says nothing, and records no status. -/
theorem wp_reconcile_idle (j : Worked)
    (hplace : ∀ o : Object j.kind, w.cluster.stored? j.kind key = some o → o.IsAt key)
    (hidle : ∀ o : Object j.kind, w.cluster.stored? j.kind key = some o →
      Lifecycle.of o j.kind.finalizer ≠ .active) :
    (reconcile j settings key).wp (.ofWorld v) (fun _ w' => w'.events = w.events ∧
      ∀ o', w'.cluster.stored? j.kind key = some o' →
        ∃ o, w.cluster.stored? j.kind key = some o ∧ o'.status = o.status) w := by
  obtain ⟨work, hframe⟩ := run_eq_frame j settings key
  unfold reconcile
  rw [Program.wp_bind', hframe]
  cases hs : w.cluster.stored? j.kind key with
  | none => exact wp_frame_absent_ofWorld hs ⟨rfl, fun o' ho' => by cases hs.symm.trans ho'⟩
  | some o =>
    -- a write of the body takes over the status that is stored
    have hbody : ∀ fs o', (w.cluster.withBody key o (o.settled.withFinalizers fs)).stored? j.kind
        key = some o' → o'.status = o.status := by
      intro fs o' ho'
      rw [Cluster.stored?_withBody (by rfl), Option.ite_none_left_eq_some] at ho'
      rw [← Option.some.inj ho'.2]
      rfl
    refine wp_frame_stored_ofWorld hs (hplace o hs) (fun hactive => absurd hactive (hidle o hs))
      (fun _ => ⟨rfl, fun o' ho' => ?_⟩) (fun _ _ => ⟨rfl, fun o' ho' => ?_⟩)
      (fun _ _ => ⟨rfl, fun o' ho' => ?_⟩) fun _ _ => ⟨rfl, fun o' ho' => ?_⟩
    · exact ⟨o, rfl, by rw [Option.some.inj (ho'.symm.trans hs)]⟩
    · exact ⟨o, rfl, hbody _ o' ho'⟩
    · exact ⟨o, rfl, hbody _ o' ho'⟩
    · exact ⟨o, rfl, by rw [Option.some.inj (ho'.symm.trans hs)]⟩

end ModelKeeper.Pass

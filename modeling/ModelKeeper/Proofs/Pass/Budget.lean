import ModelKeeper.Proofs.Pass.Ticking

/-!
# How many conflicts a write survives

A write that is retried survives as many conflicts as it has attempts, less one.  An amendment in so
many attempts, at least one, that has something to write goes through if there are fewer conflicts,
and uses up as many as there are attempts otherwise (`ExactBudget`).  So a pass over a terminating
object releases it or fails, and it is known which (`Pass.ExactRelease`).
-/

namespace ModelKeeper

variable {σ : Type} {k : Kind}

/-- What an amendment in at most `attempts` attempts comes to in the world `w`: its result, the
world after it, and its exchanges. -/
structure ExactBudget (half : Half) (key : Key) (attempts : Nat)
    (mutate : Object k → Object k × Bool) (w : World σ) (result : Except AccessError (Object k))
    (after : World σ) (exchanges : List Exchange) : Prop where
  missing : (∃ e, result = .error e ∧ e.isNotFound = true) ↔ w.cluster.stored? k key = none
  /-- There is nothing to write. -/
  kept (o : Object k) : w.cluster.stored? k key = some o → (mutate o.settled).2 = false →
    result = .ok (mutate o.settled).1 ∧ after = w
  /-- The last exchange is a write that goes through, and no other is.  What is written is what is
  returned, and what is read back unless this was the last write of a terminating object. -/
  written (o : Object k) : w.cluster.stored? k key = some o → (mutate o.settled).2 = true →
    w.cluster.injectedConflicts < max attempts 1 →
    let o' := half.replaced o (mutate o.settled).1 w.cluster.nextVersion.versionText
    result = .ok o'.settled ∧
      after = { w with
        cluster := ({ w.cluster with injectedConflicts := 0 } : Cluster).nextVersion.putBack half
          key o' } ∧
      (after.cluster.stored? k key =
        if half = .body ∧ o'.isDeleted ∧ o'.finalizers = [] then none else some o') ∧
      ∃ earlier x, exchanges = earlier ++ [x] ∧ Exchange.NoCommit earlier ∧
        x.Writes (mutate o.settled).1 (.ok o'.settled) half
  /-- The attempts are used up. -/
  refused (o : Object k) : w.cluster.stored? k key = some o → (mutate o.settled).2 = true →
    max attempts 1 ≤ w.cluster.injectedConflicts →
    (∃ e, result = .error e ∧ e.isConflict = true) ∧
      after = { w with
        cluster := { w.cluster with
          injectedConflicts := w.cluster.injectedConflicts - max attempts 1 } } ∧
      Exchange.NoCommit exchanges

/-- What is known of an amendment in a world of its own. -/
theorem ExactBudget.wp_amend (v : Vendors σ) {w : World σ} (half : Half) (key : Key)
    (attempts : Nat) {mutate : Object k → Object k × Bool}
    (hproper : Change.Proper fun _ => mutate) (hplaced : w.cluster.Placed) :
    (amend half k key attempts fun _ => mutate).wp (Meaning.ofWorld v).noted
      (fun r s => ExactBudget half key attempts mutate w r s.1 s.2.reverse) (w, []) := by
  cases hs : w.cluster.stored? k key with
  | none =>
    refine Change.wp_amend_absent_noted hs attempts
      { missing := ⟨fun _ => hs, fun _ => ⟨_, rfl, rfl⟩⟩
        kept := fun o ho => ?_
        written := fun o ho => ?_
        refused := fun o ho => ?_ } <;> cases hs.symm.trans ho
  | some o =>
    have hself : ∀ o', w.cluster.stored? k key = some o' → o' = o :=
      fun o' ho' => Option.some.inj (ho'.symm.trans hs)
    have hthere : w.cluster.stored? k key ≠ none := fun h => by cases hs.symm.trans h
    -- no need to write, a write after the conflicts, or no attempt left
    refine Change.wp_amend_noted hproper hs (hplaced k key o hs) (fun _ => rfl) attempts
      (fun now earlier hfalse _ => ?_) (fun now earlier x htrue hlt hearlier hx => ?_)
      fun earlier htrue hle hearlier => ?_
    · refine
        { missing := ⟨fun ⟨_, h, _⟩ => (nomatch h), fun h => absurd h hthere⟩
          kept := fun o' ho' _ => hself o' ho' ▸ ⟨rfl, rfl⟩
          written := fun o' ho' htrue => ?_
          refused := fun o' ho' htrue => ?_ } <;>
      · rw [hself o' ho', hfalse] at htrue
        cases htrue
    · refine
        { missing := ⟨fun ⟨_, h, _⟩ => (nomatch h), fun h => absurd h hthere⟩
          kept := fun o' ho' hfalse => ?_
          written := fun o' ho' _ _ => ?_
          refused := fun _ _ _ hle => absurd hlt (Nat.not_lt.2 hle) }
      · rw [hself o' ho', htrue] at hfalse
        cases hfalse
      · obtain rfl := hself o' ho'
        refine ⟨rfl, rfl, Cluster.stored?_putBack_self .., earlier.reverse, x, ?_,
          fun y hy => hearlier y (List.mem_reverse.1 hy), hx⟩
        simp
    · refine
        { missing := ⟨fun ⟨_, h, hmissing⟩ => ?_, fun h => absurd h hthere⟩
          kept := fun o' ho' hfalse => ?_
          written := fun _ _ _ hlt => absurd hlt (Nat.not_lt.2 hle)
          refused := fun o' ho' _ _ => ⟨⟨_, rfl, rfl⟩, rfl, fun y hy => ?_⟩ }
      · cases h
        cases hmissing
      · rw [hself o' ho', htrue] at hfalse
        cases hfalse
      · rw [List.append_nil, List.mem_reverse] at hy
        exact hearlier y hy

namespace Pass

/-- What a pass over the terminating object `o` comes to in the world `w`: its result, and the world
after it. -/
structure ExactRelease (j : Worked) (settings : Settings) (key : Key) (o : Object j.kind)
    (w : World σ) (result : Except Failure Directive) (after : World σ) : Prop where
  done : result = .ok .done ↔ w.cluster.injectedConflicts < max settings.writeAttempts 1
  released : w.cluster.injectedConflicts < max settings.writeAttempts 1 →
    after = { w with
      cluster := w.cluster.withBody key o
        (o.settled.withFinalizers (o.finalizers.filter (· != j.kind.finalizer))) } ∧
    ∀ o', after.cluster.stored? j.kind key = some o' → j.kind.finalizer ∉ o'.finalizers
  refused : max settings.writeAttempts 1 ≤ w.cluster.injectedConflicts →
    (∃ e, result = .error (.access e) ∧ e.isConflict = true) ∧
      after = { w with
        cluster := { w.cluster with
          injectedConflicts := w.cluster.injectedConflicts - max settings.writeAttempts 1 } }

theorem ExactRelease.wp_reconcile {v : Vendors σ} {w : World σ} {j : Worked} {settings : Settings}
    {key : Key} {o : Object j.kind} (hs : w.cluster.stored? j.kind key = some o)
    (hplace : o.IsAt key) (hterminating : Lifecycle.of o j.kind.finalizer = .terminating) :
    (reconcile j settings key).wp (.ofWorld v) (ExactRelease j settings key o w) w := by
  have hother : ∀ l, Lifecycle.of o j.kind.finalizer = l → l = .terminating :=
    fun l h => h.symm.trans hterminating
  obtain ⟨work, hframe⟩ := run_eq_frame j settings key
  unfold reconcile
  rw [Program.wp_bind', hframe]
  -- of the four ends of the frame only the two of a terminating object can occur
  refine wp_frame_stored_ofWorld hs hplace (fun h => by cases hother _ h)
    (fun h => by cases hother _ h) (fun h => by cases hother _ h) (fun _ hlt => ?_) fun _ hle => ?_
  · refine
      { done := ⟨fun _ => hlt, fun _ => rfl⟩
        released := fun _ => ⟨rfl, fun o' ho' => ?_⟩
        refused := fun hle => absurd hlt (Nat.not_lt.2 hle) }
    have hstored : (w.cluster.withBody key o (o.settled.withFinalizers
        (o.finalizers.filter (· != j.kind.finalizer)))).stored? j.kind key = some o' := ho'
    rw [Cluster.stored?_withBody (by rfl), Option.ite_none_left_eq_some] at hstored
    obtain rfl := Option.some.inj hstored.2
    simp [Cluster.merged, Object.finalizers, Object.withFinalizers]
  · exact
      { done := ⟨by rintro ⟨⟩, fun hlt => absurd hlt (Nat.not_lt.2 hle)⟩
        released := fun hlt => absurd hlt (Nat.not_lt.2 hle)
        refused := fun _ => ⟨⟨_, rfl, rfl⟩, rfl⟩ }

/-- It is known exactly how many conflicts a write survives.  In a world that nobody else acts on,
whatever its clock shows, an amendment of any half of any object spends its attempts as
`ExactBudget` says, and a pass over a terminating object releases it as `ExactRelease` says. -/
theorem exact_conflict_budget (v : Vendors σ) (clock : Nat → Instant) {w : World σ}
    (hplaced : w.cluster.Placed) (looks : Nat) :
    let h := World.ticking v clock
    (∀ (half : Half) (k : Kind) (key : Key) (attempts : Nat) (mutate : Object k → Object k × Bool),
      Change.Proper (fun _ => mutate) →
      let p := (amend half k key attempts fun _ => mutate).outcome
      ExactBudget half key attempts mutate w (p.run h (w, looks)).1 (p.run h (w, looks)).2.1
        (p.exchanges h (w, looks))) ∧
    ∀ (j : Worked) (settings : Settings) (key : Key) (o : Object j.kind),
      w.cluster.stored? j.kind key = some o →
      Lifecycle.of o j.kind.finalizer = .terminating →
      let s := (reconcile j settings key).run h (w, looks)
      ExactRelease j settings key o w s.1 s.2.1 := by
  refine ⟨fun half k key attempts mutate hproper => ?_, fun j settings key o hs hterminating => ?_⟩
  · have hrun := Program.ticking_of_wp clock looks _
      (ExactBudget.wp_amend v half key attempts hproper hplaced)
    rwa [List.append_nil, List.reverse_reverse] at hrun
  · exact Program.ticking_run_of_wp clock looks _
      (ExactRelease.wp_reconcile hs (hplaced j.kind key o hs) hterminating)

/-- Where a terminating model is kept. -/
def leavingKey : Key := ⟨"default", "m"⟩

/-- A model that terminates. -/
def leavingModel : Object .model where
  metadata :=
    { name := some leavingKey.name
      ns := some leavingKey.ns
      finalizers := some [Kind.model.finalizer]
      deletion := some (.ofSeconds 0) }
  spec := { image := "llama" }

/-- A world with this model in which the next two writes fail. -/
def contendedWorld : World Unit where
  cluster := (Cluster.empty.insert leavingModel).2.injectConflicts 2
  vendors := ()

/-- With three attempts the pass over it is done; an amendment in at most one attempt fails. -/
theorem exact_conflict_budget_contended :
    let h := World.ticking .unreachable fun n => ⟨n, 0⟩
    contendedWorld.cluster.Placed ∧
      ((reconcile .model { writeAttempts := 3 } leavingKey).run h (contendedWorld, 0)).1 =
        .ok .done ∧
      ∃ e, ((amend .body .model leavingKey 0 fun _ => Object.removeFinalizer
        Kind.model.finalizer).outcome.run h (contendedWorld, 0)).1 = .error e ∧
        e.isConflict = true := by
  intro h
  have hplaced : contendedWorld.cluster.Placed :=
    (Cluster.grows_insert Cluster.empty leavingModel).placed Cluster.placed_empty
  have hs : contendedWorld.cluster.stored? .model leavingKey = some _ := rfl
  obtain ⟨hbudget, hrelease⟩ := exact_conflict_budget .unreachable (fun n => ⟨n, 0⟩) hplaced 0
  have hproper : Change.Proper fun _ => Object.removeFinalizer Kind.model.finalizer :=
    (Object.removeFinalizer_ofFinalizers .model Kind.model.finalizer).proper
  exact ⟨hplaced,
    (hrelease .model { writeAttempts := 3 } leavingKey _ hs (by decide)).done.2 (by decide),
    ((hbudget .body .model leavingKey 0 _ hproper).refused _ hs (by decide) (by decide)).1⟩

end Pass

end ModelKeeper

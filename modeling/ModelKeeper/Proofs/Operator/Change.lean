import ModelKeeper.Operator.Finalizer
import ModelKeeper.Proofs.Cluster.Objects
import ModelKeeper.Proofs.Program.Closed

/-!
# What the operator changes in objects

The changes with which the operator amends objects are all `Change.Proper`: of the metadata they
touch labels, annotations and finalizers at most.  Two sorts of them are even more modest.  Those
`Change.OfFinalizers` replace the list of finalizers, and those `Change.OfStatus` the status.

The two changes of finalizers, and what they mean to where an object stands (`Lifecycle.of_cases`),
are treated here too.  `amend.wp_attempt` says once and for all what an attempt to amend an object
does; all that is known of amendments rests on it.  Of some of them it matters only what they keep
(`amend.keeps`).
-/

namespace ModelKeeper

/-- Whether a change leaves alone what tells an object from others, and what only the store sets. -/
def Change.Proper {k : Kind} (change : Change k) : Prop :=
  ∀ now o, ∃ labels annotations finalizers,
    (change now o).1.metadata = { o.metadata with labels, annotations, finalizers }

/-- Whether a change touches nothing but the finalizers. -/
def Change.OfFinalizers {k : Kind} (change : Change k) : Prop :=
  ∀ now o, change now o = (o, false) ∨ ∃ fs, change now o = (o.withFinalizers fs, true)

/-- Whether a change touches nothing but the status. -/
def Change.OfStatus {k : Kind} (change : Change k) : Prop :=
  ∀ now o, ∃ status, (change now o).1 = { o with status }

namespace Change

variable {k : Kind} {change : Change k} {key : Key} {o : Object k}

theorem Proper.isAt (h : change.Proper) (hplace : o.IsAt key) (now : Instant) :
    (change now o).1.IsAt key := by
  obtain ⟨labels, annotations, finalizers, hmeta⟩ := h now o
  constructor
  · rw [hmeta]
    exact hplace.ns
  · rw [hmeta]
    exact hplace.name

theorem Proper.version (h : change.Proper) (now : Instant) (o : Object k) :
    (change now o).1.metadata.version = o.metadata.version := by
  obtain ⟨labels, annotations, finalizers, hmeta⟩ := h now o
  rw [hmeta]

theorem OfFinalizers.proper (h : change.OfFinalizers) : change.Proper := by
  intro now o
  rcases h now o with heq | ⟨fs, heq⟩
  · exact ⟨o.metadata.labels, o.metadata.annotations, o.metadata.finalizers, by rw [heq]⟩
  · exact ⟨o.metadata.labels, o.metadata.annotations, some fs, by rw [heq]; rfl⟩

theorem OfStatus.proper (h : change.OfStatus) : change.Proper := by
  intro now o
  obtain ⟨status, heq⟩ := h now o
  exact ⟨o.metadata.labels, o.metadata.annotations, o.metadata.finalizers, by rw [heq]⟩

end Change

/-! ### The changes of finalizers -/

namespace Object

variable {k : Kind} {finalizer : String} {o : Object k}

theorem addFinalizer_of_mem (h : finalizer ∈ o.finalizers) :
    o.addFinalizer finalizer = (o, false) := by
  simp [addFinalizer, h]

theorem addFinalizer_of_not_mem (h : finalizer ∉ o.finalizers) :
    o.addFinalizer finalizer = (o.withFinalizers (o.finalizers ++ [finalizer]), true) := by
  simp [addFinalizer, h]

theorem removeFinalizer_of_mem (h : finalizer ∈ o.finalizers) :
    o.removeFinalizer finalizer =
      (o.withFinalizers (o.finalizers.filter (· != finalizer)), true) := by
  simp [removeFinalizer, h]

theorem removeFinalizer_of_not_mem (h : finalizer ∉ o.finalizers) :
    o.removeFinalizer finalizer = (o, false) := by
  simp [removeFinalizer, h]

theorem addFinalizer_ofFinalizers (k : Kind) (finalizer : String) :
    Change.OfFinalizers (k := k) (fun _ => addFinalizer finalizer) := by
  intro now o
  by_cases h : finalizer ∈ o.finalizers
  · exact .inl (addFinalizer_of_mem h)
  · exact .inr ⟨_, addFinalizer_of_not_mem h⟩

theorem removeFinalizer_ofFinalizers (k : Kind) (finalizer : String) :
    Change.OfFinalizers (k := k) (fun _ => removeFinalizer finalizer) := by
  intro now o
  by_cases h : finalizer ∈ o.finalizers
  · exact .inr ⟨_, removeFinalizer_of_mem h⟩
  · exact .inl (removeFinalizer_of_not_mem h)

end Object

/-! ### Where an object stands -/

namespace Lifecycle

variable {k : Kind} {o o' : Object k} {finalizer : String}

theorem of_cases (o : Object k) (finalizer : String) :
    (of o finalizer = .new ∧ finalizer ∉ o.finalizers ∧ o.isDeleted = false) ∨
      (of o finalizer = .active ∧ finalizer ∈ o.finalizers ∧ o.isDeleted = false) ∨
      (of o finalizer = .terminating ∧ finalizer ∈ o.finalizers ∧ o.isDeleted = true) ∨
      (of o finalizer = .gone ∧ finalizer ∉ o.finalizers ∧ o.isDeleted = true) := by
  unfold of
  by_cases hmem : finalizer ∈ o.finalizers <;> cases hdeleted : o.isDeleted <;> simp [hmem]

theorem of_eq_active :
    of o finalizer = .active ↔ finalizer ∈ o.finalizers ∧ o.isDeleted = false := by
  rcases of_cases o finalizer with h | h | h | h <;> simp [h]

theorem of_eq_gone : of o finalizer = .gone ↔ finalizer ∉ o.finalizers ∧ o.isDeleted = true := by
  rcases of_cases o finalizer with h | h | h | h <;> simp [h]

/-- Where an object stands is told by its finalizers and the mark of deletion. -/
theorem of_congr (hfinalizers : o'.finalizers = o.finalizers)
    (hdeleted : o'.isDeleted = o.isDeleted) : of o' finalizer = of o finalizer := by
  unfold of
  rw [hfinalizers, hdeleted]

end Lifecycle

/-! ### Amending -/

namespace amend

variable {ε : Type} {k : Kind}

/-- What holds after the write of an attempt, which is followed by another attempt if another writer
came first. -/
def unlessConflict (post : Except AccessError (Object k) → ε → Prop)
    (again : AccessError → ε → Prop) : Except AccessError (Object k) → ε → Prop
  | .ok o, e => post (.ok o) e
  | .error err, e => if err.isConflict then again err e else post (.error err) e

theorem unlessConflict_of {I : ε → Prop} {again : AccessError → ε → Prop}
    (hagain : ∀ err e, I e → again err e) (answer : Except AccessError (Object k)) {e : ε}
    (he : I e) : unlessConflict (fun _ e => I e) again answer e := by
  unfold unlessConflict
  cases answer with
  | ok o => exact he
  | error err =>
    simp only
    split
    · exact hagain err e he
    · exact he

/-- What an attempt to amend an object guarantees: it reads the object, looks at the clock, and
writes the change if there is one. -/
theorem wp_attempt {m : Meaning ε} {half : Half} {key : Key} {change : Change k}
    {onConflict : AccessError → Program (Except AccessError (Object k))}
    {post : Except AccessError (Object k) → ε → Prop} {e : ε} :
    (attempt half k key change onConflict).wp m post e =
      m (.get k key) (Attempt.unlessFailed post fun copy =>
        m .now fun now e =>
          if (change now copy).2 then
            (half.write (change now copy).1).outcome.wp m
              (unlessConflict post fun err e => (onConflict err).wp m post e) e
          else post (.ok (change now copy).1) e) e := by
  unfold attempt
  simp only [Program.wp_bind', Program.ask, Program.wp_step, Program.wp_done]
  refine congrArg (fun q => m (.get k key) q e) (funext fun answer => funext fun e => ?_)
  cases answer with
  | error err => rfl
  | ok copy =>
    simp only [Attempt.unlessFailed_ok, Program.wp_bind', Program.wp_step, Program.wp_done]
    refine congrArg (fun q => m .now q e) (funext fun now => funext fun e => ?_)
    cases hchanged : (change now copy).2 with
    | false => rfl
    | true =>
      simp only [Bool.not_true, Bool.false_eq_true, if_false, if_true, Program.wp_bind']
      refine congrArg (fun q => (half.write (change now copy).1).outcome.wp m q e)
        (funext fun r => funext fun e => ?_)
      cases r with
      | ok o => rfl
      | error err =>
        unfold unlessConflict
        simp only
        split <;> rfl

/-- What each attempt keeps, the whole amendment keeps. -/
theorem keeps {m : Meaning ε} (hm : m.Monotone) {half : Half} {key : Key} {change : Change k}
    {I : ε → Prop}
    (h : ∀ e, I e → m (.get k key) (Attempt.unlessFailed (fun _ : Except _ (Object k) => I)
      fun copy => m .now fun now e =>
        if (change now copy).2 then (half.write (change now copy).1).outcome.wp m (fun _ => I) e
        else I e) e) (attempts : Nat) :
    (amend half k key attempts change).Keeps m I := by
  have hattempt : ∀ onConflict : AccessError → Program (Except AccessError (Object k)),
      (∀ err, (onConflict err).Keeps m I) →
      (attempt half k key change onConflict).Keeps m I := by
    intro onConflict hconflict e he
    rw [wp_attempt]
    refine hm _ _ _ e (fun answer e hanswer => ?_) (h e he)
    cases answer with
    | error err => exact hanswer
    | ok copy =>
      refine hm _ _ _ e (fun now e hnow => ?_) hanswer
      split
      · next hchanged =>
        rw [if_pos hchanged] at hnow
        exact Program.wp_mono hm (fun r e he => unlessConflict_of hconflict r he) _ hnow
      · next hchanged =>
        rw [if_neg hchanged] at hnow
        exact hnow
  -- the loop is by the number of retries, and each of its rounds is an attempt
  unfold amend
  induction attempts - 1 with
  | zero => exact hattempt _ fun _ _ he => he
  | succ retries ih => exact hattempt _ fun _ => ih

/-- An amendment of the status keeps what its requests keep. -/
theorem keeps_status {m : Meaning ε} (hm : m.Monotone) {key : Key} {I : ε → Prop}
    (hget : (Program.ask (.get k key)).Keeps m I) (hnow : (Program.ask .now).Keeps m I)
    (hwrite : ∀ o : Object k, (Program.ask (.updateStatus k o)).Keeps m I) (change : Change k)
    (attempts : Nat) : (amend .status k key attempts change).Keeps m I := by
  have hstatus : ∀ o : Object k, (Half.status.write o).outcome.Keeps m I := hwrite
  exact (Program.closed_keeps hm I).amend hget hnow hstatus attempts

end amend

end ModelKeeper

import ModelKeeper.Proofs.Pass.Ticking.Model
import ModelKeeper.Proofs.Pass.Transitions

/-!
# Times of successes

A condition has room for the time when it last became a success.  The `Ready` condition of a
language model keeps this time while the model fails (`Condition.failed`).  The conditions of
prompts and of models are made anew whenever they are written (`Condition.now`), so they never tell
it: a pass leaves a condition as it is, or puts one in its place that bears no such time, whether it
is the case now or not and whatever time the one before bore (`Pass.success_times_dropped`).

So in a run that begins without any statuses no condition of a prompt or a model ever tells when it
was a success (`Pass.Course.undated`).
-/

namespace ModelKeeper

/-! ### What recordings leave -/

/-- Whether conditions are those of before, but for some that bear no time of a success. -/
def Conditions.Undated (cs cs' : Conditions) : Prop :=
  ∀ type, cs'.find? type = cs.find? type ∨ ∃ c, cs'.find? type = some c ∧ c.lastSuccess = none

namespace Conditions.Undated

variable {cs cs' : Conditions} {new : Condition}

theorem refl (cs : Conditions) : Undated cs cs := fun _ => .inl rfl

theorem set (h : Undated cs cs') (hnew : new.lastSuccess = none) : Undated cs (cs'.set new) := by
  intro type
  rw [find?_set]
  split
  · exact .inr ⟨new, rfl, hnew⟩
  · exact h type

end Conditions.Undated

namespace Pass

namespace Model

theorem undated_showAvailable (now : Instant) (s : ModelStatus) :
    s.conditions.Undated (showAvailable now s).conditions := by
  unfold showAvailable
  simp only
  split
  · exact .refl _
  · exact (Conditions.Undated.refl _).set rfl

theorem undated_clearFailure {cs : Conditions} {s : ModelStatus} (h : cs.Undated s.conditions)
    (now : Instant) : cs.Undated (clearFailure now s).conditions := by
  unfold clearFailure
  split
  · exact h.set rfl
  · exact h

end Model

/-- Whatever is recorded of a prompt or a model bears no time of a success. -/
theorem Worked.Records.undated {w : Worked} {o : Object w.kind} {change : Change w.kind}
    (h : w.Records o change) (hw : w ≠ .llm) (now : Instant) :
    (w.conditions o).Undated (w.conditions (change now o).1) := by
  -- what prompts and models put carries no time of a success
  cases h with
  | recordReady => exact absurd rfl hw
  | record outcome =>
    cases outcome with
    | ok bytes =>
      rw [Prompt.record_ok]
      exact (Conditions.Undated.refl _).set rfl
    | error message =>
      unfold Prompt.record
      simp only
      split
      · exact .refl _
      · exact (Conditions.Undated.refl _).set rfl
  | markProgressing =>
    unfold Model.markProgressing
    simp only
    split
    · exact .refl _
    · exact (Conditions.Undated.refl _).set rfl
  | markFailed message =>
    unfold Model.markFailed
    simp only
    split
    · exact .refl _
    · exact (Conditions.Undated.refl _).set rfl
  | @markAvailable o n =>
    exact Model.undated_clearFailure
      (Model.undated_showAvailable now (Model.showCounts n (o.status.getD {}))) now

/-! ### Passes -/

variable {σ : Type} {v : Vendors σ}

/-- What a pass leaves of the conditions of a prompt or a model. -/
theorem exists_undated {w j : Worked} (hj : j ≠ .llm) {settings : Settings} {home key : Key}
    {s : World σ × Nat} (hplaced : s.1.cluster.Placed) (clock : Nat → Instant) {o' : Object j.kind}
    (ho' : ((reconcile w settings key).run (World.ticking v clock) s).2.1.cluster.stored? j.kind
      home = some o') :
    ∃ o, s.1.cluster.stored? j.kind home = some o ∧
      (j.conditions o).Undated (j.conditions o') := by
  obtain ⟨o, ho, hconditions⟩ := exists_recording hplaced clock ho'
  refine ⟨o, ho, ?_⟩
  rcases hconditions with hsame | ⟨-, change, now, hrecords, hrecorded⟩
  · rw [hsame]
    exact .refl _
  · have hsettled : j.conditions o.settled = j.conditions o := Worked.conditions_congr rfl
    have hundated := hrecords.undated hj now
    rwa [hsettled, ← hrecorded] at hundated

/-- **Times of successes are dropped.**  Whatever a prompt or a model told before a pass over it, a
condition that the pass rewrites bears no time of a success: neither that of the pass, if the
condition has become the case, nor the one that the condition in its place bore. -/
theorem success_times_dropped {s : World σ} (hplaced : s.cluster.Placed) {w : Worked}
    (hw : w ≠ .llm) (settings : Settings) (key : Key) (clock : Nat → Instant) :
    let s' := ((reconcile w settings key).run (World.ticking v clock) (s, 0)).2.1
    ∀ o o' : Object w.kind, s.cluster.stored? w.kind key = some o →
      s'.cluster.stored? w.kind key = some o' → ∀ type,
        (w.conditions o').find? type ≠ (w.conditions o).find? type →
          ∃ c, (w.conditions o').find? type = some c ∧ c.lastSuccess = none := by
  intro s' o o' ho ho' type hrewritten
  obtain ⟨p, hp, hundated⟩ := exists_undated hw (s := (s, 0)) hplaced clock ho'
  obtain rfl := Option.some.inj (ho.symm.trans hp)
  exact (hundated type).resolve_left hrewritten

/-- A model that has been available before becomes available again, and a prompt that has been
answered before fails: neither condition tells of a success any more. -/
theorem success_times_dropped_again :
    let past : String := "1970-01-01T00:00:00Z"
    let model : Object .model :=
      { metadata :=
          { name := some Model.readyKey.name
            ns := some Model.readyKey.ns
            finalizers := some [Kind.model.finalizer] }
        spec := {}
        status := some
          { conditions := [{ type := .available, status := .isFalse, lastSuccess := some past }] } }
    let prompt : Object .prompt :=
      { undirectedPrompt Model.readyKey with
        status := some
          { conditions := [{ type := .done, status := .isTrue, lastSuccess := some past }] } }
    let s : World Unit :=
      { cluster := (Model.readyCluster model).store Model.readyKey prompt, vendors := () }
    let pass (w : Worked) : World Unit :=
      ((reconcile w {} Model.readyKey).run (World.ticking .unreachable fun _ => ⟨60, 0⟩) (s, 0)).2.1
    s.cluster.Placed ∧
      (∃ o c, (pass .model).cluster.stored? .model Model.readyKey = some o ∧
        (Worked.model.conditions o).find? .available = some c ∧ c.isTrue ∧ c.lastSuccess = none) ∧
      ∃ o c, (pass .prompt).cluster.stored? .prompt Model.readyKey = some o ∧
        (Worked.prompt.conditions o).find? .done = some c ∧ ¬ c.isTrue ∧ c.lastSuccess = none := by
  intro past model prompt s pass
  have hplaced : s.cluster.Placed := (Model.placed_readyCluster ⟨rfl, rfl⟩).store _ ⟨rfl, rfl⟩
  -- a condition that is the case now and was not before, or the other way, has been rewritten
  have hdropped {w : Worked} (hw : w ≠ .llm) {o : Object w.kind} (type : ConditionType) (b : Bool)
      (ho : s.cluster.stored? w.kind Model.readyKey = some o)
      (hbefore : ((w.conditions o).find? type).map (·.isTrue) ≠ some b)
      (hafter : ((pass w).cluster.stored? w.kind Model.readyKey).map
        (fun o' => ((w.conditions o').find? type).map (·.isTrue)) = some (some b)) :
      ∃ o' c, (pass w).cluster.stored? w.kind Model.readyKey = some o' ∧
        (w.conditions o').find? type = some c ∧ c.isTrue = b ∧ c.lastSuccess = none := by
    obtain ⟨o', ho', hstatus⟩ := Option.map_eq_some_iff.1 hafter
    have hrewritten : (w.conditions o').find? type ≠ (w.conditions o).find? type := fun heq =>
      hbefore (heq ▸ hstatus)
    obtain ⟨c, hc, hnone⟩ := success_times_dropped hplaced hw {} Model.readyKey
      (fun _ => ⟨60, 0⟩) o o' ho ho' type hrewritten
    rw [hc] at hstatus
    exact ⟨o', c, ho', hc, Option.some.inj hstatus, hnone⟩
  refine ⟨hplaced, ?_, ?_⟩
  · exact hdropped (w := .model) (o := model) nofun .available true (by decide +kernel) (by decide)
      (by decide +kernel)
  · obtain ⟨o, c, ho, hc, hfalse, hnone⟩ := hdropped (w := .prompt) (o := prompt) nofun .done false
      (by decide +kernel) (by decide) (by decide +kernel)
    exact ⟨o, c, ho, hc, ne_true_of_eq_false hfalse, hnone⟩

/-- In a run that begins without statuses no condition of a prompt or a model tells when it was a
success. -/
theorem Course.undated {s : World σ} (h : Course v s) {w : Worked} (hw : w ≠ .llm) {key : Key}
    {o : Object w.kind} (ho : s.cluster.stored? w.kind key = some o) {type : ConditionType}
    {c : Condition} (hc : (w.conditions o).find? type = some c) : c.lastSuccess = none := by
  induction h generalizing w key type c with
  | start hplaced hnone =>
    rw [Worked.conditions_of_none (hnone w key o ho)] at hc
    cases hc
  | pass w' settings key' clock hcourse ih =>
    obtain ⟨p, hp, hundated⟩ := exists_undated hw (s := (_, 0)) hcourse.orderly.placed clock ho
    -- the condition is the one from before the pass, or put by it without a time
    rcases hundated type with hsame | ⟨c', hc', hnone⟩
    · exact ih hw hp (hsame.symm.trans hc)
    · exact Option.some.inj (hc'.symm.trans hc) ▸ hnone
  | others op hcourse hop hproper hcluster ih =>
    rw [hcluster] at ho
    rcases status_of_sparesStatuses hop ho with hnone | ⟨p, hp, hsame⟩
    · rw [Worked.conditions_of_none hnone] at hc
      cases hc
    · rw [Worked.conditions_congr hsame] at hc
      exact ih hw hp hc

end Pass

end ModelKeeper

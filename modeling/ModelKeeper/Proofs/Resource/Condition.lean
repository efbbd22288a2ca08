import ModelKeeper.Resource.Condition

/-!
# Reading conditions back

What `Conditions.set` does to the conditions that are read (`Conditions.get_set`), and that the next
`Ready` condition stays the present one while the outcome stays the same
(`Condition.failed_failed`, `Condition.succeeded_succeeded`).
-/

namespace ModelKeeper

namespace Conditions

theorem find?_set (cs : Conditions) (new : Condition) (type : ConditionType) :
    (cs.set new).find? type = if new.type = type then some new else cs.find? type := by
  induction cs with
  | nil => by_cases h : new.type = type <;> simp [set, find?, h]
  | cons c cs ih =>
    unfold find? at ih ⊢
    unfold set
    by_cases hc : c.type = new.type
    · rw [if_pos hc]
      by_cases h : new.type = type <;> simp [h, hc]
    · rw [if_neg hc, List.find?_cons, ih, List.find?_cons]
      by_cases h : new.type = type
      · have hct : c.type ≠ type := fun h' => hc (h'.trans h.symm)
        simp [h, hct]
      · simp [h]

theorem get_set (cs : Conditions) (new : Condition) (type : ConditionType) :
    (cs.set new).get type = if new.type = type then new else cs.get type := by
  unfold get
  rw [find?_set]
  split <;> rfl

theorem has_set (cs : Conditions) (new : Condition) (type : ConditionType) :
    (cs.set new).has type = (decide (new.type = type) || cs.has type) := by
  unfold has
  rw [find?_set]
  by_cases h : new.type = type <;> simp [h]

/-- A condition that is not blank is one of its type. -/
theorem get_type {cs : Conditions} {type : ConditionType} (h : (cs.get type).status ≠ .unknown) :
    (cs.get type).type = type := by
  unfold get at h ⊢
  cases hfind : cs.find? type with
  | none => simp [hfind] at h
  | some c => simpa using List.find?_some hfind

/-- A fact that is the case is among the conditions. -/
theorem has_of_isTrue {cs : Conditions} {type : ConditionType} (h : (cs.get type).isTrue = true) :
    cs.has type = true := by
  unfold get at h
  unfold has
  cases hfind : cs.find? type with
  | none => simp [hfind, Condition.isTrue] at h
  | some c => rfl

end Conditions

namespace Condition

variable (c : Condition) (message : String) (time time' : Instant)

theorem failed_type : (c.failed message time).type = .ready := by
  unfold failed
  split
  · next h => exact h.1
  · rfl

theorem succeeded_type : (c.succeeded message time).type = .ready := by
  unfold succeeded
  split
  · next h => exact h.1
  · rfl

theorem succeeded_isTrue : (c.succeeded message time).isTrue = true := by
  unfold succeeded isTrue
  split
  · next h => simp [h.2.1]
  · simp

theorem failed_failed : (c.failed message time).failed message time' = c.failed message time := by
  have h : (c.failed message time).type = .ready ∧ (c.failed message time).status = .isFalse ∧
      (c.failed message time).message = message := by
    unfold failed
    split
    · next h => exact h
    · exact ⟨rfl, rfl, rfl⟩
  exact if_pos h

theorem succeeded_succeeded :
    (c.succeeded message time).succeeded message time' = c.succeeded message time := by
  have h : (c.succeeded message time).type = .ready ∧
      (c.succeeded message time).status = .isTrue ∧
      (c.succeeded message time).reason = Reason.available ∧
      (c.succeeded message time).message = message := by
    unfold succeeded
    split
    · next h => exact h
    · exact ⟨rfl, rfl, rfl, rfl⟩
  exact if_pos h

end Condition

end ModelKeeper

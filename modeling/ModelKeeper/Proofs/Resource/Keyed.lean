import Mathlib.Data.List.Nodup
import ModelKeeper.Proofs.Resource.Condition

/-!
# Conditions as a map from types

Conditions that are set one after the other (`Conditions.setAll`) are a map whose keys are the
types, in the order in which they came up first.  This holds of any conditions to begin with, also
of some that have a type more than once: of these the first one counts, and the others stay where
they are.  `Conditions.keyed_by_type` puts together what can be read (`find?_setAll`), where the
types stand (`types_setAll`) and when the order of setting does not matter (`set_comm`).
-/

namespace ModelKeeper.Conditions

/-- The types of conditions, in their order. -/
def types (cs : Conditions) : List ConditionType := cs.map (·.type)

/-- The conditions after others have been set in turn. -/
def setAll (cs : Conditions) (news : List Condition) : Conditions :=
  news.foldl (fun cs new => cs.set new) cs

variable {cs : Conditions} {new : Condition}

@[simp]
theorem types_cons (c : Condition) (cs : Conditions) : types (c :: cs) = c.type :: cs.types := rfl

@[simp]
theorem setAll_cons (cs : Conditions) (new : Condition) (news : List Condition) :
    cs.setAll (new :: news) = (cs.set new).setAll news := rfl

/-- A condition of another type than the first one is set behind it. -/
theorem set_cons_of_ne {c : Condition} (h : c.type ≠ new.type) (cs : Conditions) :
    set new (c :: cs) = c :: set new cs := if_neg h

/-- A condition of the type of the first one takes its place. -/
theorem set_cons_of_eq {c : Condition} (h : c.type = new.type) (cs : Conditions) :
    set new (c :: cs) = new :: cs := if_pos h

/-! ### What is read -/

theorem find?_eq_head? (cs : Conditions) (type : ConditionType) :
    cs.find? type = (cs.filter fun c => c.type = type).head? :=
  List.head?_filter.symm

/-- The last condition that has been set counts, and before one has been set the first one. -/
theorem find?_setAll (cs : Conditions) (news : List Condition) (type : ConditionType) :
    (cs.setAll news).find? type =
      (news.filter fun c => c.type = type).getLast?.or (cs.find? type) := by
  induction news generalizing cs with
  | nil => rfl
  | cons new news ih =>
    rw [setAll_cons, ih, find?_set, List.filter_cons]
    by_cases h : new.type = type
    · rw [if_pos h, if_pos (decide_eq_true h), List.getLast?_cons]
      cases (news.filter fun c => c.type = type).getLast? <;> rfl
    · rw [if_neg h, if_neg (by simpa using h)]

/-! ### Where the types stand -/

theorem types_set (cs : Conditions) (new : Condition) :
    (cs.set new).types = if new.type ∈ cs.types then cs.types else cs.types ++ [new.type] := by
  induction cs with
  | nil => rfl
  | cons c cs ih =>
    by_cases hc : c.type = new.type
    · rw [set_cons_of_eq hc, types_cons, types_cons, hc, if_pos List.mem_cons_self]
    · have hmem : new.type ∈ c.type :: types cs ↔ new.type ∈ types cs := by
        simp [Ne.symm hc]
      rw [set_cons_of_ne hc, types_cons, ih, types_cons]
      split
      · next hold => rw [if_pos (hmem.2 hold)]
      · next hnew => rw [if_neg fun h => hnew (hmem.1 h), List.cons_append]

/-- The types keep their places, and those that are new follow in the order in which they have been
set first. -/
theorem types_setAll (cs : Conditions) (news : List Condition) :
    (cs.setAll news).types =
      cs.types ++ ((news.map (·.type)).filter fun type => type ∉ cs.types).eraseDups := by
  induction news generalizing cs with
  | nil => exact (List.append_nil _).symm
  | cons new news ih =>
    rw [setAll_cons, ih, types_set, List.map_cons, List.filter_cons]
    by_cases h : new.type ∈ cs.types
    · simp only [h, if_true, not_true_eq_false, decide_false, Bool.false_eq_true, if_false]
    · -- the others that are new are those of a type that neither was there nor is the first new one
      have hothers : (news.map (·.type)).filter (fun type => type ∉ cs.types ++ [new.type]) =
          ((news.map (·.type)).filter fun type => type ∉ cs.types).filter
            fun type => !type == new.type := by
        rw [List.filter_filter]
        refine List.filter_congr fun type _ => ?_
        by_cases heq : type = new.type <;> simp [heq]
      simp only [h, if_false, not_false_eq_true, decide_true, if_true, List.eraseDups_cons, hothers,
        List.append_assoc, List.singleton_append]

theorem nodup_types_set (h : cs.types.Nodup) : (cs.set new).types.Nodup := by
  rw [types_set]
  split
  · exact h
  · next hnew => exact List.nodup_append.2 ⟨h, List.nodup_singleton _, by grind⟩

theorem nodup_types_setAll (h : cs.types.Nodup) (news : List Condition) :
    (cs.setAll news).types.Nodup := by
  induction news generalizing cs with
  | nil => exact h
  | cons new news ih => exact ih (nodup_types_set h)

/-! ### The order of setting -/

theorem set_comm {a b : Condition} (hne : a.type ≠ b.type) (ha : a.type ∈ cs.types)
    (hb : b.type ∈ cs.types) : (cs.set a).set b = (cs.set b).set a := by
  induction cs with
  | nil => cases ha
  | cons c cs ih =>
    rw [types_cons, List.mem_cons] at ha hb
    -- both types are there, so each is set in its own place
    by_cases hca : c.type = a.type
    · have hcb : c.type ≠ b.type := fun h => hne (hca.symm.trans h)
      rw [set_cons_of_eq hca, set_cons_of_ne hne, set_cons_of_ne hcb, set_cons_of_eq hca]
    · have ha := ha.resolve_left (Ne.symm hca)
      by_cases hcb : c.type = b.type
      · rw [set_cons_of_eq hcb, set_cons_of_ne hne.symm, set_cons_of_ne hca, set_cons_of_eq hcb]
      · have hb := hb.resolve_left (Ne.symm hcb)
        rw [set_cons_of_ne hca, set_cons_of_ne hcb, set_cons_of_ne hcb, set_cons_of_ne hca,
          ih ha hb]

/-! ### The map -/

/-- **Conditions are a map from types.**  After any conditions have been set in turn, beginning with
any conditions whatever:

* of each type the last condition that has been set is read, or else the first one that was there
  to begin with, or else a blank one;
* to set one more changes nothing that is read of other types;
* the types that were there keep their places, and new ones follow in the order in which they have
  been set first;
* no type comes up twice unless one did at the beginning;
* conditions of two types that are there can be set in either order. -/
theorem keyed_by_type (cs : Conditions) (news : List Condition) :
    (∀ type, (cs.setAll news).get type =
      ((news.filter fun c => c.type = type).getLast?.or
        (cs.filter fun c => c.type = type).head?).getD {}) ∧
    (∀ new type, type ≠ new.type →
      ((cs.setAll news).set new).get type = (cs.setAll news).get type) ∧
    (cs.setAll news).map (·.type) = cs.map (·.type) ++
      ((news.map (·.type)).filter fun type => type ∉ cs.map (·.type)).eraseDups ∧
    ((cs.map (·.type)).Nodup → ((cs.setAll news).map (·.type)).Nodup) ∧
    ∀ a b, a.type ≠ b.type → a.type ∈ (cs.setAll news).map (·.type) →
      b.type ∈ (cs.setAll news).map (·.type) →
      ((cs.setAll news).set a).set b = ((cs.setAll news).set b).set a := by
  refine ⟨fun type => ?_, fun new type hne => ?_, types_setAll cs news,
    fun h => nodup_types_setAll h news, fun a b hne ha hb => set_comm hne ha hb⟩
  · rw [get, find?_setAll, find?_eq_head?]
  · rw [get_set, if_neg hne.symm]

/-- A list that has `Ready` twice, in which `Ready` and `Done` are set and then change places. -/
theorem keyed_by_type_repeated :
    let ready (message : String) : Condition := { type := .ready, message }
    let done : Condition := { type := .done }
    let cs : Conditions := [ready "first", ready "second"]
    let cs' := cs.setAll [done, ready "third"]
    cs' = [ready "third", ready "second", done] ∧ cs'.get .ready = ready "third" ∧
      (cs'.set { done with message := "later" }).get .ready = cs'.get .ready ∧
      ((Conditions.setAll [] [done, done]).map (·.type)).Nodup ∧
      (cs'.set done).set (ready "last") = (cs'.set (ready "last")).set done := by
  intro ready done cs cs'
  obtain ⟨hget, hothers, -, -, hcomm⟩ := keyed_by_type cs [done, ready "third"]
  obtain ⟨-, -, -, hnodup, -⟩ := keyed_by_type [] [done, done]
  exact ⟨by decide, hget .ready, hothers _ .ready (by decide), hnodup (by decide),
    hcomm done (ready "last") (by decide) (by decide) (by decide)⟩

end ModelKeeper.Conditions

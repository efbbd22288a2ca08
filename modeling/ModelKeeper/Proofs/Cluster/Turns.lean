import ModelKeeper.Proofs.Cluster.Runs

/-!
# What becomes of one object

The operations that clients have (`Cluster.Operation.Regular`) reach one object each, and do one of
five things to it (`Cluster.Operation.Turns`): they make it, write one half of it, mark it for
deletion, or remove it, by an update or on request.  What a run of such operations does to an
object follows from `Cluster.Operation.turns` alone.
-/

namespace ModelKeeper

/-- An object has one place only. -/
theorem Object.IsAt.unique {k : Kind} {o : Object k} {key key' : Key} (h : o.IsAt key)
    (h' : o.IsAt key') : key = key' := h.own.symm.trans h'.own

namespace Cluster

/-- A write that is not refused has gone through. -/
theorem Operation.put_of_answer {half : Half} {k : Kind} {o : Object k} {c : Cluster}
    {m : Option Metadata} (h : (Operation.put half o).answer c = .ok m) :
    ∃ key stored, o.IsAt key ∧ c.stored? k key = some stored ∧
      (Operation.put half o).apply c =
        c.nextVersion.putBack half key (half.replaced stored o c.nextVersion.versionText) := by
  simp only [answer, apply] at h ⊢
  cases hkey : o.requireKey with
  | error e => simp [Half.put_incomplete half c hkey, Except.map] at h
  | ok key =>
    have hplace := Object.IsAt.of_requireKey hkey
    -- only an accepted write returns metadata
    cases hput : half.put c o with
    | mk result c' =>
      cases result with
      | error e => simp [hput, Except.map] at h
      | ok a =>
        obtain ⟨stored, hs, -, -, rfl⟩ := Half.put_ok hplace hput
        exact ⟨key, stored, hplace, hs, rfl⟩

/-- Whether an operation is one of those that clients have, or makes these fail.  Nothing is put
into the cluster as it is. -/
def Operation.Regular : Operation → Prop
  | .insert _ | .modify _ _ _ => False
  | .create _ | .put _ _ | .delete _ _ _ | .injectConflicts _ => True

/-- What a request for deletion makes of an object that has finalizers. -/
def marked {k : Kind} (c : Cluster) (stored : Object k) (now : Instant) : Object k :=
  { stored with
    metadata := { stored.metadata with
      deletion := some now.stamp
      version := some c.nextVersion.versionText } }

/-- What an operation on `c` makes of what is under a key. -/
inductive Operation.Turns (op : Operation) (c : Cluster) {k : Kind} (key : Key) :
    Option (Object k) → Option (Object k) → Prop
  /-- No write of the object goes through, and a request for deletion is not the first one. -/
  | same (found : Option (Object k)) :
    (∀ half (o : Object k) m, op = .put half o → o.IsAt key → op.answer c ≠ .ok m) →
    (∀ now stored, op = .delete k key now → found = some stored →
      stored.isDeleted ∧ stored.finalizers ≠ []) →
    Turns op c key found found
  | made (o : Object k) :
    op = .create o → o.IsAt key → (op.apply c).version = c.version + 1 →
    Turns op c key none (some (c.created o))
  | written {half : Half} {stored : Object k} (o : Object k) {m : Option Metadata} :
    op = .put half o → o.IsAt key → op.answer c = .ok m →
    ¬ (half = .body ∧ (merged stored o c.nextVersion.versionText).isDeleted ∧
      o.finalizers = []) →
    Turns op c key (some stored) (some (half.replaced stored o c.nextVersion.versionText))
  | released {stored : Object k} (o : Object k) {m : Option Metadata} :
    op = .put .body o → o.IsAt key → op.answer c = .ok m →
    (merged stored o c.nextVersion.versionText).isDeleted → o.finalizers = [] →
    Turns op c key (some stored) none
  | removed {stored : Object k} (now : Instant) :
    op = .delete k key now → stored.finalizers = [] → Turns op c key (some stored) none
  | marked {stored : Object k} (now : Instant) :
    op = .delete k key now → stored.finalizers ≠ [] → stored.isDeleted = false →
    Turns op c key (some stored) (some (c.marked stored now))

section

variable (c : Cluster) {j k : Kind} {key : Key}

theorem turns_create (o : Object j) :
    (Operation.create o).Turns c key (c.stored? k key)
      (((Operation.create o).apply c).stored? k key) := by
  have hput : ∀ half (p : Object k) m, Operation.create o = .put half p → p.IsAt key →
      (Operation.create o).answer c ≠ .ok m := by
    intro half p m heq
    cases heq
  have hdelete : ∀ now stored, Operation.create o = .delete k key now →
      c.stored? k key = some stored → stored.isDeleted ∧ stored.finalizers ≠ [] := by
    intro now stored heq
    cases heq
  cases hkey : o.requireKey with
  | error e =>
    rw [Operation.apply, show c.create o = (.error e, c) by simp [create, hkey]]
    exact .same _ hput hdelete
  | ok home =>
    have hplace := Object.IsAt.of_requireKey hkey
    cases hs : c.stored? j home with
    | some stored =>
      rw [Operation.apply, create_present hplace hs]
      exact .same _ hput hdelete
    | none =>
      have hcreate := create_absent hplace hs
      by_cases hhome : k = j ∧ key = home
      · -- the object that has just been made
        obtain ⟨rfl, rfl⟩ := hhome
        rw [hs, Operation.apply, hcreate, stored?_store_self]
        exact .made o rfl hplace (by rw [Operation.apply, hcreate]; rfl)
      · rw [Operation.apply, hcreate, stored?_store_of_ne hhome, stored?_nextVersion]
        exact .same _ hput hdelete

theorem turns_put (half : Half) (o : Object j) :
    (Operation.put half o).Turns c key (c.stored? k key)
      (((Operation.put half o).apply c).stored? k key) := by
  have hdelete : ∀ now stored, Operation.put half o = .delete k key now →
      c.stored? k key = some stored → stored.isDeleted ∧ stored.finalizers ≠ [] := by
    intro now stored heq
    cases heq
  cases hanswer : (Operation.put half o).answer c with
  | error e =>
    have houtcome := (Operation.put half o).outcome c
    rw [hanswer] at houtcome
    have hsame : ((Operation.put half o).apply c).stored? k key = c.stored? k key := by
      unfold stored?
      rw [houtcome.of_error.1]
    rw [hsame]
    refine .same _ (fun _ _ _ _ _ hok => ?_) hdelete
    cases hanswer.symm.trans hok
  | ok m =>
    obtain ⟨home, stored, hplace, hs, hafter⟩ := Operation.put_of_answer hanswer
    by_cases hhome : k = j ∧ key = home
    · -- the object that the write is about
      obtain ⟨rfl, rfl⟩ := hhome
      rw [hs, hafter, stored?_putBack_self]
      split
      · next hgone =>
        obtain ⟨rfl, hdeleted, hfinalizers⟩ := hgone
        exact .released o rfl hplace hanswer hdeleted hfinalizers
      · next hkept =>
        refine .written o rfl hplace hanswer fun hgone => hkept ?_
        obtain ⟨rfl, hdeleted, hfinalizers⟩ := hgone
        exact ⟨rfl, hdeleted, hfinalizers⟩
    · -- another object has been written
      rw [hafter, sameBut_putBack c.nextVersion half home _ k key hhome, stored?_nextVersion]
      refine .same _ (fun half' p m' heq hplace' _ => ?_) hdelete
      cases heq
      exact hhome ⟨rfl, hplace'.unique hplace⟩

theorem sameBut_delete (home : Key) (now : Instant) :
    c.SameBut j home (c.delete j home now).2 := by
  intro i key' hne
  unfold delete
  cases c.stored? j home with
  | none => rfl
  | some stored =>
    simp only
    split
    · exact stored?_remove_of_ne hne c
    · split
      · rfl
      · rw [stored?_store_of_ne hne, stored?_nextVersion]

theorem turns_delete (home : Key) (now : Instant) :
    (Operation.delete j home now).Turns c key (c.stored? k key)
      (((Operation.delete j home now).apply c).stored? k key) := by
  have hput : ∀ half (p : Object k) m, Operation.delete j home now = .put half p → p.IsAt key →
      (Operation.delete j home now).answer c ≠ .ok m := by
    intro half p m heq
    cases heq
  rw [Operation.apply]
  by_cases hhome : k = j ∧ key = home
  · obtain ⟨rfl, rfl⟩ := hhome
    unfold delete
    cases hs : c.stored? k key with
    | none =>
      rw [hs]
      refine .same _ hput fun _ _ _ hsome => ?_
      cases hsome
    | some stored =>
      simp only
      split
      · next hfinalizers =>
        rw [stored?_remove_self]
        exact .removed now rfl (List.isEmpty_iff.1 hfinalizers)
      · next hfinalizers =>
        split
        · next hdeleted =>
          rw [hs]
          refine .same _ hput fun _ found _ heq => ?_
          obtain rfl := Option.some.inj heq
          exact ⟨hdeleted, fun h => hfinalizers (List.isEmpty_iff.2 h)⟩
        · next hdeleted =>
          rw [stored?_store_self]
          exact .marked now rfl (fun h => hfinalizers (List.isEmpty_iff.2 h))
            (Bool.eq_false_iff.2 hdeleted)
  · -- another object is meant
    rw [sameBut_delete c home now k key hhome]
    refine .same _ hput fun _ _ heq _ => ?_
    cases heq
    exact absurd ⟨rfl, rfl⟩ hhome

/-- What becomes of an object in one operation. -/
theorem Operation.turns {op : Operation} (hop : op.Regular) :
    op.Turns c key (c.stored? k key) ((op.apply c).stored? k key) := by
  cases op with
  | insert | modify => cases hop
  | create o => exact turns_create c o
  | put half o => exact turns_put c half o
  | delete j home now => exact turns_delete c home now
  | injectConflicts count =>
    refine .same _ (fun _ _ _ heq => ?_) (fun _ _ heq => ?_) <;> cases heq

end

end Cluster

end ModelKeeper

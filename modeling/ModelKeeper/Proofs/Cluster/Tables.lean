import ModelKeeper.Proofs.Cluster.Objects

/-!
# Operations and the objects of other kinds

An operation on objects of one kind neither reads nor changes the objects of another: with another
table for that kind it gives the same answer, and the cluster after it is the same with that table
(`Cluster.create_setTable`, `Cluster.checkVersion_setTable`, …).
-/

namespace ModelKeeper.Cluster

variable {j k : Kind} (c : Cluster) (t : Table j)

@[simp]
theorem tables_setTable_self : (c.setTable j t).tables j = t := by
  simp [setTable]

theorem setTable_tables (j : Kind) : c.setTable j (c.tables j) = c := by
  have htables : (c.setTable j (c.tables j)).tables = c.tables := by
    funext i
    unfold setTable
    by_cases h : i = j
    · subst h
      simp
    · simp [h]
  cases c
  exact congrArg (fun tables => (⟨tables, _, _⟩ : Cluster)) htables

/-- Two tables of different kinds are put in place in any order. -/
theorem setTable_comm (hk : k ≠ j) (u : Table k) :
    (c.setTable j t).setTable k u = (c.setTable k u).setTable j t := by
  have htables : ((c.setTable j t).setTable k u).tables =
      ((c.setTable k u).setTable j t).tables := by
    funext i
    simp only [setTable]
    by_cases hi : i = k
    · subst hi
      simp [hk]
    · simp [hi]
  exact congrArg (fun tables => (⟨tables, c.version, c.injectedConflicts⟩ : Cluster)) htables

section

variable (hk : k ≠ j)
include hk

theorem tables_setTable_of_ne : (c.setTable j t).tables k = c.tables k := by
  simp [setTable, hk]

theorem stored?_setTable_of_ne (key : Key) :
    (c.setTable j t).stored? k key = c.stored? k key := by
  unfold stored?
  rw [tables_setTable_of_ne c t hk]

theorem get_setTable (key : Key) : (c.setTable j t).get k key = c.get k key := by
  unfold get
  rw [stored?_setTable_of_ne c t hk]

theorem store_setTable (key : Key) (o : Object k) :
    (c.setTable j t).store key o = (c.store key o).setTable j t := by
  unfold store
  rw [tables_setTable_of_ne c t hk, setTable_comm c t hk]

theorem remove_setTable (key : Key) :
    (c.setTable j t).remove k key = (c.remove k key).setTable j t := by
  unfold remove
  rw [tables_setTable_of_ne c t hk, setTable_comm c t hk]

theorem create_setTable (o : Object k) :
    (c.setTable j t).create o = ((c.create o).1, (c.create o).2.setTable j t) := by
  cases hkey : o.requireKey with
  | error e => simp only [create, hkey]
  | ok key =>
    have hplace := Object.IsAt.of_requireKey hkey
    have hsame := stored?_setTable_of_ne c t hk key
    cases hs : c.stored? k key with
    | none =>
      rw [create_absent hplace hs, create_absent hplace (hsame.trans hs)]
      exact congrArg (Prod.mk _) (store_setTable c.nextVersion t hk key _)
    | some stored => rw [create_present hplace hs, create_present hplace (hsame.trans hs)]

theorem checkVersion_setTable (key : Key) (o : Object k) :
    (c.setTable j t).checkVersion key o =
      ((c.checkVersion key o).1, (c.checkVersion key o).2.setTable j t) := by
  unfold checkVersion
  rw [stored?_setTable_of_ne c t hk]
  cases c.stored? k key with
  | none => rfl
  | some stored =>
    have hinjected : (c.setTable j t).injectedConflicts = c.injectedConflicts := rfl
    simp only [hinjected]
    split
    · rfl
    · split <;> rfl

theorem update_setTable (o : Object k) :
    (c.setTable j t).update o = ((c.update o).1, (c.update o).2.setTable j t) := by
  unfold update
  cases o.requireKey with
  | error e => rfl
  | ok key =>
    simp only [checkVersion_setTable c t hk]
    -- the check does not see the other table, so both runs go the same way
    generalize c.checkVersion key o = found
    obtain ⟨stored | stored, c⟩ := found
    · rfl
    · have hversion : (c.setTable j t).nextVersion = c.nextVersion.setTable j t := rfl
      have htext : (c.nextVersion.setTable j t).versionText = c.nextVersion.versionText := rfl
      simp only [hversion, htext]
      split
      · rw [remove_setTable c.nextVersion t hk]
      · rw [store_setTable c.nextVersion t hk]

theorem updateStatus_setTable (o : Object k) :
    (c.setTable j t).updateStatus o =
      ((c.updateStatus o).1, (c.updateStatus o).2.setTable j t) := by
  unfold updateStatus
  cases o.requireKey with
  | error e => rfl
  | ok key =>
    simp only [checkVersion_setTable c t hk]
    generalize c.checkVersion key o = found
    obtain ⟨stored | stored, c⟩ := found
    · rfl
    · exact congrArg (Prod.mk _) (store_setTable c.nextVersion t hk key _)

theorem delete_setTable (key : Key) (now : Instant) :
    (c.setTable j t).delete k key now =
      ((c.delete k key now).1, (c.delete k key now).2.setTable j t) := by
  unfold delete
  rw [stored?_setTable_of_ne c t hk]
  cases c.stored? k key with
  | none => rfl
  | some stored =>
    simp only
    split
    · rw [remove_setTable c t hk]
    · split
      · rfl
      · exact congrArg (Prod.mk _) (store_setTable c.nextVersion t hk key _)

end

end ModelKeeper.Cluster

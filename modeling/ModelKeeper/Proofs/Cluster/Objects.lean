import ModelKeeper.Cluster.Basic
import ModelKeeper.Operator.Amend

/-!
# What the writes of a cluster do

Reading back after `store` and `remove` (`stored?_store`, `stored?_remove`), and one equation for
each outcome of a write.  The two writes, of the body and of the status, are treated as one:
`Half.put` is the operation, `Half.replaced` the object that it makes of the stored one and the
incoming one, and `Cluster.putBack` stores this or, where nothing holds it any more, removes it.

* `Half.put_incomplete`, `Half.put_absent`, `Half.put_injected`, `Half.put_stale`: the write is
  refused.
* `Half.put_fresh`: the write carries the stored version and goes through.
* `Half.put_ok`, `Half.put_error`: what follows from the answer.
* `Half.stored?_put`: what has become of an object that was there.
-/

namespace ModelKeeper

variable {k : Kind}

/-- Whether the object names this key as its own. -/
structure Object.IsAt (o : Object k) (key : Key) : Prop where
  ns : o.metadata.ns = some key.ns
  name : o.metadata.name = some key.name

namespace Object.IsAt

variable {o : Object k} {key : Key}

theorem requireKey (h : o.IsAt key) : o.requireKey = .ok key := by
  simp [Object.requireKey, h.ns, h.name]

theorem of_requireKey (h : o.requireKey = .ok key) : o.IsAt key := by
  unfold Object.requireKey at h
  split at h
  · cases h
  · cases h
  · next hns hname =>
    cases h
    exact ⟨hns, hname⟩

/-- The key that an object at home is asked for under is its own. -/
theorem own (h : o.IsAt key) : (⟨o.nsOrEmpty, o.nameOrEmpty⟩ : Key) = key := by
  simp [nsOrEmpty, nameOrEmpty, h.ns, h.name]

theorem settled (h : o.IsAt key) : o.settled.IsAt key := ⟨h.ns, h.name⟩

end Object.IsAt

@[simp]
theorem Object.settled_metadata (o : Object k) : o.settled.metadata = o.metadata := rfl

@[simp]
theorem Object.settled_status (o : Object k) : o.settled.status = o.status := rfl

@[simp]
theorem Object.settled_finalizers (o : Object k) : o.settled.finalizers = o.finalizers := rfl

@[simp]
theorem Object.settled_isDeleted (o : Object k) : o.settled.isDeleted = o.isDeleted := rfl

@[simp]
theorem Object.withFinalizers_finalizers (o : Object k) (fs : List String) :
    (o.withFinalizers fs).finalizers = fs := rfl

namespace Cluster

variable {c : Cluster} {key key' : Key} {j : Kind}

/-! ### Reading back -/

@[simp]
theorem stored?_store_self (c : Cluster) (key : Key) (o : Object k) :
    (c.store key o).stored? k key = some o := by
  simp [stored?, store, setTable, SortedMap.get?_insert]

theorem stored?_store_of_ne (h : ¬ (j = k ∧ key' = key)) (c : Cluster) (o : Object k) :
    (c.store key o).stored? j key' = c.stored? j key' := by
  unfold stored? store setTable
  by_cases hj : j = k
  · subst hj
    simp only [↓reduceDIte, SortedMap.get?_insert]
    rw [if_neg (fun hkey => h ⟨rfl, hkey⟩)]
  · simp only [dif_neg hj]

@[simp]
theorem stored?_remove_self (c : Cluster) (k : Kind) (key : Key) :
    (c.remove k key).stored? k key = none := by
  simp [stored?, remove, setTable, SortedMap.get?_erase]

theorem stored?_remove_of_ne (h : ¬ (j = k ∧ key' = key)) (c : Cluster) :
    (c.remove k key).stored? j key' = c.stored? j key' := by
  unfold stored? remove setTable
  by_cases hj : j = k
  · subst hj
    simp only [↓reduceDIte, SortedMap.get?_erase]
    rw [if_neg (fun hkey => h ⟨rfl, hkey⟩)]
  · simp only [dif_neg hj]

@[simp]
theorem stored?_nextVersion (c : Cluster) (k : Kind) (key : Key) :
    c.nextVersion.stored? k key = c.stored? k key := rfl

theorem get_of_stored {o : Object k} (h : c.stored? k key = some o) :
    c.get k key = .ok o.settled := by
  simp [get, h]

/-- What is read is stored, and comes back settled. -/
theorem stored_of_get {copy : Object k} (h : c.get k key = .ok copy) :
    ∃ o, c.stored? k key = some o ∧ o.settled = copy := by
  unfold get at h
  split at h
  · next o ho => exact ⟨o, ho, Except.ok.inj h⟩
  · cases h

/-- Whether two clusters have the same objects but for the one under a key. -/
def SameBut (k : Kind) (key : Key) (c c' : Cluster) : Prop :=
  ∀ j key', ¬ (j = k ∧ key' = key) → c'.stored? j key' = c.stored? j key'

theorem SameBut.refl (k : Kind) (key : Key) (c : Cluster) : c.SameBut k key c := fun _ _ _ => rfl

theorem SameBut.trans {c' c'' : Cluster} (h : c.SameBut k key c') (h' : c'.SameBut k key c'') :
    c.SameBut k key c'' := fun j key' hne => (h' j key' hne).trans (h j key' hne)

/-- The objects of other kinds are the same. -/
theorem SameBut.other {c' : Cluster} (h : c.SameBut k key c') (hne : j ≠ k) (key' : Key) :
    c'.stored? j key' = c.stored? j key' :=
  h j key' fun hboth => hne hboth.1

/-! ### Versions -/

/-- Different numbers make different versions. -/
theorem versionText_inj {n m : Nat} (h : toString n = toString m) : n = m := by
  have hdigits : Nat.toDigits 10 n = Nat.toDigits 10 m := by
    rw [← Nat.toList_repr, ← Nat.toList_repr]
    exact congrArg String.toList h
  calc n = Nat.ofDigitChars 10 (Nat.toDigits 10 n) 0 := Nat.ofDigitChars_ten_toDigits.symm
    _ = Nat.ofDigitChars 10 (Nat.toDigits 10 m) 0 := by rw [hdigits]
    _ = m := Nat.ofDigitChars_ten_toDigits

/-- Every object is stored under its own namespace and name. -/
def Placed (c : Cluster) : Prop :=
  ∀ k key (o : Object k), c.stored? k key = some o → o.IsAt key

theorem placed_empty : empty.Placed := fun _ _ _ h => nomatch h

theorem Placed.store (h : c.Placed) (key : Key) {o : Object k} (ho : o.IsAt key) :
    (c.store key o).Placed := by
  intro j key' p hp
  by_cases hjk : j = k ∧ key' = key
  · obtain ⟨rfl, rfl⟩ := hjk
    rw [stored?_store_self] at hp
    exact Option.some.inj hp ▸ ho
  · rw [stored?_store_of_ne hjk] at hp
    exact h j key' p hp

/-- Every object carries a version that has been given out. -/
def Versioned (c : Cluster) : Prop :=
  ∀ k key (o : Object k), c.stored? k key = some o →
    ∃ n ≤ c.version, o.metadata.version = some (toString n)

theorem versioned_empty : empty.Versioned := fun _ _ _ h => nomatch h

/-- Every object carries a generation. -/
def Numbered (c : Cluster) : Prop :=
  ∀ k key (o : Object k), c.stored? k key = some o → o.metadata.generation.isSome

theorem numbered_empty : empty.Numbered := fun _ _ _ h => nomatch h

theorem Numbered.store (h : c.Numbered) (key : Key) {o : Object k}
    (ho : o.metadata.generation.isSome) :
    (c.store key o).Numbered := by
  intro j key' p hp
  by_cases hjk : j = k ∧ key' = key
  · obtain ⟨rfl, rfl⟩ := hjk
    rw [stored?_store_self] at hp
    exact Option.some.inj hp ▸ ho
  · rw [stored?_store_of_ne hjk] at hp
    exact h j key' p hp

/-- The cluster after a write of this half has led to the object `o`: an update removes an object
that is marked for deletion and has no finalizers. -/
def putBack (c : Cluster) (half : Half) (key : Key) (o : Object k) : Cluster :=
  if half = .body ∧ o.isDeleted ∧ o.finalizers = [] then c.remove k key else c.store key o

theorem putBack_status (c : Cluster) (key : Key) (o : Object k) :
    c.putBack .status key o = c.store key o := if_neg (by simp)

theorem stored?_putBack_self (c : Cluster) (half : Half) (key : Key) (o : Object k) :
    (c.putBack half key o).stored? k key =
      if half = .body ∧ o.isDeleted ∧ o.finalizers = [] then none else some o := by
  unfold putBack
  split
  · exact stored?_remove_self c k key
  · exact stored?_store_self c key o

theorem injectedConflicts_putBack (c : Cluster) (half : Half) (key : Key) (o : Object k) :
    (c.putBack half key o).injectedConflicts = c.injectedConflicts := by
  unfold putBack
  split <;> rfl

theorem sameBut_putBack (c : Cluster) (half : Half) (key : Key) (o : Object k) :
    c.SameBut k key (c.putBack half key o) := by
  intro j key' h
  unfold putBack
  split
  · exact stored?_remove_of_ne h c
  · exact stored?_store_of_ne h c o

/-- An update leads to a marked object if the stored one is marked or the incoming one. -/
theorem merged_isDeleted (stored incoming : Object k) (version : String) :
    (merged stored incoming version).isDeleted = (stored.isDeleted || incoming.isDeleted) := by
  simp only [merged, Object.isDeleted, Option.orElse_eq_orElse, Option.orElse_eq_or,
    Option.isSome_or]

/-- What a cluster makes of an object that is created. -/
def created (c : Cluster) (o : Object k) : Object k :=
  { o with
    metadata := { o.metadata with
      uid := some c.nextVersion.uidText
      version := some c.nextVersion.versionText
      generation := some 1
      deletion := none } }

theorem create_absent {o : Object k} (hplace : o.IsAt key) (hs : c.stored? k key = none) :
    c.create o = (.ok (c.created o), c.nextVersion.store key (c.created o)) := by
  simp [create, hplace.requireKey, contains, hs, created]

theorem create_present {o stored : Object k} (hplace : o.IsAt key)
    (hs : c.stored? k key = some stored) :
    c.create o = (.error (.alreadyExists k.name key), c) := by
  simp [create, hplace.requireKey, contains, hs]

end Cluster

/-! ### Writes -/

namespace Half

variable {half : Half} {c : Cluster} {key : Key} {o stored : Object k}

/-- The write of one half. -/
def put (half : Half) (c : Cluster) (o : Object k) : Cluster.Answer (Object k) :=
  match half with
  | .body => c.update o
  | .status => c.updateStatus o

/-- What a write of one half makes of a stored object. -/
def replaced (half : Half) (stored incoming : Object k) (version : String) : Object k :=
  match half with
  | .body => Cluster.merged stored incoming version
  | .status =>
    { stored with
      status := incoming.status
      metadata := { stored.metadata with version := some version } }

theorem put_incomplete {e : AccessError} (half : Half) (c : Cluster)
    (h : o.requireKey = .error e) : half.put c o = (.error e, c) := by
  cases half <;> simp [put, Cluster.update, Cluster.updateStatus, h]

theorem put_absent (hplace : o.IsAt key) (hs : c.stored? k key = none) :
    half.put c o = (.error (.notFound k.name key), c) := by
  cases half <;>
    simp [put, Cluster.update, Cluster.updateStatus, Cluster.checkVersion, hplace.requireKey, hs]

theorem put_injected (hplace : o.IsAt key) (hs : c.stored? k key = some stored)
    (hc : c.injectedConflicts ≠ 0) :
    half.put c o = (.error (.conflict k.name key "injected conflict"),
      { c with injectedConflicts := c.injectedConflicts - 1 }) := by
  cases half <;>
    simp [put, Cluster.update, Cluster.updateStatus, Cluster.checkVersion, hplace.requireKey, hs,
      hc]

theorem put_stale (hplace : o.IsAt key) (hs : c.stored? k key = some stored)
    (hc : c.injectedConflicts = 0) (hv : o.metadata.version.isSome)
    (hne : o.metadata.version ≠ stored.metadata.version) :
    half.put c o = (.error (.conflict k.name key
      "the object has been modified; please apply your changes to the latest version"), c) := by
  have hv : o.metadata.version ≠ none := Option.isSome_iff_ne_none.1 hv
  cases half <;>
    simp [put, Cluster.update, Cluster.updateStatus, Cluster.checkVersion, hplace.requireKey, hs,
      hc, hv, hne]

theorem put_fresh (hplace : o.IsAt key) (hs : c.stored? k key = some stored)
    (hc : c.injectedConflicts = 0)
    (hv : o.metadata.version = none ∨ o.metadata.version = stored.metadata.version) :
    half.put c o =
      (.ok (half.replaced stored o c.nextVersion.versionText).settled,
        c.nextVersion.putBack half key (half.replaced stored o c.nextVersion.versionText)) := by
  cases half with
  | body =>
    simp only [put, Cluster.update, hplace.requireKey, Cluster.checkVersion, hs, hc, ne_eq,
      not_true_eq_false, if_false, Option.isNone_iff_eq_none, hv, if_true, replaced,
      Cluster.putBack, true_and, Bool.and_eq_true, List.isEmpty_iff]
    split <;> rfl
  | status =>
    simp only [put, Cluster.updateStatus, hplace.requireKey, Cluster.checkVersion, hs, hc, ne_eq,
      not_true_eq_false, if_false, Option.isNone_iff_eq_none, hv, if_true, replaced,
      Cluster.putBack, reduceCtorEq, false_and]

/-- A write that went through found an object with the version that it carried. -/
theorem put_ok {a : Object k} {c' : Cluster} (hplace : o.IsAt key)
    (h : half.put c o = (.ok a, c')) :
    ∃ stored, c.stored? k key = some stored ∧
      (o.metadata.version = none ∨ o.metadata.version = stored.metadata.version) ∧
      a = (half.replaced stored o c.nextVersion.versionText).settled ∧
      c' = c.nextVersion.putBack half key (half.replaced stored o c.nextVersion.versionText) := by
  cases hs : c.stored? k key with
  | none => simp [put_absent hplace hs] at h
  | some stored =>
    by_cases hc : c.injectedConflicts = 0
    · by_cases hv : o.metadata.version = none ∨ o.metadata.version = stored.metadata.version
      · rw [put_fresh hplace hs hc hv, Prod.mk.injEq, Except.ok.injEq] at h
        exact ⟨stored, rfl, hv, h.1.symm, h.2.symm⟩
      · rw [not_or] at hv
        simp [put_stale hplace hs hc (Option.isSome_iff_ne_none.2 hv.1) hv.2] at h
    · simp [put_injected hplace hs hc] at h

/-- A write that was refused has changed no object, and given out no version. -/
theorem put_error {e : AccessError} {c' : Cluster} (hplace : o.IsAt key)
    (h : half.put c o = (.error e, c')) :
    c'.tables = c.tables ∧ c'.version = c.version := by
  cases hs : c.stored? k key with
  | none =>
    rw [put_absent hplace hs, Prod.mk.injEq] at h
    exact h.2 ▸ ⟨rfl, rfl⟩
  | some stored =>
    -- refused for an injected conflict or for an old version: neither changes a table
    by_cases hc : c.injectedConflicts = 0
    · by_cases hv : o.metadata.version = none ∨ o.metadata.version = stored.metadata.version
      · simp [put_fresh hplace hs hc hv] at h
      · rw [not_or] at hv
        rw [put_stale hplace hs hc (Option.isSome_iff_ne_none.2 hv.1) hv.2, Prod.mk.injEq] at h
        exact h.2 ▸ ⟨rfl, rfl⟩
    · rw [put_injected hplace hs hc, Prod.mk.injEq] at h
      exact h.2 ▸ ⟨rfl, rfl⟩

/-- An object that is there before and after a write is as it was, or it is what the write has made
of it. -/
theorem stored?_put (half : Half) {a : Object k} (hs : c.stored? k key = some stored)
    (ha : (half.put c o).2.stored? k key = some a) :
    a = stored ∨ o.IsAt key ∧
      (o.metadata.version = none ∨ o.metadata.version = stored.metadata.version) ∧
      a = half.replaced stored o c.nextVersion.versionText := by
  cases hkey : o.requireKey with
  | error e =>
    rw [put_incomplete half c hkey] at ha
    exact .inl (Option.some.inj (ha.symm.trans hs))
  | ok home =>
    have hplace := Object.IsAt.of_requireKey hkey
    cases hput : half.put c o with
    | mk answer c' =>
      rw [hput] at ha
      cases answer with
      | error e =>
        obtain ⟨htables, -⟩ := put_error hplace hput
        unfold Cluster.stored? at ha hs
        rw [htables] at ha
        exact .inl (Option.some.inj (ha.symm.trans hs))
      | ok written =>
        obtain ⟨there, hthere, hversion, -, rfl⟩ := put_ok hplace hput
        -- the write is about the object that we look at, or about another one
        by_cases hhome : home = key
        · subst hhome
          obtain rfl := Option.some.inj (hthere.symm.trans hs)
          rw [Cluster.stored?_putBack_self, Option.ite_none_left_eq_some] at ha
          exact .inr ⟨hplace, hversion, (Option.some.inj ha.2).symm⟩
        · have hother := Cluster.sameBut_putBack c.nextVersion half home
            (half.replaced there o c.nextVersion.versionText) k key fun h => hhome h.2.symm
          rw [hother] at ha
          exact .inl (Option.some.inj (ha.symm.trans hs))

end Half

end ModelKeeper

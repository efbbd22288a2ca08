import ModelKeeper.Proofs.Cluster.Objects
import ModelKeeper.World.Basic

/-!
# Versions tell objects apart

Whatever is done to a cluster, it gives out versions in ascending order, and an object that is newly
stored carries one that was not given out before (`Cluster.Grows`).  So a copy of an object that was
read once stays fresh (`Cluster.Fresh`): if the object that is stored under the key later carries
the version of the copy, then it is the object that was read, however many times it has been
replaced, removed or made again in between.

All operations make a cluster grow in this sense: those of its clients and those of other actors
(`Cluster.Operation.grows`), and so do all requests to a world (`World.grows_answer`).
-/

namespace ModelKeeper

variable {k : Kind}

namespace Cluster

/-- Whether the second cluster can come of the first: what it has of its own was stored under its
own key and carries a version that was not given out before. -/
structure Grows (c c' : Cluster) : Prop where
  version : c.version ≤ c'.version
  stored : ∀ k key (o : Object k), c'.stored? k key = some o →
    c.stored? k key = some o ∨
      o.IsAt key ∧ ∃ n, c.version < n ∧ n ≤ c'.version ∧ o.metadata.version = some (toString n)

namespace Grows

variable {c c' c'' : Cluster} {key : Key}

theorem refl (c : Cluster) : c.Grows c := ⟨Nat.le_refl _, fun _ _ _ => .inl⟩

theorem trans (h : c.Grows c') (h' : c'.Grows c'') : c.Grows c'' where
  version := Nat.le_trans h.version h'.version
  stored k key o ho := by
    rcases h'.stored k key o ho with hold | ⟨hplace, n, hlt, hle, hn⟩
    · rcases h.stored k key o hold with holder | ⟨hplace, n, hlt, hle, hn⟩
      · exact .inl holder
      · exact .inr ⟨hplace, n, hlt, Nat.le_trans hle h'.version, hn⟩
    · exact .inr ⟨hplace, n, Nat.lt_of_le_of_lt h.version hlt, hle, hn⟩

theorem placed (h : c.Grows c') (hplaced : c.Placed) : c'.Placed := by
  intro k key o ho
  rcases h.stored k key o ho with hold | ⟨hplace, -⟩
  · exact hplaced k key o hold
  · exact hplace

theorem versioned (h : c.Grows c') (hversioned : c.Versioned) : c'.Versioned := by
  intro k key o ho
  rcases h.stored k key o ho with hold | ⟨-, n, -, hle, hn⟩
  · obtain ⟨n, hle, hn⟩ := hversioned k key o hold
    exact ⟨n, Nat.le_trans hle h.version, hn⟩
  · exact ⟨n, hle, hn⟩

theorem of_tables (htables : c'.tables = c.tables) (hversion : c'.version = c.version) :
    c.Grows c' where
  version := Nat.le_of_eq hversion.symm
  stored k key o ho := by
    unfold stored? at ho ⊢
    exact .inl (htables ▸ ho)

/-- Another object is stored, with the next version. -/
theorem store {o : Object k} (hplace : o.IsAt key)
    (hversion : o.metadata.version = some c.nextVersion.versionText) :
    c.Grows (c.nextVersion.store key o) where
  version := Nat.le_succ _
  stored j key' p hp := by
    by_cases hsame : j = k ∧ key' = key
    · -- the new object
      obtain ⟨rfl, rfl⟩ := hsame
      rw [stored?_store_self] at hp
      obtain rfl := Option.some.inj hp
      exact .inr ⟨hplace, c.version + 1, Nat.lt_succ_self _, Nat.le_refl _, hversion⟩
    · rw [stored?_store_of_ne hsame, stored?_nextVersion] at hp
      exact .inl hp

theorem remove (c : Cluster) (k : Kind) (key : Key) : c.Grows (c.remove k key) where
  version := Nat.le_refl _
  stored j key' p hp := by
    by_cases hsame : j = k ∧ key' = key
    · obtain ⟨rfl, rfl⟩ := hsame
      rw [stored?_remove_self] at hp
      cases hp
    · rw [stored?_remove_of_ne hsame] at hp
      exact .inl hp

theorem nextVersion (c : Cluster) : c.Grows c.nextVersion where
  version := Nat.le_succ _
  stored _ _ _ ho := .inl ho

theorem putBack {o : Object k} (half : Half) (hplace : o.IsAt key)
    (hversion : o.metadata.version = some c.nextVersion.versionText) :
    c.Grows (c.nextVersion.putBack half key o) := by
  unfold Cluster.putBack
  split
  · exact (nextVersion c).trans (remove ..)
  · exact store hplace hversion

end Grows

variable {c : Cluster} {key : Key}

theorem grows_insert (c : Cluster) (o : Object k) : c.Grows (c.insert o).2 := by
  unfold insert
  cases hkey : o.requireKey with
  | error e => exact .refl c
  | ok key =>
    have hplace := Object.IsAt.of_requireKey hkey
    exact .store ⟨hplace.ns, hplace.name⟩ rfl

theorem grows_modify (hplaced : c.Placed) {change : Object k → Object k}
    (hchange : ∀ o, o.IsAt key → (change o).IsAt key) : c.Grows (c.modify k key change).2 := by
  unfold modify
  cases hget : c.get k key with
  | error e => exact .refl c
  | ok copy =>
    obtain ⟨o, hs, rfl⟩ := stored_of_get hget
    have hplace := hchange o.settled (hplaced k key o hs).settled
    exact .store ⟨hplace.ns, hplace.name⟩ rfl

theorem grows_create (c : Cluster) (o : Object k) : c.Grows (c.create o).2 := by
  cases hkey : o.requireKey with
  | error e =>
    unfold create
    rw [hkey]
    exact .refl c
  | ok key =>
    have hplace := Object.IsAt.of_requireKey hkey
    cases hs : c.stored? k key with
    | none =>
      rw [create_absent hplace hs]
      exact .store ⟨hplace.ns, hplace.name⟩ rfl
    | some stored =>
      rw [create_present hplace hs]
      exact .refl c

theorem grows_put (hplaced : c.Placed) (half : Half) (o : Object k) :
    c.Grows (half.put c o).2 := by
  cases hkey : o.requireKey with
  | error e =>
    have hsame : (half.put c o).2 = c := by
      cases half <;> simp [Half.put, update, updateStatus, hkey]
    rw [hsame]
    exact .refl c
  | ok key =>
    have hplace := Object.IsAt.of_requireKey hkey
    -- a refused write takes no version
    cases hput : half.put c o with
    | mk answer c' =>
      cases answer with
      | error e =>
        obtain ⟨htables, hversion⟩ := Half.put_error hplace hput
        exact .of_tables htables hversion
      | ok a =>
        obtain ⟨stored, hs, -, -, rfl⟩ := Half.put_ok hplace hput
        have hstored := hplaced k key stored hs
        cases half with
        | body => exact .putBack .body ⟨hplace.ns, hplace.name⟩ rfl
        | status => exact .putBack .status ⟨hstored.ns, hstored.name⟩ rfl

theorem grows_delete (hplaced : c.Placed) (k : Kind) (key : Key) (now : Instant) :
    c.Grows (c.delete k key now).2 := by
  unfold delete
  cases hs : c.stored? k key with
  | none => exact .refl c
  | some stored =>
    have hplace := hplaced k key stored hs
    simp only
    split
    · exact .remove ..
    · split
      · exact .refl c
      · exact .store ⟨hplace.ns, hplace.name⟩ rfl

/-! ### What others may do -/

/-- What may be done to a cluster, by its clients or by other actors. -/
inductive Operation where
  | insert {k : Kind} (o : Object k)
  | modify (k : Kind) (key : Key) (change : Object k → Object k)
  | create {k : Kind} (o : Object k)
  | put (half : Half) {k : Kind} (o : Object k)
  | delete (k : Kind) (key : Key) (now : Instant)
  | injectConflicts (count : Nat)

namespace Operation

/-- The cluster after an operation. -/
def apply : Operation → Cluster → Cluster
  | .insert o, c => (c.insert o).2
  | .modify k key change, c => (c.modify k key change).2
  | .create o, c => (c.create o).2
  | .put half o, c => (half.put c o).2
  | .delete k key now, c => (c.delete k key now).2
  | .injectConflicts count, c => c.injectConflicts count

/-- Whether an operation leaves objects under their own namespaces and names. -/
def Proper : Operation → Prop
  | .modify _ key change => ∀ o, o.IsAt key → (change o).IsAt key
  | _ => True

theorem grows {op : Operation} (hproper : op.Proper) (hplaced : c.Placed) :
    c.Grows (op.apply c) := by
  cases op with
  | insert o => exact grows_insert c o
  | modify k key change => exact grows_modify hplaced hproper
  | create o => exact grows_create c o
  | put half o => exact grows_put hplaced half o
  | delete k key now => exact grows_delete hplaced k key now
  | injectConflicts count => exact .of_tables rfl rfl

end Operation

/-! ### Copies -/

/-- Whether a copy of an object can be told by its version from all others that are or will be
stored under its key. -/
structure Fresh (key : Key) (copy : Object k) (c : Cluster) : Prop where
  isAt : copy.IsAt key
  version : ∃ n ≤ c.version, copy.metadata.version = some (toString n)
  same : ∀ o : Object k, c.stored? k key = some o → o.metadata.version = copy.metadata.version →
    o.settled = copy

theorem Fresh.of_get {copy : Object k} (hplaced : c.Placed) (hversioned : c.Versioned)
    (h : c.get k key = .ok copy) : c.Fresh key copy := by
  obtain ⟨o, hs, rfl⟩ := stored_of_get h
  refine ⟨(hplaced k key o hs).settled, hversioned k key o hs, fun o' ho' _ => ?_⟩
  rw [Option.some.inj (hs.symm.trans ho')]

theorem Fresh.grows {c' : Cluster} {copy : Object k} (hgrows : c.Grows c')
    (h : c.Fresh key copy) : c'.Fresh key copy := by
  obtain ⟨n, hle, hn⟩ := h.version
  refine ⟨h.isAt, ⟨n, Nat.le_trans hle hgrows.version, hn⟩, fun o ho hsame => ?_⟩
  rcases hgrows.stored k key o ho with hold | ⟨-, m, hlt, -, hm⟩
  · exact h.same o hold hsame
  · -- the version of the copy was given out before, that of a new object was not
    have heq : m = n := versionText_inj (Option.some.inj (hm.symm.trans (hsame.trans hn)))
    omega

end Cluster

/-- Every request makes the cluster of a world grow. -/
theorem World.grows_answer {σ : Type} (v : Vendors σ) (r : Request) {w : World σ}
    (hplaced : w.cluster.Placed) : w.cluster.Grows (answer v r w).2.cluster := by
  cases r with
  | create k o => exact Cluster.grows_create w.cluster o
  | update k o => exact Cluster.grows_put hplaced .body o
  | updateStatus k o => exact Cluster.grows_put hplaced .status o
  | delete k key => exact Cluster.grows_delete hplaced k key w.clock
  | _ => exact .refl w.cluster

/-- Every program makes the cluster of a world grow. -/
theorem World.grows_run {σ α : Type} (v : Vendors σ) (p : Program α) {w : World σ}
    (hplaced : w.cluster.Placed) : w.cluster.Grows (p.run (handler v) w).2.cluster := by
  induction p generalizing w with
  | done a => exact .refl w.cluster
  | step r next ih =>
    have hgrows := grows_answer v r hplaced
    exact hgrows.trans (ih _ (hgrows.placed hplaced))

end ModelKeeper

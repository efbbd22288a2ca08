import Mathlib.Logic.Equiv.Defs
import ModelKeeper.Proofs.Cluster.Objects

/-!
# What a cluster hands out

With every write a cluster hands out a number.  It becomes the version of the object that is
written, and the unique id of one that is new; from there it may get into references to owners.
`Object.handed` is an object with such numbers in it.

Which numbers an object gets depends on how many have been handed out before.  So what the same
writes make of it in two clusters is `Object.Paired`: equal but for these numbers, which are the
same if they are counted from where each cluster was.  Two clusters are `Cluster.Renamed` if they
come from one and are equal but for a permutation of the numbers that were handed out on the way.
-/

namespace ModelKeeper

variable {k : Kind}

/-- The unique id that is made of a number. -/
def Cluster.uidOf (n : Nat) : String := "uid-" ++ toString n

/-- The numbers that an object was handed: one for its version, and maybe one for its unique id and
one for those of its owners. -/
structure Handout where
  version : Nat
  uid : Option Nat := none
  owners : Option Nat := none

namespace Handout

/-- All the numbers. -/
def numbers (h : Handout) : List Nat := h.version :: (h.uid.toList ++ h.owners.toList)

/-- The handout with other numbers. -/
def map (f : Nat → Nat) (h : Handout) : Handout := ⟨f h.version, h.uid.map f, h.owners.map f⟩

@[simp]
theorem numbers_map (f : Nat → Nat) (h : Handout) : (h.map f).numbers = h.numbers.map f := by
  obtain ⟨version, uid, owners⟩ := h
  cases uid <;> cases owners <;> rfl

theorem map_map (f g : Nat → Nat) (h : Handout) : (h.map f).map g = h.map (g ∘ f) := by
  simp [map]

/-- Numbers up to `a` that are counted from `n`. -/
theorem within_map {h : Handout} {a : Nat} (hh : ∀ i ∈ h.numbers, 1 ≤ i ∧ i ≤ a) (n : Nat) :
    ∀ i ∈ (h.map (n + ·)).numbers, n < i ∧ i ≤ n + a := by
  rw [numbers_map]
  intro i hi
  obtain ⟨j, hj, rfl⟩ := List.mem_map.1 hi
  have := hh j hj
  omega

theorem map_congr {f g : Nat → Nat} {h : Handout} (hfg : ∀ i ∈ h.numbers, f i = g i) :
    h.map f = h.map g := by
  obtain ⟨version, uid, owners⟩ := h
  have hversion : f version = g version := hfg version (by simp [numbers])
  have huid : uid.map f = uid.map g :=
    Option.map_congr fun i hi => hfg i (by simp [numbers, hi])
  have howners : owners.map f = owners.map g :=
    Option.map_congr fun i hi => hfg i (by simp [numbers, hi])
  simp only [map, hversion, huid, howners]

end Handout

namespace Object

/-- The object with the unique ids of its owners made of a number, if there is one. -/
def ownedBy (owner : Option Nat) (o : Object k) : Object k :=
  match owner with
  | none => o
  | some n =>
    { o with
      metadata := { o.metadata with
        owners := o.metadata.owners.map (List.map fun r => { r with uid := Cluster.uidOf n }) } }

/-- The object with the numbers that it was handed. -/
def handed (h : Handout) (o : Object k) : Object k :=
  let o := o.ownedBy h.owners
  { o with
    metadata := { o.metadata with
      version := some (toString h.version)
      uid := h.uid.map Cluster.uidOf <|> o.metadata.uid } }

@[simp]
theorem handed_spec (h : Handout) (o : Object k) : (o.handed h).spec = o.spec := by
  unfold handed ownedBy
  cases h.owners <;> rfl

@[simp]
theorem handed_status (h : Handout) (o : Object k) : (o.handed h).status = o.status := by
  unfold handed ownedBy
  cases h.owners <;> rfl

@[simp]
theorem handed_name (h : Handout) (o : Object k) :
    (o.handed h).metadata.name = o.metadata.name := by
  unfold handed ownedBy
  cases h.owners <;> rfl

/-- The unique id is a new one or that of before. -/
theorem handed_uid (h : Handout) (o : Object k) :
    (o.handed h).metadata.uid = (h.uid.map Cluster.uidOf <|> o.metadata.uid) := by
  unfold handed ownedBy
  cases h.owners <;> rfl

/-! ### Objects that were written in two clusters -/

/-- Whether two objects are equal but for the numbers that they were handed.  These are the same,
at most `a`, if they are counted from `n` for the one and from `m` for the other. -/
def Paired (n m a : Nat) (o o' : Object k) : Prop :=
  ∃ (p : Object k) (h : Handout), (∀ i ∈ h.numbers, 1 ≤ i ∧ i ≤ a) ∧
    o = p.handed (h.map (n + ·)) ∧ o' = p.handed (h.map (m + ·))

/-- Whether two objects are the same, or were written in two clusters. -/
def Alike (n m a : Nat) (o o' : Object k) : Prop := o' = o ∨ o.Paired n m a o'

/-- Whether two objects that are to be created are equal but for the unique ids of their owners. -/
def Matched (n m a : Nat) (o o' : Object k) : Prop :=
  ∃ (p : Object k) (owner : Option Nat), (∀ i ∈ owner, 1 ≤ i ∧ i ≤ a) ∧
    o = p.ownedBy (owner.map (n + ·)) ∧ o' = p.ownedBy (owner.map (m + ·))

variable {n m a b : Nat} {o o' : Object k}

theorem Paired.mono (h : o.Paired n m a o') (hab : a ≤ b) : o.Paired n m b o' := by
  obtain ⟨p, numbers, hnumbers, ho, ho'⟩ := h
  exact ⟨p, numbers, fun i hi => ⟨(hnumbers i hi).1, Nat.le_trans (hnumbers i hi).2 hab⟩, ho, ho'⟩

theorem Alike.status (h : o.Alike n m a o') : o'.status = o.status := by
  rcases h with rfl | ⟨p, numbers, -, rfl, rfl⟩
  · rfl
  · simp only [handed_status]

theorem Alike.spec (h : o.Alike n m a o') : o'.spec = o.spec := by
  rcases h with rfl | ⟨p, numbers, -, rfl, rfl⟩
  · rfl
  · simp only [handed_spec]

theorem Matched.refl (n m a : Nat) (o : Object k) : o.Matched n m a o :=
  ⟨o, none, by simp, rfl, rfl⟩

/-- What is written of one object in two clusters, as their next version. -/
theorem paired_written (make : String → Object k)
    (hmake : ∀ version, make version =
      { make "" with metadata := { (make "").metadata with version := some version } }) :
    (make (toString (n + a + 1))).Paired n m (a + 1) (make (toString (m + a + 1))) := by
  refine ⟨make "", ⟨a + 1, none, none⟩, fun i hi => ?_, ?_, ?_⟩
  · obtain rfl : i = a + 1 := by simpa [Handout.numbers] using hi
    exact ⟨Nat.le_add_left 1 a, Nat.le_refl _⟩
  · rw [hmake]
    rfl
  · rw [hmake]
    rfl

/-- What is created of two objects that match. -/
theorem Matched.created {c d : Cluster} (h : o.Matched n m a o') (hc : c.version = n + a)
    (hd : d.version = m + a) : (c.created o).Paired n m (a + 1) (d.created o') := by
  obtain ⟨p, owner, howner, rfl, rfl⟩ := h
  -- what both clusters store is one object, each with the numbers it hands out
  let fresh : Object k :=
    { p with metadata := { p.metadata with generation := some 1, deletion := none } }
  have hcreated : ∀ (c : Cluster) (owner : Option Nat), c.created (p.ownedBy owner) =
      fresh.handed ⟨c.version + 1, some (c.version + 1), owner⟩ := by
    intro c owner
    cases owner <;> rfl
  refine ⟨fresh, ⟨a + 1, some (a + 1), owner⟩, fun i hi => ?_, ?_, ?_⟩
  · simp only [Handout.numbers, Option.toList_some, List.cons_append, List.nil_append,
      List.mem_cons, Option.mem_toList] at hi
    rcases hi with rfl | rfl | hi
    · omega
    · omega
    · have := howner i hi
      omega
  · rw [hcreated, hc]
    rfl
  · rw [hcreated, hd]
    rfl

end Object

/-! ### Clusters that are equal but for a renaming -/

namespace Handout

/-- The number after a change of places: of the numbers after `n`, the first `a` are exchanged with
the next `b`. -/
def exchange (n a b i : Nat) : Nat :=
  if n < i ∧ i ≤ n + a then i + b else if n + a < i ∧ i ≤ n + a + b then i - a else i

theorem exchange_first {a i : Nat} (hi : 1 ≤ i ∧ i ≤ a) (n b : Nat) :
    exchange n a b (n + i) = n + b + i := by
  unfold exchange
  rw [if_pos (by omega)]
  omega

theorem exchange_second {b i : Nat} (hi : 1 ≤ i ∧ i ≤ b) (n a : Nat) :
    exchange n a b (n + a + i) = n + i := by
  unfold exchange
  rw [if_neg (by omega), if_pos (by omega)]
  omega

theorem exchange_of_not {n a b i : Nat} (hi : ¬ (n < i ∧ i ≤ n + a + b)) :
    exchange n a b i = i := by
  unfold exchange
  rw [if_neg (by omega), if_neg (by omega)]

theorem exchange_exchange (n a b i : Nat) : exchange n b a (exchange n a b i) = i := by
  by_cases hin : n < i ∧ i ≤ n + a + b
  · by_cases hfirst : i ≤ n + a
    · obtain ⟨j, rfl⟩ := Nat.exists_eq_add_of_le (Nat.le_of_lt hin.1)
      rw [exchange_first (by omega), exchange_second (by omega)]
    · obtain ⟨j, rfl⟩ := Nat.exists_eq_add_of_lt (Nat.lt_of_not_le hfirst)
      rw [Nat.add_assoc (n + a), exchange_second (by omega), exchange_first (by omega)]
  · rw [exchange_of_not hin, exchange_of_not (by omega)]

/-- The change of places is undone by the change back. -/
def swap (n a b : Nat) : Equiv.Perm Nat where
  toFun := exchange n a b
  invFun := exchange n b a
  left_inv := exchange_exchange n a b
  right_inv := exchange_exchange n b a

end Handout

/-- Whether two clusters that come from `c` are equal but for a renaming of the numbers that were
handed out on the way. -/
structure Cluster.Renamed (ρ : Equiv.Perm Nat) (c d d' : Cluster) : Prop where
  version : d'.version = d.version
  injectedConflicts : d'.injectedConflicts = d.injectedConflicts
  moved : ∀ i, ρ i ≠ i → c.version < i ∧ i ≤ d.version
  objects : ∀ k home,
    (d.stored? k home = c.stored? k home ∧ d'.stored? k home = c.stored? k home) ∨
      ∃ (o : Object k) (h : Handout), (∀ i ∈ h.numbers, c.version < i ∧ i ≤ d.version) ∧
        d.stored? k home = some (o.handed h) ∧ d'.stored? k home = some (o.handed (h.map ρ))

end ModelKeeper

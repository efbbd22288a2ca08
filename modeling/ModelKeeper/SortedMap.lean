/-!
# Sorted maps

Finite maps as lists of entries in strictly ascending order of their keys.  The order is a field of
the type, so two maps with the same entries are equal, and listing a map needs no sorting.

`SortedMap.get?` reads, `SortedMap.insert` writes or overwrites, `SortedMap.erase` removes; the
lemmas `get?_insert` and `get?_erase` say what each does to `get?`.
-/

namespace ModelKeeper

/-- A finite map from `κ` to `α`, listed in ascending order of its keys. -/
structure SortedMap (κ : Type) (α : Type) [Ord κ] where
  /-- The entries, ascending by key. -/
  entries : List (κ × α)
  ordered : entries.Pairwise (fun a b => compare a.1 b.1 = .lt)

namespace SortedMap

variable {κ α : Type} [Ord κ]

instance [DecidableEq κ] [DecidableEq α] : DecidableEq (SortedMap κ α) := fun a b =>
  if h : a.entries = b.entries then
    isTrue (by cases a; cases b; simp_all)
  else
    isFalse (fun e => h (congrArg entries e))

/-- The map without entries. -/
def empty : SortedMap κ α := ⟨[], .nil⟩

instance : Inhabited (SortedMap κ α) := ⟨empty⟩

instance : EmptyCollection (SortedMap κ α) := ⟨empty⟩

/-- The first value listed for `k`. -/
def lookup (k : κ) : List (κ × α) → Option α
  | [] => none
  | (k', v) :: rest => if compare k k' = .eq then some v else lookup k rest

/-- The value stored for `k`. -/
def get? (m : SortedMap κ α) (k : κ) : Option α :=
  lookup k m.entries

/-- Whether a value is stored for `k`. -/
def contains (m : SortedMap κ α) (k : κ) : Bool :=
  (m.get? k).isSome

/-- `k ↦ v` put at its place in an ascending list, in place of an entry with an equal key. -/
def insertEntry (k : κ) (v : α) : List (κ × α) → List (κ × α)
  | [] => [(k, v)]
  | (k', v') :: rest =>
    match compare k k' with
    | .lt => (k, v) :: (k', v') :: rest
    | .eq => (k, v) :: rest
    | .gt => (k', v') :: insertEntry k v rest

theorem mem_insertEntry {k : κ} {v : α} {e : κ × α} :
    ∀ {l : List (κ × α)}, e ∈ insertEntry k v l → e = (k, v) ∨ e ∈ l
  | [], h => by simp_all [insertEntry]
  | (k', v') :: rest, h => by
    unfold insertEntry at h
    split at h
    · simpa using h
    · rcases List.mem_cons.1 h with h | h
      · exact .inl h
      · exact .inr (List.mem_cons_of_mem _ h)
    · rcases List.mem_cons.1 h with h | h
      · exact .inr (h ▸ List.mem_cons_self ..)
      · exact (mem_insertEntry h).imp id (List.mem_cons_of_mem _)

section Ordered

variable [Std.TransOrd κ] [Std.LawfulEqOrd κ]

theorem insertEntry_pairwise (k : κ) (v : α) :
    ∀ {l : List (κ × α)}, l.Pairwise (fun a b => compare a.1 b.1 = .lt) →
      (insertEntry k v l).Pairwise (fun a b => compare a.1 b.1 = .lt)
  | [], _ => by simp [insertEntry]
  | (k', v') :: rest, h => by
    obtain ⟨hhead, htail⟩ := List.pairwise_cons.1 h
    unfold insertEntry
    split
    · next hlt =>
      refine List.pairwise_cons.2 ⟨fun e he => ?_, h⟩
      rcases List.mem_cons.1 he with rfl | he
      · exact hlt
      · exact Std.TransCmp.lt_trans hlt (hhead e he)
    · next heq =>
      rw [Std.LawfulEqOrd.compare_eq_iff_eq] at heq
      subst heq
      exact List.pairwise_cons.2 ⟨hhead, htail⟩
    · next hgt =>
      refine List.pairwise_cons.2 ⟨fun e he => ?_, insertEntry_pairwise k v htail⟩
      rcases mem_insertEntry he with rfl | he
      · exact Std.OrientedCmp.lt_of_gt hgt
      · exact hhead e he

/-- The map with `v` stored for `k`. -/
def insert (m : SortedMap κ α) (k : κ) (v : α) : SortedMap κ α :=
  ⟨insertEntry k v m.entries, insertEntry_pairwise k v m.ordered⟩

/-- The map with every pair of `l` inserted in turn, so that of two pairs with one key the later
counts. -/
def ofList (l : List (κ × α)) : SortedMap κ α :=
  l.foldl (fun m e => m.insert e.1 e.2) empty

end Ordered

/-- The map without an entry for `k`. -/
def erase (m : SortedMap κ α) (k : κ) : SortedMap κ α :=
  ⟨m.entries.filter (fun e => compare k e.1 != .eq), m.ordered.filter _⟩

/-- The entries, ascending by key. -/
def toList (m : SortedMap κ α) : List (κ × α) := m.entries

/-- The map with `f` applied to every value. -/
def map {β : Type} (f : α → β) (m : SortedMap κ α) : SortedMap κ β :=
  ⟨m.entries.map (fun e => (e.1, f e.2)), by
    have h := m.ordered
    rw [List.pairwise_map]
    exact h⟩

/-! ### What is read back -/

@[simp]
theorem get?_empty (k : κ) : (empty : SortedMap κ α).get? k = none := rfl

section Lookup

variable [Std.LawfulEqOrd κ]

theorem lookup_insertEntry [DecidableEq κ] (k j : κ) (v : α) (l : List (κ × α)) :
    lookup j (insertEntry k v l) = if j = k then some v else lookup j l := by
  have eq_iff : ∀ a b : κ, compare a b = .eq ↔ a = b := fun _ _ =>
    Std.LawfulEqOrd.compare_eq_iff_eq
  induction l with
  | nil => simp [insertEntry, lookup, eq_iff]
  | cons e rest ih =>
    obtain ⟨k', v'⟩ := e
    unfold insertEntry
    split
    · simp only [lookup, eq_iff]
    · next heq =>
      obtain rfl := (eq_iff _ _).1 heq
      by_cases h : j = k <;> simp [lookup, eq_iff, h]
    · next hgt =>
      have hne : k ≠ k' := fun h => by
        rw [(eq_iff _ _).2 h] at hgt
        cases hgt
      simp only [lookup, eq_iff, ih]
      by_cases h' : j = k'
      · subst h'
        simp [Ne.symm hne]
      · simp [h']

theorem get?_insert [Std.TransOrd κ] [DecidableEq κ] (m : SortedMap κ α) (k j : κ) (v : α) :
    (m.insert k v).get? j = if j = k then some v else m.get? j :=
  lookup_insertEntry k j v m.entries

theorem lookup_filter [DecidableEq κ] (k j : κ) (l : List (κ × α)) :
    lookup j (l.filter (fun e => compare k e.1 != .eq)) =
      if j = k then none else lookup j l := by
  have eq_iff : ∀ a b : κ, compare a b = .eq ↔ a = b := fun _ _ =>
    Std.LawfulEqOrd.compare_eq_iff_eq
  induction l with
  | nil => simp [lookup]
  | cons e rest ih =>
    obtain ⟨k', v'⟩ := e
    by_cases hk : k = k'
    · subst hk
      rw [List.filter_cons_of_neg (by simp), ih]
      by_cases hj : j = k <;> simp [lookup, hj, eq_iff]
    · have hne : compare k k' ≠ .eq := fun h => hk ((eq_iff _ _).1 h)
      rw [List.filter_cons_of_pos (by simpa using hne)]
      simp only [lookup, eq_iff, ih]
      by_cases hj : j = k'
      · subst hj
        simp [Ne.symm hk]
      · simp [hj]

theorem get?_erase [DecidableEq κ] (m : SortedMap κ α) (k j : κ) :
    (m.erase k).get? j = if j = k then none else m.get? j :=
  lookup_filter k j m.entries

end Lookup

end SortedMap

/-- A map with text for keys, such as the labels of an object. -/
abbrev Dict (α : Type) : Type := SortedMap String α

end ModelKeeper

import ModelKeeper.Json.Codec

/-!
# JSON values of any shape

Some parts of an object may hold any JSON value.  They are kept as `SortedJson`: the members of
every object ascend by name, so that two values are equal if they are so as maps, and no name occurs
twice.  `Draft.sorted` reads such a value, whatever the order of its members in the text.
-/

namespace ModelKeeper

/-- Whether a number is one that a text spells: an integer of 64 bits, signed or unsigned, or a
finite datum. -/
def Number.isSpelled : Number → Bool
  | .int n => -0x8000000000000000 ≤ n && n ≤ 0xFFFFFFFFFFFFFFFF
  | .double x => x.isFinite
  | .single _ => false

/-! ### Equality -/

namespace Json

mutual

/-- Whether two values are the same, with their members in the same order. -/
def eqb : Json → Json → Bool
  | .null, .null => true
  | .bool a, .bool b => a == b
  | .num a, .num b => decide (a = b)
  | .str a, .str b => decide (a = b)
  | .arr as, .arr bs => eqbItems as bs
  | .obj as, .obj bs => eqbMembers as bs
  | _, _ => false

def eqbItems : List Json → List Json → Bool
  | [], [] => true
  | a :: as, b :: bs => eqb a b && eqbItems as bs
  | _, _ => false

def eqbMembers : List (String × Json) → List (String × Json) → Bool
  | [], [] => true
  | (m, a) :: as, (n, b) :: bs => decide (m = n) && eqb a b && eqbMembers as bs
  | _, _ => false

end

mutual

theorem eqb_iff : ∀ v w : Json, v.eqb w = true ↔ v = w
  | .null, w | .bool _, w | .num _, w | .str _, w => by cases w <;> simp [eqb]
  | .arr as, w => by cases w <;> simp [eqb, eqbItems_iff as]
  | .obj as, w => by cases w <;> simp [eqb, eqbMembers_iff as]

theorem eqbItems_iff : ∀ as bs : List Json, eqbItems as bs = true ↔ as = bs
  | [], bs => by cases bs <;> simp [eqbItems]
  | a :: as, bs => by cases bs <;> simp [eqbItems, eqb_iff a, eqbItems_iff as]

theorem eqbMembers_iff : ∀ as bs : List (String × Json), eqbMembers as bs = true ↔ as = bs
  | [], bs => by cases bs <;> simp [eqbMembers]
  | (m, a) :: as, bs => by
    cases bs <;> simp [eqbMembers, eqb_iff a, eqbMembers_iff as, Prod.ext_iff]

end

instance : DecidableEq Json := fun v w => decidable_of_iff _ (eqb_iff v w)

/-! ### Order -/

mutual

/-- Whether the members of every object ascend by name, and every number is one that a text
spells. -/
def isSorted : Json → Bool
  | .null | .bool _ | .str _ => true
  | .num n => n.isSpelled
  | .arr items => areSorted items
  | .obj members =>
    decide (members.Pairwise fun a b => compare a.1 b.1 = .lt) && haveSorted members

def areSorted : List Json → Bool
  | [] => true
  | v :: vs => isSorted v && areSorted vs

def haveSorted : List (String × Json) → Bool
  | [] => true
  | (_, v) :: rest => isSorted v && haveSorted rest

end

theorem haveSorted_iff {members : List (String × Json)} :
    haveSorted members ↔ ∀ m ∈ members, m.2.isSorted := by
  induction members with
  | nil => simp [haveSorted]
  | cons m rest ih => simp [haveSorted, ih]

theorem haveSorted_insertEntry {name : String} {v : Json} {members : List (String × Json)}
    (hv : v.isSorted) (h : haveSorted members) :
    haveSorted (SortedMap.insertEntry name v members) := by
  rw [haveSorted_iff] at *
  intro m hm
  rcases SortedMap.mem_insertEntry hm with rfl | hm
  · exact hv
  · exact h m hm

end Json

namespace Draft

mutual

/-- The value that a draft stands for, with its members sorted.  Of several members with one name
the last counts. -/
def sorted : Draft → Except ReadError Json
  | .null => .ok .null
  | .bool b => .ok (.bool b)
  | .number n =>
    match n.filter Number.isSpelled with
    | some n => .ok (.num n)
    | none => .error (.fault .malformed)
  | .text (some s) => .ok (.str s)
  | .text none => .error (.fault .malformed)
  | .array items stop => do
    let items ← sortedItems items
    Codec.readStop stop
    pure (.arr items)
  | .object members stop => do
    let members ← sortedMembers [] members
    Codec.readStop stop
    pure (.obj members)
  | .broken b => .error (.fault b.read)

def sortedItems : List Draft → Except ReadError (List Json)
  | [] => .ok []
  | v :: vs => do
    let v ← sorted v
    let vs ← sortedItems vs
    pure (v :: vs)

def sortedMembers (read : List (String × Json)) :
    List (Option String × Draft) → Except ReadError (List (String × Json))
  | [] => .ok read
  | (none, _) :: _ => .error (.fault .malformed)
  | (some name, v) :: rest => do
    let v ← sorted v
    sortedMembers (SortedMap.insertEntry name v read) rest

end

mutual

theorem isSorted_of_sorted : ∀ {d : Draft} {v : Json}, d.sorted = .ok v → v.isSorted
  | .null, _, h => by cases h; rfl
  | .bool _, _, h => by cases h; rfl
  | .number n, v, h => by
    unfold sorted at h
    split at h
    · next n' hn =>
      cases h
      exact (Option.filter_eq_some_iff.1 hn).2
    · cases h
  | .text (some _), _, h => by cases h; rfl
  | .text none, _, h => by cases h
  | .array items stop, v, h => by
    simp only [sorted, bind, Except.bind] at h
    split at h
    · cases h
    · next vs hvs =>
      split at h
      · cases h
      · cases h
        exact areSorted_of_sortedItems hvs
  | .object members stop, v, h => by
    simp only [sorted, bind, Except.bind] at h
    split at h
    · cases h
    · next vs hvs =>
      split at h
      · cases h
      · cases h
        have hread := haveSorted_of_sortedMembers .nil rfl hvs
        simp [Json.isSorted, hread.1, hread.2]
  | .broken _, _, h => by cases h

theorem areSorted_of_sortedItems : ∀ {items : List Draft} {vs : List Json},
    sortedItems items = .ok vs → Json.areSorted vs
  | [], _, h => by cases h; rfl
  | d :: ds, vs, h => by
    simp only [sortedItems, bind, Except.bind] at h
    split at h
    · cases h
    · next v hv =>
      split at h
      · cases h
      · next vs hvs =>
        cases h
        simp [Json.areSorted, isSorted_of_sorted hv, areSorted_of_sortedItems hvs]

theorem haveSorted_of_sortedMembers : ∀ {read : List (String × Json)}
    {members : List (Option String × Draft)} {vs : List (String × Json)},
    read.Pairwise (fun a b => compare a.1 b.1 = .lt) → Json.haveSorted read →
    sortedMembers read members = .ok vs →
    vs.Pairwise (fun a b => compare a.1 b.1 = .lt) ∧ Json.haveSorted vs
  | _, [], _, hordered, hread, h => by
    cases h
    exact ⟨hordered, hread⟩
  | _, (none, _) :: _, _, _, _, h => by cases h
  | read, (some name, d) :: rest, vs, hordered, hread, h => by
    simp only [sortedMembers, bind, Except.bind] at h
    split at h
    · cases h
    · next v hv =>
      exact haveSorted_of_sortedMembers (SortedMap.insertEntry_pairwise name v hordered)
        (Json.haveSorted_insertEntry (isSorted_of_sorted hv) hread) h

end

end Draft

/-- A value with its members sorted.  It is no null, which says the same as no value at all. -/
structure SortedJson where
  json : Json
  isSorted : json.isSorted = true
  notNull : json ≠ .null
  deriving DecidableEq

def SortedJson.codec : Codec SortedJson where
  write v := v.json
  read d :=
    match h : d.sorted with
    | .ok v =>
      if hnull : v = .null then .error (.fault .malformed)
      else .ok ⟨v, Draft.isSorted_of_sorted h, hnull⟩
    | .error e => .error e

end ModelKeeper

import Mathlib.Data.List.Nodup
import Mathlib.Data.List.Perm.Subperm
import Mathlib.Data.List.Forall2
import ModelKeeper.Json.Codec

/-!
# What the comparison of written values tells

Two values are compared by their JSON forms (`Json.same`), where an object counts as a map.  A codec
is `Codec.Exact` if this is the comparison of the values themselves.

For records everything comes down to their fields: `Fields.same_members` says that the JSON objects
of two records are equal if the fields are, one by one, which holds as long as no two fields have
the same name.  From this and the exactness of the fields follows that of the record
(`Codec.exact_of_fields`).

Where values are compared again and again, it is enough that the comparison is reflexive and
transitive (`Codec.Comparable`).  Exact codecs have this property; that of a record comes from its
fields (`Codec.comparable_of_fields`).
-/

namespace ModelKeeper

namespace Json

/-! ### Members by name -/

theorem mem_of_member? {name : String} {v : Json} :
    ∀ {members : List (String × Json)}, member? name members = some v → (name, v) ∈ members
  | (n, w) :: rest, h => by
    unfold member? at h
    split at h
    · next hn =>
      obtain rfl := Option.some.inj h
      exact hn ▸ List.mem_cons_self ..
    · exact List.mem_cons_of_mem _ (mem_of_member? h)

theorem member?_of_mem {name : String} {v : Json} :
    ∀ {members : List (String × Json)}, (members.map (·.1)).Nodup → (name, v) ∈ members →
      member? name members = some v
  | (n, w) :: rest, hnodup, h => by
    rw [List.map_cons, List.nodup_cons] at hnodup
    unfold member?
    rcases List.mem_cons.1 h with heq | h
    · obtain ⟨rfl, rfl⟩ := Prod.mk.inj heq
      exact if_pos rfl
    · have hne : n ≠ name := fun heq =>
        hnodup.1 (List.mem_map.2 ⟨(name, v), h, heq.symm⟩)
      rw [if_neg hne]
      exact member?_of_mem hnodup.2 h

theorem member?_eq_none {name : String} :
    ∀ {members : List (String × Json)}, name ∉ members.map (·.1) → member? name members = none
  | [], _ => rfl
  | (n, w) :: rest, h => by
    rw [List.map_cons, List.mem_cons, not_or] at h
    unfold member?
    rw [if_neg (Ne.symm h.1)]
    exact member?_eq_none h.2

theorem isSome_member? {name : String} {members : List (String × Json)} :
    (member? name members).isSome ↔ name ∈ members.map (·.1) := by
  constructor
  · intro h
    by_contra hname
    rw [member?_eq_none hname] at h
    cases h
  · intro h
    induction members with
    | nil => cases h
    | cons e rest ih =>
      obtain ⟨n, v⟩ := e
      unfold member?
      split
      · rfl
      · next hne => exact ih ((List.mem_cons.1 h).resolve_left (Ne.symm hne))

theorem member?_append (name : String) (as bs : List (String × Json)) :
    member? name (as ++ bs) = (member? name as <|> member? name bs) := by
  induction as with
  | nil => rfl
  | cons a as ih =>
    obtain ⟨n, v⟩ := a
    simp only [List.cons_append, member?]
    split
    · rfl
    · exact ih

/-! ### Comparison -/

theorem sameMembers_iff {as bs : List (String × Json)} :
    sameMembers as bs ↔ ∀ name a, (name, a) ∈ as → ∃ b, member? name bs = some b ∧ a.same b := by
  induction as with
  | nil => simp [sameMembers]
  | cons e rest ih =>
    obtain ⟨n, v⟩ := e
    simp only [sameMembers, Bool.and_eq_true, ih, List.mem_cons, Prod.mk.injEq]
    constructor
    · rintro ⟨hv, hrest⟩ name a (⟨rfl, rfl⟩ | h)
      · cases hb : member? name bs with
        | none => simp [hb] at hv
        | some b => exact ⟨b, rfl, by simpa [hb] using hv⟩
      · exact hrest name a h
    · intro h
      obtain ⟨b, hb, hv⟩ := h n v (.inl ⟨rfl, rfl⟩)
      exact ⟨by simpa [hb] using hv, fun name a ha => h name a (.inr ha)⟩

theorem sameItems_iff {as bs : List Json} :
    sameItems as bs ↔ List.Forall₂ (fun a b => a.same b) as bs := by
  induction as generalizing bs with
  | nil => cases bs <;> simp [sameItems]
  | cons a as ih => cases bs <;> simp [sameItems, ih]

/-- Whether two values that may be left out are equal. -/
def sameIfAny : Option Json → Option Json → Prop
  | none, none => True
  | some v, some w => v.same w
  | _, _ => False

theorem sameIfAny_none_iff {w : Option Json} : sameIfAny none w ↔ w = none := by
  cases w <;> simp [sameIfAny]

theorem sameIfAny_some_iff {v : Json} {w : Option Json} :
    sameIfAny (some v) w ↔ ∃ w', w = some w' ∧ v.same w' := by
  cases w <;> simp [sameIfAny]

theorem sameIfAny.isSome_iff {v w : Option Json} (h : sameIfAny v w) : v.isSome ↔ w.isSome := by
  cases v <;> cases w <;> simp_all [sameIfAny]

/-- **An object equals the values with the same members**, in whatever order. -/
theorem same_obj_iff {as : List (String × Json)} (hnodup : (as.map (·.1)).Nodup) {w : Json} :
    (Json.obj as).same w ↔ ∃ bs, w = .obj bs ∧ (bs.map (·.1)).Nodup ∧
      ∀ name, sameIfAny (member? name as) (member? name bs) := by
  constructor
  · intro h
    cases w with
    | obj bs =>
      simp only [same, Bool.and_eq_true, beq_iff_eq, sameMembers_iff] at h
      obtain ⟨hlength, hmembers⟩ := h
      have hsubset : as.map (·.1) ⊆ bs.map (·.1) := fun name hname => by
        obtain ⟨⟨n, a⟩, ha, rfl⟩ := List.mem_map.1 hname
        obtain ⟨b, hb, -⟩ := hmembers n a ha
        exact isSome_member?.1 (by rw [hb]; rfl)
      -- there are as many names, so the other object has no more than these
      have hperm : (as.map (·.1)).Perm (bs.map (·.1)) :=
        (List.subperm_of_subset hnodup hsubset).perm_of_length_le (by simp [hlength])
      refine ⟨bs, rfl, hperm.nodup_iff.1 hnodup, fun name => ?_⟩
      cases ha : member? name as with
      | some a =>
        obtain ⟨b, hb, hsame⟩ := hmembers name a (mem_of_member? ha)
        rw [hb]
        exact hsame
      | none =>
        rw [sameIfAny_none_iff]
        refine member?_eq_none fun hname => ?_
        have := isSome_member?.2 (hperm.mem_iff.2 hname)
        rw [ha] at this
        cases this
    | _ => cases h
  · rintro ⟨bs, rfl, hnodup', h⟩
    have hperm : (as.map (·.1)).Perm (bs.map (·.1)) :=
      (List.perm_ext_iff_of_nodup hnodup hnodup').2 fun name => by
        rw [← isSome_member?, ← isSome_member?, (h name).isSome_iff]
    have hlength : as.length = bs.length := by simpa using hperm.length_eq
    simp only [same, hlength, beq_self_eq_true, Bool.true_and, sameMembers_iff]
    intro name a ha
    have hname := h name
    rw [member?_of_mem hnodup ha] at hname
    exact sameIfAny_some_iff.1 hname

end Json

/-! ### Exact codecs -/

/-- Whether values are equal if their JSON forms are. -/
def Codec.Exact {α : Type} (c : Codec α) : Prop := ∀ a b, (c.write a).same (c.write b) ↔ a = b

/-- Whether values of a field are equal if what is written of them is. -/
def Field.Exact {α : Type} (f : Field α) : Prop :=
  ∀ a b, Json.sameIfAny (f.write a) (f.write b) ↔ a = b

namespace Codec

variable {α : Type} {c : Codec α}

@[simp]
theorem exact_string : string.Exact := fun a b => by simp [string, Json.same]

@[simp]
theorem exact_bool : bool.Exact := fun a b => by simp [bool, Json.same]

@[simp]
theorem exact_int (low high : Int) (name : String) : (int low high name).Exact := fun a b => by
  simp [int, Json.int, Json.same, Number.same]

@[simp]
theorem exact_list (h : c.Exact) : (list c).Exact := fun as bs => by
  have hitems : List.Forall₂ (fun a b => (c.write a).same (c.write b)) as bs ↔ as = bs := by
    simp only [h _ _, List.forall₂_eq_eq_eq]
  rw [← hitems]
  simp [list, Json.same, Json.sameItems_iff]

end Codec

namespace Field

variable {α : Type} {c : Codec α}

@[simp]
theorem exact_withDefault (h : c.Exact) (name : String) (default : α) :
    (withDefault name c default).Exact := fun a b => h a b

@[simp]
theorem exact_required (h : c.Exact) (name : String) : (required name c).Exact := fun a b => h a b

@[simp]
theorem exact_optional (h : c.Exact) (name : String) : (optional name c).Exact := fun a b => by
  cases a <;> cases b <;> simp [optional, Json.sameIfAny, h _ _]

@[simp]
theorem exact_unlessDefault [DecidableEq α] (h : c.Exact) (name : String) (default : α) :
    (unlessDefault name c default).Exact := fun a b => by
  unfold unlessDefault
  simp only
  split
  · next ha =>
    subst ha
    split
    · next hb => simp [Json.sameIfAny, hb]
    · next hb => simp [Json.sameIfAny, Ne.symm hb]
  · next ha =>
    split
    · next hb => simp [Json.sameIfAny, hb, ha]
    · simp [Json.sameIfAny, h a b]

@[simp]
theorem exact_unlessEmpty (h : c.Exact) (name : String) : (unlessEmpty name c).Exact :=
  fun as bs => by
  have hlist := Codec.exact_list h as bs
  cases as <;> cases bs <;> simp_all [unlessEmpty, Json.sameIfAny]

end Field

/-! ### Maps -/

namespace SortedMap

variable {α : Type}

theorem nodup_of_ascending {l : List (String × α)}
    (h : l.Pairwise fun a b => compare a.1 b.1 = .lt) : (l.map (·.1)).Nodup := by
  rw [List.Nodup, List.pairwise_map]
  refine h.imp fun {a b} hlt heq => ?_
  rw [heq, Std.ReflOrd.compare_self] at hlt
  cases hlt

theorem names_nodup (m : Dict α) : (m.entries.map (·.1)).Nodup := nodup_of_ascending m.ordered

theorem ext_entries {m m' : Dict α} (h : m.entries = m'.entries) : m = m' := by
  cases m
  cases m'
  cases h
  rfl

/-- Maps with the same entries are equal, whatever the order. -/
theorem eq_of_perm {m m' : Dict α} (h : m.entries.Perm m'.entries) : m = m' := by
  refine ext_entries (h.eq_of_pairwise (fun a b _ _ hab hba => ?_) m.ordered m'.ordered)
  exact absurd (Std.OrientedCmp.gt_of_lt hab) (by rw [hba]; exact Ordering.noConfusion)

theorem mem_iff_lookup {name : String} {a : α} {l : List (String × α)}
    (hnodup : (l.map (·.1)).Nodup) : (name, a) ∈ l ↔ lookup name l = some a := by
  induction l with
  | nil => simp [lookup]
  | cons e l ih =>
    obtain ⟨n, b⟩ := e
    obtain ⟨hname, hrest⟩ := List.nodup_cons.1 hnodup
    simp only [List.mem_cons, Prod.mk.injEq, lookup, Std.LawfulEqOrd.compare_eq_iff_eq, ih hrest]
    split
    · next heq =>
      subst heq
      -- the name of the first entry does not come again
      have hnone : lookup name l ≠ some a := fun h =>
        hname (List.mem_map.2 ⟨(name, a), (ih hrest).2 h, rfl⟩)
      simp [hnone, eq_comm]
    · next hne => simp [hne]

theorem ext_get? {m m' : Dict α} (h : ∀ name, m.get? name = m'.get? name) : m = m' :=
  eq_of_perm <| (List.perm_ext_iff_of_nodup (.of_map _ m.names_nodup)
    (.of_map _ m'.names_nodup)).2 fun (name, a) => by
      rw [mem_iff_lookup m.names_nodup, mem_iff_lookup m'.names_nodup]
      exact Eq.congr_left (h name)

end SortedMap

namespace Codec

variable {α : Type} {c : Codec α}

/-- The members of what is written of a map. -/
theorem member?_entries (c : Codec α) (m : Dict α) (name : String) :
    Json.member? name (m.entries.map fun e => (e.1, c.write e.2)) =
      (m.get? name).map c.write := by
  unfold SortedMap.get?
  induction m.entries with
  | nil => rfl
  | cons e l ih =>
    simp only [List.map_cons, Json.member?, SortedMap.lookup, ih,
      Std.LawfulEqOrd.compare_eq_iff_eq, eq_comm (a := e.1)]
    split <;> rfl

theorem nodup_entries (c : Codec α) (m : Dict α) :
    ((m.entries.map fun e => (e.1, c.write e.2)).map (·.1)).Nodup := by
  rw [List.map_map]
  exact m.names_nodup

theorem same_dict_iff {m : Dict α} {w : Json} :
    ((dict c).write m).same w ↔ ∃ bs, w = .obj bs ∧ (bs.map (·.1)).Nodup ∧
      ∀ name, Json.sameIfAny ((m.get? name).map c.write) (Json.member? name bs) := by
  simp only [← member?_entries]
  exact Json.same_obj_iff (nodup_entries c m)

@[simp]
theorem exact_dict (h : c.Exact) : (dict c).Exact := fun m m' => by
  rw [same_dict_iff]
  constructor
  · rintro ⟨bs, hbs, -, hmembers⟩
    obtain rfl := Json.obj.inj hbs
    refine SortedMap.ext_get? fun name => ?_
    have hname := hmembers name
    rw [member?_entries] at hname
    cases ha : m.get? name <;> cases hb : m'.get? name <;>
      simp_all [Json.sameIfAny, h _ _]
  · rintro rfl
    refine ⟨_, rfl, nodup_entries c m, fun name => ?_⟩
    rw [member?_entries]
    cases m.get? name <;> simp [Json.sameIfAny, h _ _]

end Codec

/-! ### Records -/

namespace Fields

/-- The names of the fields. -/
def names : {τ : Type} → Fields τ → List String
  | _, .nil => []
  | _, .cons f rest => f.name :: rest.names

/-- Whether two records agree, field by field. -/
def Agree : {τ : Type} → Fields τ → τ → τ → Prop
  | _, .nil, _, _ => True
  | _, .cons f rest, a, b => Json.sameIfAny (f.write a.1) (f.write b.1) ∧ rest.Agree a.2 b.2

/-- Whether every field is exact. -/
@[simp]
def Exact : {τ : Type} → Fields τ → Prop
  | _, .nil => True
  | _, .cons f rest => f.Exact ∧ rest.Exact

theorem agree_iff_eq : {τ : Type} → {fs : Fields τ} → fs.Exact → ∀ a b, fs.Agree a b ↔ a = b
  | _, .nil, _, _, _ => by simp [Agree]
  | _, .cons f rest, h, a, b => by
    rw [Agree, h.1, agree_iff_eq h.2, Prod.ext_iff]

theorem name_mem_names {name : String} {v : Json} :
    {τ : Type} → {fs : Fields τ} → {t : τ} → (name, v) ∈ fs.members t → name ∈ fs.names
  | _, .cons f rest, (a, b), h => by
    unfold members at h
    split at h
    · rcases List.mem_cons.1 h with heq | h
      · rw [(Prod.mk.inj heq).1]
        exact List.mem_cons_self ..
      · exact List.mem_cons_of_mem _ (name_mem_names h)
    · exact List.mem_cons_of_mem _ (name_mem_names h)

/-- The member of the first field, if it is written. -/
theorem members_cons {α β : Type} (f : Field α) (rest : Fields β) (a : α) (b : β) :
    (cons f rest).members (a, b) =
      (match f.write a with
        | some v => [(f.name, v)]
        | none => []) ++ rest.members b := by
  cases h : f.write a <;> simp [members, h]

theorem member?_name {β : Type} {name : String} {rest : Fields β} (hnodup : name ∉ rest.names)
    (b : β) : Json.member? name (rest.members b) = none := by
  refine Json.member?_eq_none fun h => ?_
  obtain ⟨⟨n, v⟩, hmem, rfl⟩ := List.mem_map.1 h
  exact hnodup (name_mem_names hmem)

/-- The first field tells one member, the other fields the others. -/
theorem member?_cons {α β : Type} {f : Field α} {rest : Fields β} (name : String) (a : α) (b : β) :
    Json.member? name ((cons f rest).members (a, b)) =
      if f.name = name then f.write a <|> Json.member? name (rest.members b)
      else Json.member? name (rest.members b) := by
  rw [members_cons, Json.member?_append]
  cases f.write a with
  | none => simp [Json.member?]
  | some v => by_cases hname : f.name = name <;> simp [Json.member?, hname]

/-- The member of the first field. -/
theorem member?_head {α β : Type} {f : Field α} {rest : Fields β} (hname : f.name ∉ rest.names)
    (a : α) (b : β) : Json.member? f.name ((cons f rest).members (a, b)) = f.write a := by
  rw [member?_cons, if_pos rfl, member?_name hname]
  cases f.write a <;> rfl

theorem nodup_members {τ : Type} {fs : Fields τ} (hnodup : fs.names.Nodup) (t : τ) :
    ((fs.members t).map (·.1)).Nodup := by
  induction fs with
  | nil => exact List.nodup_nil
  | cons f rest ih =>
    obtain ⟨a, b⟩ := t
    obtain ⟨hname, hrest⟩ := List.nodup_cons.1 hnodup
    unfold members
    split
    · refine List.nodup_cons.2 ⟨fun h => ?_, ih hrest b⟩
      obtain ⟨⟨n, v⟩, hmem, rfl⟩ := List.mem_map.1 h
      exact hname (name_mem_names hmem)
    · exact ih hrest b

/-- Two records agree if what is written of them does, member by member. -/
theorem agree_iff {τ : Type} {fs : Fields τ} (hnodup : fs.names.Nodup) (a b : τ) :
    fs.Agree a b ↔ ∀ name,
      Json.sameIfAny (Json.member? name (fs.members a)) (Json.member? name (fs.members b)) := by
  induction fs with
  | nil => exact iff_of_true trivial fun _ => trivial
  | cons f rest ih =>
    obtain ⟨hname, hrest⟩ := List.nodup_cons.1 hnodup
    obtain ⟨a, as⟩ := a
    obtain ⟨b, bs⟩ := b
    rw [Agree, ih hrest]
    constructor
    · rintro ⟨hhead, htail⟩ name
      -- a name belongs to one field at most
      by_cases hn : f.name = name
      · subst hn
        rwa [member?_head hname, member?_head hname]
      · simpa only [member?_cons, if_neg hn] using htail name
    · intro h
      refine ⟨by simpa only [member?_head hname] using h f.name, fun name => ?_⟩
      by_cases hn : f.name = name
      · subst hn
        rw [member?_name hname, member?_name hname]
        trivial
      · simpa only [member?_cons, if_neg hn] using h name

/-- Two records are written as equal objects if they agree field by field. -/
theorem same_members {τ : Type} {fs : Fields τ} (hnodup : fs.names.Nodup) (a b : τ) :
    (Json.obj (fs.members a)).same (.obj (fs.members b)) ↔ fs.Agree a b := by
  rw [Json.same_obj_iff (nodup_members hnodup a), agree_iff hnodup]
  constructor
  · rintro ⟨bs, hbs, -, h⟩
    exact Json.obj.inj hbs ▸ h
  · exact fun h => ⟨_, rfl, nodup_members hnodup b, h⟩

end Fields

/-- A codec for records is exact if all of its fields are. -/
theorem Codec.exact_of_fields {σ τ : Type} {c : Codec σ} {fs : Fields τ} {fields : σ → τ}
    (hwrite : ∀ s, c.write s = .obj (fs.members (fields s))) (hnames : fs.names.Nodup)
    (hfields : fs.Exact) (hinjective : ∀ s t, fields s = fields t → s = t) :
    c.Exact := fun s t => by
  rw [hwrite, hwrite, Fields.same_members hnames, Fields.agree_iff_eq hfields]
  exact ⟨hinjective s t, fun h => h ▸ rfl⟩

/-! ### Comparable codecs -/

/-- Whether the equality of what is written of values is reflexive and transitive. -/
structure Codec.Comparable {α : Type} (c : Codec α) : Prop where
  refl : ∀ a, (c.write a).same (c.write a)
  trans : ∀ a b d, (c.write a).same (c.write b) → (c.write b).same (c.write d) →
    (c.write a).same (c.write d)

/-- Whether the equality of what is written of a field is reflexive and transitive. -/
structure Field.Comparable {α : Type} (f : Field α) : Prop where
  refl : ∀ a, Json.sameIfAny (f.write a) (f.write a)
  trans : ∀ a b d, Json.sameIfAny (f.write a) (f.write b) →
    Json.sameIfAny (f.write b) (f.write d) → Json.sameIfAny (f.write a) (f.write d)

/-- Whether every field is comparable. -/
@[simp]
def Fields.Comparable : {τ : Type} → Fields τ → Prop
  | _, .nil => True
  | _, .cons f rest => f.Comparable ∧ rest.Comparable

section

variable {α : Type} {c : Codec α}

theorem Codec.Exact.comparable (h : c.Exact) : c.Comparable where
  refl a := (h a a).2 rfl
  trans a b d hab hbd := (h a d).2 (((h a b).1 hab).trans ((h b d).1 hbd))

theorem Field.Exact.comparable {f : Field α} (h : f.Exact) : f.Comparable where
  refl a := (h a a).2 rfl
  trans a b d hab hbd := (h a d).2 (((h a b).1 hab).trans ((h b d).1 hbd))

theorem Codec.Comparable.withDefault (h : c.Comparable) (name : String) (default : α) :
    (Field.withDefault name c default).Comparable := ⟨h.refl, h.trans⟩

theorem Codec.Comparable.list (h : c.Comparable) : (Codec.list c).Comparable where
  refl as := by
    simp only [Codec.list, Json.same, Json.sameItems_iff, List.forall₂_map_left_iff,
      List.forall₂_map_right_iff]
    exact List.forall₂_same.2 fun a _ => h.refl a
  trans as bs ds := by
    simp only [Codec.list, Json.same, Json.sameItems_iff, List.forall₂_map_left_iff,
      List.forall₂_map_right_iff]
    intro hab
    -- lists are compared place by place
    induction hab generalizing ds with
    | nil => exact id
    | cons hhead _ ih =>
      intro hbd
      cases hbd with
      | cons hhead' htail => exact .cons (h.trans _ _ _ hhead hhead') (ih _ htail)

theorem Codec.Comparable.optional (h : c.Comparable) (name : String) :
    (Field.optional name c).Comparable where
  refl a := by
    cases a with
    | none => trivial
    | some a => exact h.refl a
  trans a b d hab hbd := by
    cases a <;> cases b <;> cases d <;> try contradiction
    · trivial
    · exact h.trans _ _ _ hab hbd

end

namespace Fields

theorem agree_refl : {τ : Type} → {fs : Fields τ} → fs.Comparable → ∀ t, fs.Agree t t
  | _, .nil, _, _ => trivial
  | _, .cons _ _, h, (a, b) => ⟨h.1.refl a, agree_refl h.2 b⟩

theorem agree_trans : {τ : Type} → {fs : Fields τ} → fs.Comparable → ∀ s t u,
    fs.Agree s t → fs.Agree t u → fs.Agree s u
  | _, .nil, _, _, _, _, _, _ => trivial
  | _, .cons _ _, h, s, t, u, hst, htu =>
    ⟨h.1.trans s.1 t.1 u.1 hst.1 htu.1, agree_trans h.2 s.2 t.2 u.2 hst.2 htu.2⟩

end Fields

/-- A codec for records is comparable if all of its fields are. -/
theorem Codec.comparable_of_fields {σ τ : Type} {c : Codec σ} {fs : Fields τ} {fields : σ → τ}
    (hwrite : ∀ s, c.write s = .obj (fs.members (fields s))) (hnames : fs.names.Nodup)
    (hfields : fs.Comparable) : c.Comparable := by
  have hsame : ∀ s t, (c.write s).same (c.write t) ↔ fs.Agree (fields s) (fields t) :=
    fun s t => by rw [hwrite, hwrite, Fields.same_members hnames]
  constructor
  · intro s
    rw [hsame]
    exact Fields.agree_refl hfields _
  · intro s t u
    rw [hsame, hsame, hsame]
    exact Fields.agree_trans hfields _ _ _

end ModelKeeper

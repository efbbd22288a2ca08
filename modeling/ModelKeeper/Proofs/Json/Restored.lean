import ModelKeeper.Proofs.Json.AnyOrder

/-!
# What comes back from JSON

A codec restores a value (`Codec.Restores`) if it reads the value from what it writes of it.  There
is a rule for each way to put codecs together.  For a record it is enough that its fields are
restored one by one, as long as no two have the same name (`Codec.restores_record`,
`Codec.restores_lenient`): what is left out must be the value of a field that is absent, and what is
written must be read by the field of this name (`Fields.readMembers_members`).

A record with another one inside also collects its members when it is read, for which they must not
be nested too deep (`Codec.Fits`).
-/

namespace ModelKeeper

/-- Whether a value is read from what is written of it, which is not a null. -/
structure Codec.Restores {α : Type} (c : Codec α) (a : α) : Prop where
  notNull : c.write a ≠ .null
  read : c.read (Draft.ofJson (c.write a)) = .ok a

/-- Whether the value of a field is read from what is written of it, or is the one that the field
has when it is left out. -/
structure Field.Restores {α : Type} (f : Field α) (a : α) : Prop where
  written : ∀ v, f.write a = some v → v ≠ .null ∧ f.read (Draft.ofJson v) = .ok a
  left : f.write a = none → f.absent = some a

/-- Whether the values of all fields are restored. -/
@[simp]
def Fields.Restores : {τ : Type} → Fields τ → τ → Prop
  | _, .nil, _ => True
  | _, .cons f rest, (a, b) => f.Restores a ∧ rest.Restores b

namespace Codec

variable {α : Type} {c : Codec α}

theorem Restores.ofJson? {a : α} (h : c.Restores a) : c.ofJson? (c.write a) = some a := by
  rw [Codec.ofJson?, h.read]
  rfl

/-! ### Simple values -/

@[simp]
theorem restores_string (s : String) : string.Restores s := ⟨nofun, rfl⟩

@[simp]
theorem restores_bool (b : Bool) : bool.Restores b := ⟨nofun, rfl⟩

theorem restores_int {low high n : Int} (hlow : low ≤ n) (hhigh : n ≤ high) (name : String) :
    (int low high name).Restores n where
  notNull := nofun
  read := if_pos ⟨hlow, hhigh⟩

@[simp]
theorem restores_word16 (n : UInt16) : word16.Restores n where
  notNull := nofun
  read := by
    have hn := n.toNat_lt
    have hint : (int 0 65535 "u16").Restores n.toNat := restores_int (by omega) (by omega) _
    have hread : word16.read (Draft.ofJson (word16.write n)) =
        ((int 0 65535 "u16").read (Draft.ofJson ((int 0 65535 "u16").write n.toNat)) >>=
          fun n => .ok n.toNat.toUInt16) := rfl
    rw [hread, hint.read]
    exact congrArg Except.ok UInt16.ofNat_toNat

/-! ### Collections -/

theorem readItems_write {as : List α} (h : ∀ a ∈ as, c.Restores a) :
    readItems c (Draft.ofItems (as.map c.write)) = .ok as := by
  induction as with
  | nil => rfl
  | cons a as ih =>
    have hrest := ih fun b hb => h b (List.mem_cons_of_mem _ hb)
    simp only [List.map_cons, Draft.ofItems, readItems, (h a List.mem_cons_self).read, hrest]
    rfl

@[simp]
theorem restores_list {as : List α} (h : ∀ a ∈ as, c.Restores a) : (list c).Restores as where
  notNull := nofun
  read := by
    simp only [list, Draft.ofJson, readItems_write h]
    rfl

end Codec

/-! ### Maps -/

namespace SortedMap

variable {α : Type}

/-- What is put behind all entries of a map stands at the end. -/
theorem insertEntry_last {name : String} {a : α} {l : List (String × α)}
    (h : ∀ e ∈ l, compare e.1 name = .lt) : insertEntry name a l = l ++ [(name, a)] := by
  induction l with
  | nil => rfl
  | cons e l ih =>
    have hgt : compare name e.1 = .gt := Std.OrientedCmp.gt_of_lt (h e List.mem_cons_self)
    have hrest := ih fun e' he' => h e' (List.mem_cons_of_mem _ he')
    simp only [insertEntry, hgt, hrest, List.cons_append]

end SortedMap

namespace Codec

variable {α : Type} {c : Codec α}

/-- The entries of a map are read one after the other, and each one is put at the end. -/
theorem readEntries_write {m m' : Dict α} {l : List (String × α)}
    (hentries : m'.entries = m.entries ++ l) (h : ∀ e ∈ l, c.Restores e.2) :
    readEntries c m (Draft.ofMembers (l.map fun e => (e.1, c.write e.2))) = .ok m' := by
  induction l generalizing m with
  | nil =>
    rw [List.append_nil] at hentries
    exact congrArg Except.ok (SortedMap.ext_entries hentries.symm)
  | cons e l ih =>
    -- the entries of a map ascend, so those that have been read lie before this one
    have hlast : ∀ x ∈ m.entries, compare x.1 e.1 = .lt := fun x hx => by
      have hordered := m'.ordered
      rw [hentries, List.pairwise_append] at hordered
      exact hordered.2.2 x hx e List.mem_cons_self
    have hinsert : (m.insert e.1 e.2).entries = m.entries ++ [e] :=
      SortedMap.insertEntry_last hlast
    have hrest := ih (m := m.insert e.1 e.2) (by rw [hinsert, hentries, List.append_assoc]; rfl)
      fun x hx => h x (List.mem_cons_of_mem _ hx)
    simp only [List.map_cons, Draft.ofMembers, readEntries, (h e List.mem_cons_self).read]
    exact hrest

@[simp]
theorem restores_dict {m : Dict α} (h : ∀ e ∈ m.entries, c.Restores e.2) :
    (dict c).Restores m where
  notNull := nofun
  read := by
    have hentries : m.entries = (SortedMap.empty : Dict α).entries ++ m.entries := rfl
    simp only [dict, Draft.ofJson, readEntries_write hentries h]
    rfl

end Codec

/-! ### Fields -/

namespace Field

variable {α : Type} {c : Codec α} {a : α}

@[simp]
theorem restores_required (h : c.Restores a) (name : String) : (required name c).Restores a where
  written v hv := by
    obtain rfl := Option.some.inj hv
    exact ⟨h.notNull, h.read⟩
  left := nofun

@[simp]
theorem restores_withDefault (h : c.Restores a) (name : String) (default : α) :
    (withDefault name c default).Restores a where
  written v hv := by
    obtain rfl := Option.some.inj hv
    exact ⟨h.notNull, h.read⟩
  left := nofun

/-- A draft of what is no null is none. -/
theorem ofJson_ne_null {v : Json} (h : v ≠ .null) : Draft.ofJson v ≠ .null := by
  cases v with
  | null => exact absurd rfl h
  | _ => exact nofun

theorem read_optional {name : String} {d : Draft} (h : d ≠ .null) :
    (optional name c).read d = (c.read d).map some := by
  cases d with
  | null => exact absurd rfl h
  | _ => rfl

@[simp]
theorem restores_optional {a : Option α} (h : ∀ x, a = some x → c.Restores x) (name : String) :
    (optional name c).Restores a where
  written v hv := by
    obtain ⟨x, rfl, rfl⟩ := Option.map_eq_some_iff.mp hv
    have hx := h x rfl
    refine ⟨hx.notNull, ?_⟩
    rw [read_optional (ofJson_ne_null hx.notNull), hx.read]
    rfl
  left hnone := by
    rw [Option.map_eq_none_iff.mp hnone]
    rfl

@[simp]
theorem restores_optionalPart {a : Option α} (h : ∀ x, a = some x → c.Restores x)
    (name : String) : (optionalPart name c).Restores a :=
  ⟨(restores_optional h name).written, (restores_optional h name).left⟩

@[simp]
theorem restores_unlessDefault [DecidableEq α] (h : c.Restores a) (name : String) (default : α) :
    (unlessDefault name c default).Restores a where
  written v hv := by
    obtain ⟨-, hv⟩ := Option.ite_none_left_eq_some.mp hv
    obtain rfl := Option.some.inj hv
    exact ⟨h.notNull, h.read⟩
  left hnone := by
    have hdefault : a = default := by
      by_contra hne
      simp [unlessDefault, hne] at hnone
    exact congrArg some hdefault.symm

@[simp]
theorem restores_unlessEmpty {as : List α} (h : ∀ a ∈ as, c.Restores a) (name : String) :
    (unlessEmpty name c).Restores as where
  written v hv := by
    obtain ⟨-, hv⟩ := Option.ite_none_left_eq_some.mp hv
    obtain rfl := Option.some.inj hv
    have hlist := Codec.restores_list h
    exact ⟨hlist.notNull, hlist.read⟩
  left hnone := by
    cases as with
    | nil => rfl
    | cons a as => cases hnone

end Field

/-! ### Records -/

namespace Fields

theorem tells_of_restores {name : String} {v : Json} : {τ : Type} → {fs : Fields τ} → {t : τ} →
    fs.Restores t → (name, v) ∈ fs.members t → fs.Tells t name (Draft.ofJson v)
  | _, .cons f rest, (a, b), h, hmem => by
    obtain ⟨hf, hrest⟩ := h
    rw [members_cons] at hmem
    -- the member is written by the first field, or by a later one
    rcases List.mem_append.1 hmem with hmem | hmem
    · cases hwrite : f.write a with
      | none =>
        rw [hwrite] at hmem
        cases hmem
      | some w =>
        rw [hwrite] at hmem
        obtain ⟨rfl, rfl⟩ := Prod.mk.inj (List.mem_singleton.1 hmem)
        obtain ⟨hnull, hread⟩ := hf.written v hwrite
        exact .inl ⟨rfl, Field.ofJson_ne_null hnull, hread⟩
    · exact .inr (tells_of_restores hrest hmem)

theorem defaults_of_restores : {τ : Type} → {fs : Fields τ} → {t : τ} → fs.Restores t →
    fs.Defaults t
  | _, .nil, _, _ => trivial
  | _, .cons _ _, (_, _), h => ⟨h.1.left, defaults_of_restores h.2⟩

/-- **All fields are read from what is written of them**, in a record whose fields have different
names. -/
theorem readMembers_members (custom : Custom) {τ : Type} {fs : Fields τ}
    (hnodup : fs.names.Nodup) {t : τ} (h : fs.Restores t) :
    ∃ slots, readMembers custom fs fs.noSlots (Draft.ofMembers (fs.members t)) = .ok slots ∧
      fs.finish slots = .ok t := by
  have hown : ∀ m ∈ (fs.members t).map fun m => (m.1, Draft.ofJson m.2), fs.Tells t m.1 m.2 :=
    fun m hm => by
    obtain ⟨m, hmem, rfl⟩ := List.mem_map.1 hm
    exact tells_of_restores h hmem
  refine readMembers_perm custom hnodup (defaults_of_restores h) hown (by simp)
    (List.forall_mem_nil _) ?_
  rw [Draft.ofMembers_eq_map, List.append_nil, List.map_map]
  exact .refl _

end Fields

namespace Codec

variable {σ τ : Type} {fs : Fields τ} {fields : σ → τ} {make : τ → σ} {s : σ}

section

variable (hnodup : fs.names.Nodup) (hmake : make (fields s) = s) (h : fs.Restores (fields s))
include hnodup hmake h

theorem restores_record (expected : String) : (record expected fs fields make).Restores s where
  notNull := nofun
  read := by
    obtain ⟨slots, hread, hfinish⟩ := Fields.readMembers_members .strict hnodup h
    simp only [record, Draft.ofJson, hread, readStop, bind, Except.bind, hfinish, Except.map, hmake]

theorem restores_lenient (expected : String) : (lenient expected fs fields make).Restores s where
  notNull := nofun
  read := by
    obtain ⟨slots, hread, hfinish⟩ := Fields.readMembers_members .lenient hnodup h
    simp only [lenient, Draft.ofJson, hread, readStop, bind, Except.bind, hfinish, Except.map,
      hmake]

end

end Codec

/-! ### Records inside others -/

/-- Whether what is written of a value is nested no deeper than this. -/
def Codec.Fits {α : Type} (c : Codec α) (room : Nat) : Prop :=
  ∀ a, ((Draft.ofJson (c.write a)).toJson? room).isSome

/-- Whether what is written of a field is nested no deeper than this. -/
def Field.Fits {α : Type} (f : Field α) (room : Nat) : Prop :=
  ∀ a v, f.write a = some v → ((Draft.ofJson v).toJson? room).isSome

/-- Whether what is written of the fields is nested no deeper than this, except for some of them. -/
@[simp]
def Fields.Fits (own : List String) (room : Nat) : {τ : Type} → Fields τ → Prop
  | _, .nil => True
  | _, .cons f rest => (f.name ∈ own ∨ f.Fits room) ∧ rest.Fits own room

namespace Fields

variable {own : List String} {room : Nat}

theorem fits_of_mem : {τ : Type} → {fs : Fields τ} → fs.Fits own room → ∀ {t : τ} {m},
    m ∈ fs.members t → m.1 ∈ own ∨ ((Draft.ofJson m.2).toJson? room).isSome
  | _, .cons f rest, h, (a, b), m, hm => by
    obtain ⟨hf, hrest⟩ := h
    unfold members at hm
    split at hm
    · next v hv =>
      rcases List.mem_cons.mp hm with rfl | hm
      · exact hf.imp_right fun hf => hf a v hv
      · exact fits_of_mem hrest hm
    · exact fits_of_mem hrest hm

theorem isSome_toMembers? {members : List (String × Json)}
    (h : ∀ m ∈ members, ((Draft.ofJson m.2).toJson? room).isSome) (read : List (String × Json)) :
    (Draft.toMembers? room read (Draft.ofMembers members)).isSome := by
  induction members generalizing read with
  | nil => rfl
  | cons m members ih =>
    obtain ⟨v, hv⟩ := Option.isSome_iff_exists.mp (h m List.mem_cons_self)
    simp only [Draft.ofMembers, Draft.toMembers?, hv]
    exact ih (fun m' hm' => h m' (List.mem_cons_of_mem _ hm')) _

end Fields

namespace Codec

variable {α σ τ : Type} {c : Codec α} {room : Nat}

@[simp]
theorem fits_string (room : Nat) : string.Fits room := fun _ => rfl

@[simp]
theorem fits_bool (room : Nat) : bool.Fits room := fun _ => rfl

theorem fits_obj {members : List (String × Json)}
    (h : ∀ m ∈ members, ((Draft.ofJson m.2).toJson? room).isSome) :
    ((Draft.ofJson (.obj members)).toJson? (room + 1)).isSome := by
  rw [Draft.ofJson, Draft.toJson?, if_neg (Nat.succ_ne_zero room), Option.isSome_map]
  exact Fields.isSome_toMembers? h []

theorem fits_of_fields {c : Codec σ} {fs : Fields τ} {fields : σ → τ}
    (hwrite : ∀ s, c.write s = .obj (fs.members (fields s))) (h : fs.Fits [] room) :
    c.Fits (room + 1) := fun s => by
  rw [hwrite]
  exact fits_obj fun m hm => (Fields.fits_of_mem h hm).resolve_left List.not_mem_nil

/-- The members of a record are collected if they are nested no deeper than there is room. -/
theorem collectMembers_members {own : List String} {members : List (String × Json)}
    (h : ∀ m ∈ members, m.1 ∈ own ∨ ((Draft.ofJson m.2).toJson? room).isSome) :
    collectMembers own room (Draft.ofMembers members) = .ok () := by
  induction members with
  | nil => rfl
  | cons m members ih =>
    have hfirst : own.contains m.1 || ((Draft.ofJson m.2).toJson? room).isSome := by
      simpa using h m List.mem_cons_self
    rw [Draft.ofMembers, collectMembers, if_pos hfirst]
    exact ih fun m' hm' => h m' (List.mem_cons_of_mem _ hm')

theorem restores_nested {own : List String} {fs : Fields τ} {fields : σ → τ} {make : τ → σ} {s : σ}
    (hnodup : fs.names.Nodup) (hmake : make (fields s) = s) (h : fs.Restores (fields s))
    (hfits : fs.Fits own room) (expected : String) :
    (nested expected own room fs fields make).Restores s where
  notNull := nofun
  read := by
    obtain ⟨slots, hread, hfinish⟩ := Fields.readMembers_members .strict hnodup h
    have hcollect : collectMembers own room (Draft.ofMembers (fs.members (fields s))) = .ok () :=
      collectMembers_members fun m hm => Fields.fits_of_mem hfits hm
    simp only [nested, Draft.ofJson, hcollect, hread, readStop, bind, Except.bind, hfinish,
      Except.map, hmake]

end Codec

namespace Field

variable {α : Type} {c : Codec α} {room : Nat}

@[simp]
theorem fits_withDefault (h : c.Fits room) (name : String) (default : α) :
    (withDefault name c default).Fits room := fun a v hv => by
  obtain rfl := Option.some.inj hv
  exact h a

@[simp]
theorem fits_required (h : c.Fits room) (name : String) : (required name c).Fits room :=
  fun a v hv => by
  obtain rfl := Option.some.inj hv
  exact h a

@[simp]
theorem fits_optional (h : c.Fits room) (name : String) : (optional name c).Fits room :=
  fun a v hv => by
  obtain ⟨x, rfl, rfl⟩ := Option.map_eq_some_iff.mp hv
  exact h x

end Field

end ModelKeeper

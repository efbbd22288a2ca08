import Mathlib.Data.List.Perm.Basic
import ModelKeeper.Proofs.Json.Written

/-!
# Other words for the same

The text of a record may be reworded (`Json.Rewording`): the members of an object come in another
order, and others are put among them whose names are those of no field and whose values are any
texts of JSON.  A `Json.Shape` says where in a value the records are and what fields they have.

A codec recovers a value (`Codec.Recovers`) if it reads the value from all that its text is reworded
to.  As with `Codec.Restores`, there is a rule for each way to put codecs together, and for a record
it is enough that its fields are recovered one by one (`Codec.recovers_record`).
-/

namespace ModelKeeper

namespace Json

/-- Where a value may be reworded: nowhere, in the items of a list, or as a record with these
fields. -/
inductive Shape where
  | plain
  | list (items : Shape)
  | record (fields : List (String × Shape))
  deriving Inhabited

/-- A member of a record that is reworded. -/
structure Part where
  name : String
  shape : Shape
  value : Json
  /-- What the value is reworded to. -/
  text : List UInt8

/-- A member that is put among those of a record, none of whose fields has its name. -/
structure Member.Foreign (names : List String) (m : Member) : Prop where
  before : Blank m.before
  behind : Blank m.behind
  name : ∃ cs, Spelling m.letters cs ∧ String.ofList cs ∉ names
  value : WellFormed m.value

/-- Whether a text is the text of a value in other words. -/
inductive Rewording : Shape → Json → List UInt8 → Prop
  | same {shape} (v : Json) : Rewording shape v v.bytes
  | list {shape} {items : List (Json × List UInt8)} :
    (∀ item ∈ items, Rewording shape item.1 item.2) →
    Rewording (.list shape) (.arr (items.map (·.1))) (0x5B :: listed 0x5D (items.map (·.2)))
  | record {fields} {parts : List Part} {foreign members : List Member} :
    (∀ part ∈ parts, (part.name, part.shape) ∈ fields) →
    (∀ part ∈ parts, Rewording part.shape part.value part.text) →
    (∀ m ∈ foreign, m.Foreign (fields.map (·.1))) →
    members.Perm (parts.map (fun part => .written part.name part.text) ++ foreign) →
    Rewording (.record fields) (.obj (parts.map fun part => (part.name, part.value)))
      (0x7B :: listed 0x7D (members.map Member.text))

variable {shape : Shape} {fields : List (String × Shape)} {bs : List UInt8}

/-- A member of another name may be written like all others. -/
theorem Member.foreign_written {names : List String} {name : String} (hname : name ∉ names)
    {value : List UInt8} (h : WellFormed value) : (Member.written name value).Foreign names where
  before := nofun
  behind := nofun
  name := ⟨name.toList, spelling_escape name.toList, by rwa [String.ofList_toList]⟩
  value := h

/-! ### What is reworded -/

theorem Rewording.of_plain {v : Json} (h : Rewording .plain v bs) : bs = v.bytes := by
  cases h
  rfl

theorem Rewording.of_list {items : List Json} (h : Rewording (.list shape) (.arr items) bs) :
    ∃ texts, List.Forall₂ (Rewording shape) items texts ∧ bs = 0x5B :: listed 0x5D texts := by
  cases h with
  | same =>
    refine ⟨items.map bytes, ?_, bytes_arr items⟩
    exact List.forall₂_map_right_iff.2 (List.forall₂_same.2 fun v _ => .same v)
  | @list _ items hitems =>
    refine ⟨items.map (·.2), ?_, rfl⟩
    exact List.forall₂_map_left_iff.2 (List.forall₂_map_right_iff.2 (List.forall₂_same.2 hitems))

theorem Rewording.of_record {ms : List (String × Json)}
    (h : Rewording (.record fields) (.obj ms) bs)
    (hnames : ∀ m ∈ ms, ∃ shape, (m.1, shape) ∈ fields) :
    ∃ (parts : List Part) (foreign members : List Member),
      ms = parts.map (fun part => (part.name, part.value)) ∧
      (∀ part ∈ parts, (part.name, part.shape) ∈ fields ∧
        Rewording part.shape part.value part.text) ∧
      (∀ m ∈ foreign, m.Foreign (fields.map (·.1))) ∧
      members.Perm (parts.map (fun part => .written part.name part.text) ++ foreign) ∧
      bs = 0x7B :: listed 0x7D (members.map Member.text) := by
  cases h with
  | same =>
    -- the members stand as they are written, and there are no others
    choose! shapeOf hshape using hnames
    refine ⟨ms.map fun m => ⟨m.1, shapeOf m, m.2, m.2.bytes⟩, [],
      ms.map fun m => .written m.1 m.2.bytes, ?_, ?_, nofun, ?_, ?_⟩
    · rw [List.map_map]
      exact (List.map_id ms).symm
    · intro part hpart
      obtain ⟨m, hm, rfl⟩ := List.mem_map.1 hpart
      exact ⟨hshape m hm, .same m.2⟩
    · rw [List.append_nil, List.map_map]
      exact .refl _
    · rw [bytes_obj, List.map_map]
      rfl
  | @record _ parts foreign members hmem hparts hforeign hperm =>
    exact ⟨parts, foreign, members, rfl, fun part hpart => ⟨hmem part hpart, hparts part hpart⟩,
      hforeign, hperm, rfl⟩

end Json

open Json

/-! ### What is recovered -/

/-- Whether a value is read from all that its text is reworded to. -/
def Codec.Recovers {α : Type} (c : Codec α) (shape : Shape) (a : α) : Prop :=
  ∀ bs, Rewording shape (c.write a) bs → ∃ d, Draft.Reads bs d ∧ d ≠ .null ∧ c.read d = .ok a

/-- Whether the value of a field is read from all that its text is reworded to, or is the one that
the field has when it is left out. -/
structure Field.Recovers {α : Type} (f : Field α) (shape : Shape) (a : α) : Prop where
  written : ∀ v, f.write a = some v → ∀ bs, Rewording shape v bs →
    ∃ d, Draft.Reads bs d ∧ d ≠ .null ∧ f.read d = .ok a
  left : f.write a = none → f.absent = some a

/-- Whether the values of all fields are recovered. -/
@[simp]
def Fields.Recovers (fields : List (String × Shape)) : {τ : Type} → Fields τ → τ → Prop
  | _, .nil, _ => True
  | _, .cons f rest, (a, b) =>
    (∀ shape, (f.name, shape) ∈ fields → f.Recovers shape a) ∧ rest.Recovers fields b

namespace Codec

variable {α : Type} {c : Codec α} {shape : Shape} {a : α}

theorem recovers_plain (h : c.Restores a) (hintegral : (c.write a).IsIntegral) :
    c.Recovers .plain a := fun bs hbs => by
  rw [hbs.of_plain]
  exact ⟨_, Draft.reads_bytes hintegral, Field.ofJson_ne_null h.notNull, h.read⟩

@[simp]
theorem recovers_string (s : String) : string.Recovers .plain s :=
  recovers_plain (restores_string s) .str

@[simp]
theorem recovers_bool (b : Bool) : bool.Recovers .plain b :=
  recovers_plain (restores_bool b) .bool

@[simp]
theorem recovers_list {as : List α} (h : ∀ a ∈ as, c.Recovers shape a) :
    (list c).Recovers (.list shape) as := fun bs hbs => by
  obtain ⟨texts, htexts, rfl⟩ := Rewording.of_list hbs
  -- the items are read in turn, each by what is known of it
  have hread : ∃ ds, List.Forall₂ Draft.Reads texts ds ∧ readItems c ds = .ok as := by
    clear hbs
    rw [List.forall₂_map_left_iff] at htexts
    induction htexts with
    | nil => exact ⟨[], .nil, rfl⟩
    | @cons a text as texts hfirst _ ih =>
      obtain ⟨hfirstRecovers, hrest⟩ := List.forall_mem_cons.1 h
      obtain ⟨d, hd, -, hread⟩ := hfirstRecovers text hfirst
      obtain ⟨ds, hds, hreads⟩ := ih hrest
      refine ⟨d :: ds, .cons hd hds, ?_⟩
      rw [readItems, hread, hreads]
      rfl
  obtain ⟨ds, hds, hitems⟩ := hread
  refine ⟨.array ds none, Draft.reads_array (List.forall_mem_nil _) hds, Draft.noConfusion, ?_⟩
  simp only [list, hitems]
  rfl

end Codec

namespace Field

variable {α : Type} {c : Codec α} {shape : Shape} {a : α}

@[simp]
theorem name_withDefault (name : String) (c : Codec α) (default : α) :
    (withDefault name c default).name = name := rfl

@[simp]
theorem name_optional (name : String) (c : Codec α) : (optional name c).name = name := rfl

@[simp]
theorem name_unlessDefault [DecidableEq α] (name : String) (c : Codec α) (default : α) :
    (unlessDefault name c default).name = name := rfl

@[simp]
theorem recovers_withDefault (h : c.Recovers shape a) (name : String) (default : α) :
    (withDefault name c default).Recovers shape a where
  written v hv := by
    obtain rfl := Option.some.inj hv
    exact h
  left := nofun

@[simp]
theorem recovers_optional {a : Option α} (h : ∀ x, a = some x → c.Recovers shape x)
    (name : String) : (optional name c).Recovers shape a where
  written v hv bs hbs := by
    obtain ⟨x, rfl, rfl⟩ := Option.map_eq_some_iff.mp hv
    obtain ⟨d, hd, hnull, hread⟩ := h x rfl bs hbs
    refine ⟨d, hd, hnull, ?_⟩
    rw [read_optional hnull, hread]
    rfl
  left hnone := by
    rw [Option.map_eq_none_iff.mp hnone]
    rfl

@[simp]
theorem recovers_unlessDefault [DecidableEq α] (h : c.Recovers shape a) (name : String)
    (default : α) : (unlessDefault name c default).Recovers shape a where
  written v hv := by
    obtain ⟨-, hv⟩ := Option.ite_none_left_eq_some.mp hv
    obtain rfl := Option.some.inj hv
    exact h
  left hnone := by
    have hdefault : a = default := by
      by_contra hne
      simp [unlessDefault, hne] at hnone
    exact congrArg some hdefault.symm

end Field

/-! ### Records -/

namespace Fields

variable {fields : List (String × Shape)}

theorem exists_shape {τ : Type} {fs : Fields τ} (hnames : fields.map (·.1) = fs.names)
    {name : String} (h : name ∈ fs.names) : ∃ shape, (name, shape) ∈ fields := by
  rw [← hnames] at h
  obtain ⟨m, hm, rfl⟩ := List.mem_map.1 h
  exact ⟨m.2, hm⟩

theorem defaults_of_recovers : {τ : Type} → {fs : Fields τ} → {t : τ} →
    (∀ name ∈ fs.names, ∃ shape, (name, shape) ∈ fields) → fs.Recovers fields t → fs.Defaults t
  | _, .nil, _, _, _ => trivial
  | _, .cons f rest, (a, b), hnames, h => by
    obtain ⟨⟨shape, hshape⟩, hnames⟩ := List.forall_mem_cons.1 hnames
    exact ⟨(h.1 shape hshape).left, defaults_of_recovers hnames h.2⟩

/-- What a part is reworded to tells the value of its field. -/
theorem exists_tells {name : String} {shape : Shape} {v : Json} {bs : List UInt8}
    (hshape : (name, shape) ∈ fields) (hbs : Rewording shape v bs) :
    {τ : Type} → {fs : Fields τ} → {t : τ} → fs.Recovers fields t → (name, v) ∈ fs.members t →
      ∃ d, Draft.Reads bs d ∧ fs.Tells t name d
  | _, .cons f rest, (a, b), h, hmem => by
    rw [members_cons] at hmem
    rcases List.mem_append.1 hmem with hmem | hmem
    · cases hwrite : f.write a with
      | none =>
        rw [hwrite] at hmem
        cases hmem
      | some w =>
        rw [hwrite] at hmem
        obtain ⟨rfl, rfl⟩ := Prod.mk.inj (List.mem_singleton.1 hmem)
        obtain ⟨d, hd, hnull, hread⟩ := (h.1 shape hshape).written v hwrite bs hbs
        exact ⟨d, hd, .inl ⟨rfl, hnull, hread⟩⟩
    · obtain ⟨d, hd, htells⟩ := exists_tells hshape hbs h.2 hmem
      exact ⟨d, hd, .inr htells⟩

/-- A member of another name is read and passed over. -/
theorem exists_readsMember_foreign {τ : Type} {fs : Fields τ} {m : Member}
    (h : m.Foreign fs.names) :
    ∃ told : String × Draft, Draft.ReadsMember m (some told.1, told.2) ∧
      fs.Foreign told.1 told.2 := by
  obtain ⟨cs, hspelling, hname⟩ := h.name
  obtain ⟨d, hread, hskip⟩ := Draft.exists_reads h.value
  exact ⟨(String.ofList cs, d),
    ⟨h.before, h.behind, fun rest => Draft.scanString_closed hspelling, hread⟩, hname, hskip⟩

/-- What is read of a record in other words: what its own members tell, among what is of no
concern. -/
theorem exists_told {τ : Type} {fs : Fields τ} (hnames : fields.map (·.1) = fs.names) {t : τ}
    (h : fs.Recovers fields t) {bs : List UInt8}
    (hbs : Rewording (.record fields) (.obj (fs.members t)) bs) :
    ∃ (own others : List (String × Draft)) (told : List (Option String × Draft)),
      (∀ m ∈ own, fs.Tells t m.1 m.2) ∧ own.map (·.1) = (fs.members t).map (·.1) ∧
      (∀ m ∈ others, fs.Foreign m.1 m.2) ∧
      told.Perm ((own ++ others).map fun m => (some m.1, m.2)) ∧
      Draft.Reads bs (.object told none) := by
  obtain ⟨parts, foreign, members, hwritten, hparts, hforeign, hperm, rfl⟩ :=
    Rewording.of_record hbs fun m hm => exists_shape hnames (name_mem_names hm)
  rw [hnames] at hforeign
  have hown : ∀ part ∈ parts, ∃ d, Draft.Reads part.text d ∧ fs.Tells t part.name d :=
    fun part hpart => exists_tells (hparts part hpart).1 (hparts part hpart).2 h
      (hwritten ▸ List.mem_map_of_mem hpart)
  have hothers := fun m hm => exists_readsMember_foreign (hforeign m hm)
  choose! tell htell using hown
  choose! other hother using hothers
  have hread : List.Forall₂ Draft.ReadsMember
      (parts.map (fun part => .written part.name part.text) ++ foreign)
      ((parts.map (fun part => (part.name, tell part)) ++ foreign.map other).map
        fun m => (some m.1, m.2)) := by
    rw [List.map_append, List.map_map, List.map_map]
    refine List.rel_append ?_ ?_
    · exact List.forall₂_map_left_iff.2 (List.forall₂_map_right_iff.2 (List.forall₂_same.2
        fun part hpart => Draft.readsMember_written (htell part hpart).1 part.name))
    · exact List.forall₂_map_right_iff.2 (List.forall₂_same.2 fun m hm => (hother m hm).1)
  -- in the order of the text
  obtain ⟨told, htold, htoldPerm⟩ := List.perm_comp_forall₂ hperm hread
  refine ⟨_, _, told, fun m hm => ?_, ?_, fun m hm => ?_, htoldPerm,
    Draft.reads_object (List.forall_mem_nil _) htold⟩
  · obtain ⟨part, hpart, rfl⟩ := List.mem_map.1 hm
    exact (htell part hpart).2
  · rw [hwritten, List.map_map, List.map_map]
    rfl
  · obtain ⟨m, hmem, rfl⟩ := List.mem_map.1 hm
    exact (hother m hmem).2

end Fields

/-- **A record is recovered if its fields are.** -/
theorem Codec.recovers_record {σ τ : Type} {fs : Fields τ} {fields : σ → τ} {make : τ → σ} {s : σ}
    {shapes : List (String × Shape)} (hnodup : fs.names.Nodup) (hmake : make (fields s) = s)
    (hnames : shapes.map (·.1) = fs.names) (h : fs.Recovers shapes (fields s))
    (expected : String) :
    (record expected fs fields make).Recovers (.record shapes) s := fun bs hbs => by
  obtain ⟨own, others, told, hown, hwritten, hothers, hperm, hread⟩ :=
    Fields.exists_told hnames h hbs
  have hdefaults := Fields.defaults_of_recovers (fun _ => Fields.exists_shape hnames) h
  obtain ⟨slots, hslots, hfinish⟩ :=
    Fields.readMembers_perm .strict hnodup hdefaults hown hwritten hothers hperm
  refine ⟨.object told none, hread, nofun, ?_⟩
  simp only [record, hslots, readStop, bind, Except.bind, hfinish, Except.map, hmake]

/-- What is recovered is read from any text in other words. -/
theorem Codec.Recovers.readText {α : Type} {c : Codec α} {shape : Shape} {a : α}
    (h : c.Recovers shape a) {bs : List UInt8} (hbs : Rewording shape (c.write a) bs) :
    c.readText bs = .ok a := by
  obtain ⟨d, hd, -, hread⟩ := h bs hbs
  exact readText_of_reads hd hread

end ModelKeeper

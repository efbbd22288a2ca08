import ModelKeeper.Proofs.Json.Merge

/-!
# Members in any order

A record is read from its members in any order, and from among members that belong to no field
(`Fields.readMembers_perm`).  What has been read at any time depends on which fields have been met,
and not on when (`Fields.met`).
-/

namespace ModelKeeper

namespace Draft

theorem ofItems_eq_map (items : List Json) : ofItems items = items.map ofJson := by
  induction items with
  | nil => rfl
  | cons v items ih => rw [ofItems, ih, List.map_cons]

theorem ofMembers_eq_map (members : List (String × Json)) :
    ofMembers members = members.map fun m => (some m.1, ofJson m.2) := by
  induction members with
  | nil => rfl
  | cons m members ih => rw [ofMembers, ih, List.map_cons]

end Draft

namespace Fields

variable {custom : Custom}

/-! ### One member -/

/-- A field that is not meant has no part in the reading. -/
theorem put_cons_of_ne {name : String} {d : Draft} {α β : Type} {f : Field α}
    {rest : Fields β} (hne : f.name ≠ name) (slot : Option α) (slots : rest.Slots) :
    put custom name d (.cons f rest) (slot, slots) =
      (put custom name d rest slots).map (·.map fun others => (slot, others)) :=
  if_neg hne

/-- The first member that is meant for a field fills its slot. -/
theorem put_cons_self {d : Draft} {α β : Type} {f : Field α} {rest : Fields β}
    (hnull : d ≠ .null) {a : α} (hread : f.read d = .ok a) (slots : rest.Slots) :
    put custom f.name d (.cons f rest) (none, slots) = .ok (some (some a, slots)) := by
  have hput : put custom f.name d (.cons f rest) (none, slots) =
      (f.read d).map fun a => some (some a, slots) := by
    -- the slot is empty and the draft is no null, so neither custom has an exception
    refine (if_pos rfl).trans ?_
    cases custom with
    | strict => rfl
    | lenient =>
      cases d with
      | null => exact absurd rfl hnull
      | _ => rfl
  rw [hput, hread]
  rfl

theorem put_of_notMem {name : String} {d : Draft} :
    {τ : Type} → {fs : Fields τ} → name ∉ fs.names → ∀ slots, put custom name d fs slots = .ok none
  | _, .nil, _, _ => rfl
  | _, .cons f rest, h, slots => by
    rw [names, List.mem_cons, not_or] at h
    rw [put_cons_of_ne (Ne.symm h.1), put_of_notMem h.2]
    rfl

theorem readMembers_cons {τ : Type} {fs : Fields τ} {slots slots' : fs.Slots}
    {name : String} {d : Draft} {members : List (Option String × Draft)}
    (hput : put custom name d fs slots = .ok (some slots')) :
    readMembers custom fs slots ((some name, d) :: members) =
      readMembers custom fs slots' members := by
  rw [readMembers, hput]
  rfl

/-- A member that belongs to no field is passed over. -/
theorem readMembers_unknown {τ : Type} {fs : Fields τ} {name : String}
    (hname : name ∉ fs.names) {d : Draft} (hskip : d.skip = .ok ()) (slots : fs.Slots)
    (members : List (Option String × Draft)) :
    readMembers custom fs slots ((some name, d) :: members) =
      readMembers custom fs slots members := by
  rw [readMembers, put_of_notMem hname]
  simp only [bind, Except.bind, hskip]

/-! ### What the members tell -/

/-- Whether a member tells the value that the field of its name has in a record. -/
@[simp]
def Tells : {τ : Type} → Fields τ → τ → String → Draft → Prop
  | _, .nil, _, _, _ => False
  | _, .cons f rest, (a, b), name, d =>
    (f.name = name ∧ d ≠ .null ∧ f.read d = .ok a) ∨ rest.Tells b name d

/-- Whether a member is of no concern to a record. -/
def Foreign {τ : Type} (fs : Fields τ) (name : String) (d : Draft) : Prop :=
  name ∉ fs.names ∧ d.skip = .ok ()

/-- Whether two members are not for the same field. -/
def Apart {τ : Type} (fs : Fields τ) (m m' : Option String × Draft) : Prop :=
  m.1 = m'.1 → ∀ name, m.1 = some name → name ∉ fs.names

/-- The values of the fields whose names have been met. -/
def met : {τ : Type} → (fs : Fields τ) → τ → List (Option String) → fs.Slots
  | _, .nil, _, _ => ()
  | _, .cons f rest, (a, b), names =>
    (if some f.name ∈ names then some a else none, rest.met b names)

theorem met_nil : {τ : Type} → (fs : Fields τ) → (t : τ) → fs.met t [] = fs.noSlots
  | _, .nil, _ => rfl
  | _, .cons f rest, (a, b) => by rw [met, noSlots, met_nil rest b, if_neg List.not_mem_nil]

theorem mem_names_of_tells {name : String} {d : Draft} :
    {τ : Type} → {fs : Fields τ} → {t : τ} → fs.Tells t name d → name ∈ fs.names
  | _, .cons f rest, (a, b), h => by
    rcases h with ⟨rfl, -⟩ | h
    · exact List.mem_cons_self
    · exact List.mem_cons_of_mem _ (mem_names_of_tells h)

/-- Names of no field do not matter. -/
theorem met_cons_of_notMem {name : String} {names : List (Option String)} :
    {τ : Type} → {fs : Fields τ} → name ∉ fs.names → ∀ t,
      fs.met t (some name :: names) = fs.met t names
  | _, .nil, _, _ => rfl
  | _, .cons f rest, h, (a, b) => by
    rw [Fields.names, List.mem_cons, not_or] at h
    have hne : (some f.name ∈ some name :: names) = (some f.name ∈ names) := by
      simp [Ne.symm h.1]
    simp only [met, met_cons_of_notMem h.2, hne]

/-- A member that tells the value of a field fills its slot, if it is the first one. -/
theorem put_of_tells {name : String} {d : Draft} {names : List (Option String)}
    (hnew : some name ∉ names) : {τ : Type} → {fs : Fields τ} → fs.names.Nodup → ∀ {t : τ},
      fs.Tells t name d →
        put custom name d fs (fs.met t names) = .ok (some (fs.met t (some name :: names)))
  | _, .cons f rest, hnodup, (a, b), h => by
    obtain ⟨hname, hnodup⟩ := List.nodup_cons.1 hnodup
    rcases h with ⟨rfl, hnull, hread⟩ | h
    · simp only [met, if_neg hnew, met_cons_of_notMem hname, if_pos List.mem_cons_self]
      exact put_cons_self hnull hread _
    · have hne : f.name ≠ name := fun heq => hname (heq ▸ mem_names_of_tells h)
      -- the name belongs to a later field, so the slot of this one stays
      have hmet : (some f.name ∈ some name :: names) = (some f.name ∈ names) := by simp [hne]
      rw [met, put_cons_of_ne hne, put_of_tells hnew hnodup h]
      simp only [met, hmet]
      rfl

section

variable {τ : Type} {fs : Fields τ} (hnodup : fs.names.Nodup) {t : τ}
  {members : List (Option String × Draft)}
include hnodup

theorem readMembers_met
    (h : ∀ m ∈ members, ∃ name, m.1 = some name ∧ (fs.Tells t name m.2 ∨ fs.Foreign name m.2))
    (hapart : members.Pairwise fs.Apart) (names : List (Option String))
    (hnew : ∀ m ∈ members, m.1 ∈ names → ∀ name, m.1 = some name → name ∉ fs.names) :
    ∃ names', (∀ m ∈ members, m.1 ∈ names') ∧ names ⊆ names' ∧
      readMembers custom fs (fs.met t names) members = .ok (fs.met t names') := by
  induction members generalizing names with
  | nil => exact ⟨names, nofun, List.Subset.refl names, rfl⟩
  | cons m members ih =>
    obtain ⟨⟨name, hname, hmember⟩, hrest⟩ := List.forall_mem_cons.1 h
    obtain ⟨hfirst, hapart⟩ := List.pairwise_cons.1 hapart
    obtain ⟨hnewFirst, hnew⟩ := List.forall_mem_cons.1 hnew
    -- a name that comes again is that of a foreign member
    have hnewRest : ∀ m' ∈ members, m'.1 ∈ m.1 :: names →
        ∀ name, m'.1 = some name → name ∉ fs.names := fun m' hm' hmem name' hname' => by
      rcases List.mem_cons.1 hmem with heq | hmem
      · exact hfirst m' hm' heq.symm name' (heq ▸ hname')
      · exact hnew m' hm' hmem name' hname'
    obtain ⟨names', hall, hsubset, hread⟩ := ih hrest hapart (m.1 :: names) hnewRest
    refine ⟨names', List.forall_mem_cons.2 ⟨hsubset List.mem_cons_self, hall⟩,
      fun n hn => hsubset (List.mem_cons_of_mem _ hn), ?_⟩
    obtain ⟨name₀, d⟩ := m
    dsimp only at hname
    subst hname
    rcases hmember with htells | ⟨hname, hskip⟩
    · have hnewName : some name ∉ names := fun hmem =>
        hnewFirst hmem name rfl (mem_names_of_tells htells)
      rw [readMembers_cons (put_of_tells hnewName hnodup htells)]
      exact hread
    · rw [readMembers_unknown hname hskip, ← met_cons_of_notMem hname]
      exact hread

end

/-- Whether the fields that a record leaves out have the values that they have when they are
absent. -/
@[simp]
def Defaults : {τ : Type} → Fields τ → τ → Prop
  | _, .nil, _ => True
  | _, .cons f rest, (a, b) => (f.write a = none → f.absent = some a) ∧ rest.Defaults b

/-- A record is complete when the fields have been met that it writes. -/
theorem finish_met : {τ : Type} → {fs : Fields τ} → {t : τ} → fs.Defaults t →
    ∀ {names : List (Option String)}, (∀ m ∈ fs.members t, some m.1 ∈ names) →
      fs.finish (fs.met t names) = .ok t
  | _, .nil, _, _, _, _ => rfl
  | _, .cons f rest, (a, b), h, names, hmet => by
    obtain ⟨habsent, hrest⟩ := h
    rw [members_cons] at hmet
    have hfinish := finish_met hrest fun m hm => hmet m (List.mem_append_right _ hm)
    have hslot : ((if some f.name ∈ names then some a else none) <|> f.absent) = some a := by
      split
      · rfl
      · next hname =>
        cases hwrite : f.write a with
        | none => exact habsent hwrite
        | some v =>
          rw [hwrite] at hmet
          have hmem := List.mem_append_left (rest.members b) (List.mem_singleton_self (f.name, v))
          exact absurd (hmet _ hmem) hname
    simp only [met, finish, hslot, hfinish]
    rfl

theorem apart_of_notMem {τ : Type} {fs : Fields τ} {m m' : Option String × Draft}
    (h : ∀ name, m.1 = some name → name ∉ fs.names) : fs.Apart m m' :=
  fun _ => h

theorem apart_symm {τ : Type} (fs : Fields τ) {m m' : Option String × Draft} (h : fs.Apart m m') :
    fs.Apart m' m := fun heq name hname =>
  h heq.symm name (heq.symm.trans hname)

/-- **A record is read from its members in any order**, others among them or not: one member for
each field that is written, which tells its value, and any that are of no concern. -/
theorem readMembers_perm (custom : Custom) {τ : Type} {fs : Fields τ} (hnodup : fs.names.Nodup)
    {t : τ} (hdefaults : fs.Defaults t) {own others : List (String × Draft)}
    (hown : ∀ m ∈ own, fs.Tells t m.1 m.2) (hnames : own.map (·.1) = (fs.members t).map (·.1))
    (hothers : ∀ m ∈ others, fs.Foreign m.1 m.2) {members : List (Option String × Draft)}
    (hperm : members.Perm ((own ++ others).map fun m => (some m.1, m.2))) :
    ∃ slots, readMembers custom fs fs.noSlots members = .ok slots ∧ fs.finish slots = .ok t := by
  have hmembers : ∀ m ∈ members, ∃ name, m.1 = some name ∧
      (fs.Tells t name m.2 ∨ fs.Foreign name m.2) := fun m hm => by
    obtain ⟨m, hmem, rfl⟩ := List.mem_map.1 (hperm.mem_iff.1 hm)
    exact ⟨m.1, rfl, (List.mem_append.1 hmem).imp (hown m) (hothers m)⟩
  -- own members have different names, and foreign ones have none of these
  have hapart : members.Pairwise fs.Apart := by
    rw [hperm.pairwise_iff fun h => apart_symm fs h, List.pairwise_map, List.pairwise_append]
    refine ⟨?_, ?_, fun m _ m' hm' => ?_⟩
    · have hown := nodup_members hnodup t
      rw [← hnames] at hown
      refine (List.pairwise_map.1 hown).imp fun hne heq => ?_
      exact absurd (Option.some.inj heq) hne
    · refine List.pairwise_of_forall_mem_list fun m hm m' _ => ?_
      exact apart_of_notMem fun name hname => Option.some.inj hname ▸ (hothers m hm).1
    · refine apart_symm fs (apart_of_notMem fun name hname => ?_)
      exact Option.some.inj hname ▸ (hothers m' hm').1
  obtain ⟨names, hmet, -, hread⟩ := readMembers_met hnodup hmembers hapart [] nofun
  rw [met_nil] at hread
  refine ⟨_, hread, finish_met hdefaults fun m hm => ?_⟩
  have hname : m.1 ∈ own.map (·.1) := hnames ▸ List.mem_map_of_mem hm
  obtain ⟨told, htold, heq⟩ := List.mem_map.1 hname
  rw [← heq]
  exact hmet _ (hperm.mem_iff.2 (List.mem_map_of_mem (List.mem_append_left _ htold)))

end Fields

end ModelKeeper

import ModelKeeper.Proofs.Json.Same

/-!
# What a merge patch does

After a patch has been merged into an object, a member is what the patch says of it, and as it was
where the patch says nothing: `Json.get?_merge`.

So a value that is merged into an older one of its type need not be what is there afterwards.
`Json.MergesTo` says which value is.  What is written as text, as a number or as an array replaces
what was there (`Codec.Replaces`).  A field that is left out stays as it was
(`Field.mergesTo_optional`), a map keeps the entries that the new one does not have
(`Codec.mergesTo_dict`), and a record is merged field by field (`Codec.mergesTo_of_fields`).
-/

namespace ModelKeeper

namespace Json

/-! ### Members after a change -/

theorem member?_putMember (name put : String) (v : Json) (members : List (String × Json)) :
    member? name (putMember put v members) =
      if put = name then some v else member? name members := by
  induction members with
  | nil => rfl
  | cons e rest ih =>
    obtain ⟨n, w⟩ := e
    by_cases hn : n = put
    · subst hn
      simp only [putMember, if_true, member?]
      split <;> rfl
    · simp only [putMember, if_neg hn, member?, ih]
      -- the name that is put is not that of the first member
      by_cases hname : n = name
      · rw [if_pos hname, if_pos hname, if_neg (fun h => hn (hname.trans h.symm))]
      · rw [if_neg hname, if_neg hname]

theorem member?_filter (name out : String) (members : List (String × Json)) :
    member? name (members.filter (fun m => m.1 != out)) =
      if out = name then none else member? name members := by
  induction members with
  | nil => simp [member?]
  | cons e rest ih =>
    obtain ⟨n, w⟩ := e
    by_cases hn : n = out
    · subst hn
      rw [List.filter_cons_of_neg (by simp), ih, member?]
      split <;> simp_all
    · rw [List.filter_cons_of_pos (by simpa using hn), member?, member?, ih]
      by_cases hname : n = name
      · rw [if_pos hname, if_pos hname, if_neg (fun h => hn (hname.trans h.symm))]
      · rw [if_neg hname, if_neg hname]

/-- What a patch leaves of a member: `old` is what was there, `change` what the patch says. -/
def mergedMember (old : Option Json) : Option Json → Option Json
  | none => old
  | some .null => none
  | some patch => some (merge (old.getD .null) patch)

theorem mergedMember_obj (old : Option Json) (changes : List (String × Json)) :
    mergedMember old (some (.obj changes)) = some (merge (old.getD .null) (.obj changes)) := rfl

theorem nodup_putMember {put : String} {v : Json} {members : List (String × Json)}
    (h : (members.map (·.1)).Nodup) : ((putMember put v members).map (·.1)).Nodup := by
  induction members with
  | nil => simp [putMember]
  | cons e rest ih =>
    obtain ⟨n, w⟩ := e
    obtain ⟨hn, hrest⟩ := List.nodup_cons.1 h
    by_cases heq : n = put
    · simpa only [putMember, if_pos heq, List.map_cons] using h
    · simp only [putMember, if_neg heq, List.map_cons]
      refine List.nodup_cons.2 ⟨fun hmem => hn ?_, ih hrest⟩
      rwa [← isSome_member?, member?_putMember, if_neg (Ne.symm heq), isSome_member?] at hmem

/-- The first change makes one member what it says of it, and leaves the others alone. -/
theorem mergeMembers_cons (n : String) (patch : Json) (members changes : List (String × Json)) :
    ∃ members', mergeMembers members ((n, patch) :: changes) = mergeMembers members' changes ∧
      ((members.map (·.1)).Nodup → (members'.map (·.1)).Nodup) ∧
      ∀ name, member? name members' =
        if n = name then mergedMember (member? n members) (some patch)
        else member? name members := by
  by_cases hnull : patch = .null
  · subst hnull
    exact ⟨_, by rw [mergeMembers], fun h => h.sublist (List.filter_sublist.map _),
      fun name => member?_filter name n members⟩
  · refine ⟨putMember n (merge ((member? n members).getD .null) patch) members, ?_,
      nodup_putMember, fun name => ?_⟩
    · rw [mergeMembers]
      exact hnull
    · rw [member?_putMember, mergedMember]
      exact fun h => hnull h

theorem nodup_mergeMembers {members : List (String × Json)} (h : (members.map (·.1)).Nodup)
    (changes : List (String × Json)) : ((mergeMembers members changes).map (·.1)).Nodup := by
  induction changes generalizing members with
  | nil => rwa [mergeMembers]
  | cons e changes ih =>
    obtain ⟨members', hmerge, hnodup, -⟩ := mergeMembers_cons e.1 e.2 members changes
    rw [hmerge]
    exact ih (hnodup h)

theorem member?_mergeMembers (name : String) :
    ∀ {changes : List (String × Json)}, (changes.map (·.1)).Nodup → ∀ members,
      member? name (mergeMembers members changes) =
        mergedMember (member? name members) (member? name changes)
  | [], _, members => by rw [mergeMembers]; rfl
  | (n, patch) :: changes, hnodup, members => by
    rw [List.map_cons, List.nodup_cons] at hnodup
    obtain ⟨members', hmerge, -, hmember⟩ := mergeMembers_cons n patch members changes
    rw [hmerge, member?_mergeMembers name hnodup.2, hmember, member?]
    -- the names of the changes differ, so none of the others touches this one
    by_cases hname : n = name
    · subst hname
      rw [if_pos rfl, if_pos rfl, member?_eq_none hnodup.1]
      rfl
    · rw [if_neg hname, if_neg hname]

/-- Each member of what a patch makes of a value. -/
theorem get?_merge {changes : List (String × Json)} (hnodup : (changes.map (·.1)).Nodup) (v : Json)
    (name : String) :
    (v.merge (.obj changes)).get? name = mergedMember (v.get? name) (member? name changes) := by
  cases v <;> simp only [merge, get?, member?_mergeMembers name hnodup, member?]

/-- Whether a patch replaces whatever it is merged into. -/
def Replaces : Json → Bool
  | .null | .obj _ => false
  | _ => true

theorem mergedMember_of_replaces {v : Json} (h : v.Replaces) (old : Option Json) :
    mergedMember old (some v) = some v := by
  cases v with
  | null | obj _ => cases h
  | _ => simp [mergedMember, merge]

/-! ### Values -/

/-- Whether `result` is what is there after `new` has been merged into `old`, which may be missing:
what is there then is what is written of `result`. -/
structure MergesTo {α : Type} (write : α → Option Json) (old : Option α) (new result : α) :
    Prop where
  shows : ∀ w, sameIfAny (old.bind write) w →
    sameIfAny (write result) (mergedMember w (write new))
  /-- If that is what is written of `new` as well, then nothing of `old` is left. -/
  eq_new : ∀ w, sameIfAny (write result) w → sameIfAny (write new) w → result = new

/-- An object is merged member by member. -/
theorem sameIfAny_mergedMember_obj {olds : Option (List (String × Json))}
    {changes results : List (String × Json)} (holds : ∀ os, olds = some os → (os.map (·.1)).Nodup)
    (hchanges : (changes.map (·.1)).Nodup) (hresults : (results.map (·.1)).Nodup)
    (h : ∀ name w, sameIfAny (olds.bind (member? name)) w →
      sameIfAny (member? name results) (mergedMember w (member? name changes)))
    {w : Option Json} (hw : sameIfAny (olds.map .obj) w) :
    sameIfAny (some (.obj results)) (mergedMember w (some (.obj changes))) := by
  -- what is there is an object with the old members, or nothing, which counts as an empty one
  have hthere : ∃ bs, (w.getD .null).merge (.obj changes) = .obj (mergeMembers bs changes) ∧
      (bs.map (·.1)).Nodup ∧
      ∀ name, sameIfAny (olds.bind (member? name)) (member? name bs) := by
    cases olds with
    | none =>
      obtain rfl := sameIfAny_none_iff.1 hw
      exact ⟨[], by rw [Option.getD_none, merge]; nofun, List.nodup_nil, fun _ => trivial⟩
    | some os =>
      obtain ⟨v, rfl, hsame⟩ := sameIfAny_some_iff.1 hw
      obtain ⟨bs, rfl, hnodup, hmembers⟩ := (same_obj_iff (holds os rfl)).1 hsame
      exact ⟨bs, by rw [Option.getD_some, merge], hnodup, hmembers⟩
  obtain ⟨bs, hmerge, hnodup, hmembers⟩ := hthere
  rw [mergedMember_obj, hmerge]
  refine (same_obj_iff hresults).2 ⟨_, rfl, nodup_mergeMembers hnodup changes, fun name => ?_⟩
  rw [member?_mergeMembers name hchanges]
  exact h name _ (hmembers name)

end Json

open Json (MergesTo)

namespace Codec

variable {α : Type} {c : Codec α}

/-- Whether what is written of values replaces what was there. -/
structure Replaces (c : Codec α) : Prop where
  replaces : ∀ a, (c.write a).Replaces
  refl : ∀ a, (c.write a).same (c.write a)

theorem replaces_string : string.Replaces := ⟨fun _ => rfl, exact_string.comparable.refl⟩

theorem replaces_int (low high : Int) (name : String) : (int low high name).Replaces :=
  ⟨fun _ => rfl, (exact_int low high name).comparable.refl⟩

theorem replaces_list (h : c.Comparable) : (list c).Replaces := ⟨fun _ => rfl, h.list.refl⟩

theorem Replaces.mergesTo (h : c.Replaces) (old : Option α) (new : α) :
    MergesTo (fun a => some (c.write a)) old new new where
  shows w _ := by
    rw [Json.mergedMember_of_replaces (h.replaces new)]
    exact h.refl new
  eq_new _ _ _ := rfl

end Codec

/-! ### Maps -/

/-- A map laid over another one, which may be missing: the entries of both, and that of the new one
where both have one. -/
def Dict.overlaid {α : Type} (old : Option (Dict α)) (new : Dict α) : Dict α :=
  new.entries.foldl (fun m e => m.insert e.1 e.2) (old.getD .empty)

theorem SortedMap.get?_foldl_insert {α : Type} (name : String) {l : List (String × α)}
    (hnodup : (l.map (·.1)).Nodup) (m : Dict α) :
    (l.foldl (fun m e => m.insert e.1 e.2) m).get? name = (lookup name l <|> m.get? name) := by
  induction l generalizing m with
  | nil => rfl
  | cons e l ih =>
    obtain ⟨n, a⟩ := e
    obtain ⟨hn, hrest⟩ := List.nodup_cons.1 hnodup
    rw [List.foldl_cons, ih hrest, get?_insert, lookup]
    by_cases hname : name = n
    · subst hname
      have hnone : lookup name l = none := Option.eq_none_iff_forall_ne_some.2 fun b hb =>
        hn (List.mem_map.2 ⟨(name, b), (mem_iff_lookup hrest).2 hb, rfl⟩)
      simp [hnone]
    · simp [hname]

theorem Dict.get?_overlaid {α : Type} (old : Option (Dict α)) (new : Dict α) (name : String) :
    (overlaid old new).get? name = (new.get? name <|> old.bind (·.get? name)) := by
  rw [overlaid, SortedMap.get?_foldl_insert name new.names_nodup]
  cases old <;> rfl

theorem Codec.mergesTo_dict {α : Type} {c : Codec α} (h : c.Replaces) (old : Option (Dict α))
    (new : Dict α) :
    MergesTo (fun m => some ((dict c).write m)) old new (Dict.overlaid old new) where
  shows w hw := by
    let entries (m : Dict α) : List (String × Json) := m.entries.map fun e => (e.1, c.write e.2)
    have hw : Json.sameIfAny ((old.map entries).map .obj) w := by
      cases old <;> exact hw
    refine Json.sameIfAny_mergedMember_obj ?_ (nodup_entries c new) (nodup_entries c _) ?_ hw
    · rintro _ hos
      obtain ⟨m, -, rfl⟩ := Option.map_eq_some_iff.1 hos
      exact nodup_entries c m
    · intro name w' hw'
      have hold : (old.map entries).bind (Json.member? name) =
          (old.bind (·.get? name)).map c.write := by
        cases old with
        | none => rfl
        | some m => exact member?_entries c m name
      rw [hold] at hw'
      rw [member?_entries, member?_entries, Dict.get?_overlaid]
      cases new.get? name with
      | none => exact hw'
      | some b =>
        rw [Option.map_some, Json.mergedMember_of_replaces (h.replaces b)]
        exact h.refl b
  eq_new w hresult hnew := by
    cases w with
    | none => cases hnew
    | some w =>
      obtain ⟨bs, rfl, -, hresult⟩ := same_dict_iff.1 hresult
      obtain ⟨bs', hbs, -, hnew⟩ := same_dict_iff.1 hnew
      obtain rfl := Json.obj.inj hbs
      refine SortedMap.ext_get? fun name => ?_
      -- an entry of the old map would be there, while the new one has none
      have hiff := (hresult name).isSome_iff.trans (hnew name).isSome_iff.symm
      rw [Dict.get?_overlaid] at hiff ⊢
      cases hget : new.get? name with
      | none => simpa [hget] using hiff
      | some b => rfl

/-! ### Records -/

namespace Field

variable {α : Type} {c : Codec α} {old : Option (Option α)} {new : Option α}

/-- A field that may be left out stays as it was. -/
theorem mergesTo_optional {laid : α → α}
    (h : ∀ b, MergesTo (fun a => some (c.write a)) old.join b (laid b)) (name : String) :
    MergesTo (optional name c).write old new (new.map laid <|> old.join) where
  shows w hw := by
    have hold : Json.sameIfAny (old.join.bind fun a => some (c.write a)) w := by
      rcases old with _ | _ | a <;> exact hw
    cases new with
    | none =>
      rcases old with _ | _ | a <;> exact hw
    | some b => exact (h b).shows w hold
  eq_new w hresult hnew := by
    cases new with
    | none =>
      obtain rfl := Json.sameIfAny_none_iff.1 hnew
      rcases old with _ | _ | a
      · rfl
      · rfl
      · cases hresult
    | some b => exact congrArg some ((h b).eq_new w hresult hnew)

theorem mergesTo_optional_of_replaces (h : c.Replaces) (name : String) :
    MergesTo (optional name c).write old new (new <|> old.join) := by
  have hmerges : MergesTo (optional name c).write old new (new.map (fun b => b) <|> old.join) :=
    mergesTo_optional (h.mergesTo old.join) name
  simpa using hmerges

theorem mergesTo_withDefault (h : c.Replaces) (name : String) (default : α) (old : Option α)
    (new : α) : MergesTo (withDefault name c default).write old new new := h.mergesTo old new

end Field

namespace Fields

/-- Whether every field of `result` is what is there after that of `new` has been merged into that
of `old`. -/
def MergesTo : {τ : Type} → Fields τ → Option τ → τ → τ → Prop
  | _, .nil, _, _, _ => True
  | _, .cons f rest, old, new, result =>
    Json.MergesTo f.write (old.map (·.1)) new.1 result.1 ∧
      rest.MergesTo (old.map (·.2)) new.2 result.2

theorem MergesTo.shows {τ : Type} {fs : Fields τ} (hnodup : fs.names.Nodup) {old : Option τ}
    {new result : τ} (h : fs.MergesTo old new result) (name : String) {w : Option Json}
    (hw : Json.sameIfAny (old.bind fun t => Json.member? name (fs.members t)) w) :
    Json.sameIfAny (Json.member? name (fs.members result))
      (Json.mergedMember w (Json.member? name (fs.members new))) := by
  induction fs with
  | nil =>
    have hnone : w = none := by
      cases old <;> exact Json.sameIfAny_none_iff.1 hw
    subst hnone
    trivial
  | cons f rest ih =>
    obtain ⟨hname, hrest⟩ := List.nodup_cons.1 hnodup
    -- the member is that of the first field, or one of the others
    by_cases hn : f.name = name
    · subst hn
      rw [member?_head hname, member?_head hname]
      refine h.1.shows w ?_
      cases old with
      | none => exact hw
      | some t => simpa only [Option.map_some, Option.bind_some, member?_head hname] using hw
    · rw [member?_cons, member?_cons, if_neg hn, if_neg hn]
      refine ih hrest h.2 ?_
      cases old with
      | none => exact hw
      | some t =>
        obtain ⟨a, as⟩ := t
        simpa only [Option.map_some, Option.bind_some, member?_cons, if_neg hn] using hw

theorem MergesTo.eq_new {τ : Type} {fs : Fields τ} (hnodup : fs.names.Nodup) {old : Option τ}
    {new result : τ} (h : fs.MergesTo old new result) {w : String → Option Json}
    (hresult : ∀ name, Json.sameIfAny (Json.member? name (fs.members result)) (w name))
    (hnew : ∀ name, Json.sameIfAny (Json.member? name (fs.members new)) (w name)) :
    result = new := by
  induction fs generalizing w with
  | nil => rfl
  | cons f rest ih =>
    obtain ⟨hname, hrest⟩ := List.nodup_cons.1 hnodup
    -- what is there without the member of the first field
    let w' (name : String) : Option Json := if f.name = name then none else w name
    have hwithout : ∀ t : _ × _, (∀ name, Json.sameIfAny
        (Json.member? name ((cons f rest).members t)) (w name)) →
        ∀ name, Json.sameIfAny (Json.member? name (rest.members t.2)) (w' name) := by
      rintro ⟨a, b⟩ ht name
      by_cases hn : f.name = name
      · subst hn
        rw [member?_name hname]
        simp [w', Json.sameIfAny]
      · simpa only [w', member?_cons, if_neg hn] using ht name
    have hhead := h.1.eq_new (w f.name) (by simpa only [member?_head hname] using hresult f.name)
      (by simpa only [member?_head hname] using hnew f.name)
    exact Prod.ext hhead (ih hrest h.2 (hwithout result hresult) (hwithout new hnew))

end Fields

/-- A record is merged field by field. -/
theorem Codec.mergesTo_of_fields {σ τ : Type} {write : σ → Json} {fs : Fields τ} {fields : σ → τ}
    (hwrite : ∀ s, write s = .obj (fs.members (fields s))) (hnodup : fs.names.Nodup)
    (hinjective : ∀ s t, fields s = fields t → s = t) {old : Option σ} {new result : σ}
    (h : fs.MergesTo (old.map fields) (fields new) (fields result)) :
    MergesTo (fun s => some (write s)) old new result where
  shows w hw := by
    have hw : Json.sameIfAny ((old.map fun s => fs.members (fields s)).map .obj) w := by
      cases old with
      | none => exact hw
      | some s => simpa only [Option.map_some, Option.bind_some, hwrite] using hw
    simp only [hwrite]
    -- member by member, since each field says what becomes of its own
    refine Json.sameIfAny_mergedMember_obj ?_ (Fields.nodup_members hnodup _)
      (Fields.nodup_members hnodup _) (fun name w' hw' => h.shows hnodup name ?_) hw
    · rintro _ hos
      obtain ⟨s, -, rfl⟩ := Option.map_eq_some_iff.1 hos
      exact Fields.nodup_members hnodup _
    · cases old <;> exact hw'
  eq_new w hresult hnew := by
    simp only [hwrite] at hresult hnew
    cases w with
    | none => cases hnew
    | some w =>
      obtain ⟨bs, rfl, -, hresult⟩ := (Json.same_obj_iff (Fields.nodup_members hnodup _)).1 hresult
      obtain ⟨bs', hbs, -, hnew⟩ := (Json.same_obj_iff (Fields.nodup_members hnodup _)).1 hnew
      obtain rfl := Json.obj.inj hbs
      exact hinjective _ _ (h.eq_new hnodup hresult hnew)

end ModelKeeper

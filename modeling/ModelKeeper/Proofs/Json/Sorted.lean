import ModelKeeper.Json.Sorted
import ModelKeeper.Proofs.Json.Restored
import ModelKeeper.Proofs.Number.Rounding

/-!
# Values of any shape come back, and are compared as maps

A value with its members sorted is read from what is written of it (`SortedJson.codec_restores`):
the members are read one after the other, and each one is put at the end.

The comparison of values is transitive (`Json.same_trans`), and a sorted value equals itself
(`Json.same_self`), since no name occurs twice in it and its numbers are numbers.
-/

namespace ModelKeeper

/-! ### Comparison -/

theorem Number.same_trans {a b c : Number} (hab : a.same b) (hbc : b.same c) : a.same c := by
  cases a <;> cases b <;> cases c <;> simp_all [same, datum?] <;>
    exact Double.sameNumber_trans hab hbc

theorem Number.same_self {n : Number} (h : n.isSpelled) : n.same n := by
  cases n with
  | int n => simp [same]
  | single x => cases h
  | double x =>
    refine Double.sameNumber_iff.2 (.inr ⟨fun hundefined => ?_, rfl⟩)
    rw [isSpelled, Double.isFinite, hundefined] at h
    cases h

namespace Json

mutual

theorem same_trans : ∀ {u v w : Json}, u.same v → v.same w → u.same w
  | .null, .null, _, _, hvw => hvw
  | .bool _, .bool _, _, huv, hvw => eq_of_beq huv ▸ hvw
  | .str _, .str _, _, huv, hvw => eq_of_beq huv ▸ hvw
  | .num a, .num b, .num c, huv, hvw => Number.same_trans huv hvw
  | .arr as, .arr bs, .arr cs, huv, hvw => sameItems_trans huv hvw
  | .obj as, .obj bs, .obj cs, huv, hvw => by
    simp only [same, Bool.and_eq_true, beq_iff_eq] at *
    exact ⟨huv.1.trans hvw.1, sameMembers_trans huv.2 hvw.2⟩

theorem sameItems_trans : ∀ {as bs cs : List Json}, sameItems as bs → sameItems bs cs →
    sameItems as cs
  | [], [], [], _, _ => rfl
  | a :: as, b :: bs, c :: cs, hab, hbc => by
    simp only [sameItems, Bool.and_eq_true] at *
    exact ⟨same_trans hab.1 hbc.1, sameItems_trans hab.2 hbc.2⟩

theorem sameMembers_trans : ∀ {as bs cs : List (String × Json)}, sameMembers as bs →
    sameMembers bs cs → sameMembers as cs
  | [], _, _, _, _ => rfl
  | (name, a) :: as, bs, cs, hab, hbc => by
    simp only [sameMembers, Bool.and_eq_true] at hab ⊢
    refine ⟨?_, sameMembers_trans hab.2 hbc⟩
    cases hb : member? name bs with
    | none => simp [hb] at hab
    | some b =>
      obtain ⟨c, hc, hsame⟩ := sameMembers_iff.1 hbc name b (mem_of_member? hb)
      rw [hb] at hab
      rw [hc]
      exact same_trans hab.1 hsame

end

mutual

theorem same_self : ∀ {v : Json}, v.isSorted → v.same v
  | .null, _ => rfl
  | .bool _, _ => by simp [same]
  | .str _, _ => by simp [same]
  | .num _, h => Number.same_self h
  | .arr _, h => sameItems_self h
  | .obj members, h => by
    simp only [isSorted, Bool.and_eq_true, decide_eq_true_eq] at h
    have hmembers : sameMembers members members := sameMembers_iff.2 fun name v hv =>
      ⟨v, member?_of_mem (SortedMap.nodup_of_ascending h.1) hv, same_of_mem h.2 hv⟩
    simp [same, hmembers]

theorem sameItems_self : ∀ {items : List Json}, areSorted items → sameItems items items
  | [], _ => rfl
  | v :: vs, h => by
    simp only [areSorted, Bool.and_eq_true] at h
    simp [sameItems, same_self h.1, sameItems_self h.2]

theorem same_of_mem : ∀ {members : List (String × Json)}, haveSorted members → ∀ {name : String}
    {v : Json}, (name, v) ∈ members → v.same v
  | (n, w) :: rest, h, name, v, hv => by
    simp only [haveSorted, Bool.and_eq_true] at h
    rcases List.mem_cons.1 hv with heq | hv
    · obtain ⟨rfl, rfl⟩ := Prod.mk.inj heq
      exact same_self h.1
    · exact same_of_mem h.2 hv

end

end Json

/-! ### Reading -/

namespace Draft

mutual

theorem sorted_ofJson : ∀ {v : Json}, v.isSorted → (ofJson v).sorted = .ok v
  | .null, _ => rfl
  | .bool _, _ => rfl
  | .str _, _ => rfl
  | .num n, h => by
    have hspelled : n.isSpelled := h
    simp [ofJson, sorted, Option.filter, hspelled]
  | .arr items, h => by
    rw [ofJson, sorted, sortedItems_ofItems h]
    rfl
  | .obj members, h => by
    simp only [Json.isSorted, Bool.and_eq_true, decide_eq_true_eq] at h
    -- the members are put in from the first to the last, so the map has seen the smaller names
    have hread := sortedMembers_ofMembers [] (by simpa using h.1) h.2
    rw [ofJson, sorted, hread]
    rfl

theorem sortedItems_ofItems : ∀ {items : List Json}, Json.areSorted items →
    sortedItems (ofItems items) = .ok items
  | [], _ => rfl
  | v :: vs, h => by
    simp only [Json.areSorted, Bool.and_eq_true] at h
    rw [ofItems, sortedItems, sorted_ofJson h.1, sortedItems_ofItems h.2]
    rfl

/-- The members that have been read lie before the others. -/
theorem sortedMembers_ofMembers : ∀ {members : List (String × Json)} (read : List (String × Json)),
    (read ++ members).Pairwise (fun a b => compare a.1 b.1 = .lt) → Json.haveSorted members →
    sortedMembers read (ofMembers members) = .ok (read ++ members)
  | [], read, _, _ => by rw [ofMembers, sortedMembers, List.append_nil]
  | (name, v) :: rest, read, hordered, h => by
    simp only [Json.haveSorted, Bool.and_eq_true] at h
    have hlast : ∀ m ∈ read, compare m.1 name = .lt := fun m hm =>
      (List.pairwise_append.1 hordered).2.2 m hm (name, v) List.mem_cons_self
    have hrest := sortedMembers_ofMembers (read ++ [(name, v)]) (by simpa using hordered) h.2
    rw [List.append_assoc, List.singleton_append] at hrest
    rw [ofMembers, sortedMembers, sorted_ofJson h.1]
    simpa only [bind, Except.bind, SortedMap.insertEntry_last hlast] using hrest

end

end Draft

namespace SortedJson

@[simp]
theorem codec_restores (v : SortedJson) : codec.Restores v where
  notNull := v.notNull
  read := by
    have hread := Draft.sorted_ofJson v.isSorted
    simp only [codec]
    split
    · next w hw =>
      obtain rfl := Except.ok.inj (hread.symm.trans hw)
      rw [dif_neg v.notNull]
    · next hw => cases hread.symm.trans hw

theorem codec_comparable : codec.Comparable where
  refl v := Json.same_self v.isSorted
  trans _ _ _ := Json.same_trans

end SortedJson

end ModelKeeper

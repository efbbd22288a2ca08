import ModelKeeper.Proofs.Pass.Commuting.Passes
import ModelKeeper.Proofs.Pass.Footprint

/-!
# Passes over different objects

Passes over different objects do not get in each other's way, unless both are over models of one
namespace.  In either order each of them has the same result, and does the same to the outside, and
the clusters that they lead to are equal but for the numbers that were handed out
(`Pass.passes_commute`).

After one pass the other one still sees what it saw before (`Pass.sees_after`), so it goes along as
it would have without (`Pass.beside_reconcile`).  The places of the two passes are different, so
each place is as one of them has left it; and the numbers are those that the passes were handed, in
one order or in the other (`Pass.Worked.Along.renamed`).
-/

namespace ModelKeeper.Pass

variable {σ : Type} {v : Vendors σ} {w w' : Worked} {key key' : Key} {s : World σ}

section After

variable (hv : v.Steady) (settings : Settings) (hplaced : s.cluster.Placed)
  (hstands : w.Stands key s.cluster) (hconflicts : s.cluster.injectedConflicts = 0)
include hv hplaced hstands hconflicts

/-- A pass goes along beside itself. -/
theorem moved_after :
    World.At s.clock (w.Moved key s.cluster s.cluster)
      ((reconcile w settings key).run (World.handler v) s).2
      ((reconcile w settings key).run (World.handler v) s).2 :=
  (beside_reconcile hv w settings hplaced hstands ⟨rfl, rfl, rfl, rfl⟩
    (.refl w key hconflicts)).ends.2

/-- What is wanted of the language models stays as it is. -/
theorem wanted_after (home : Key) :
    (((reconcile w settings key).run (World.handler v) s).2.cluster.stored? .llm home).map
      Object.spec = (s.cluster.stored? .llm home).map Object.spec := by
  obtain ⟨a, halong⟩ := (moved_after hv settings hplaced hstands hconflicts).clusters
  rcases halong.objects .llm home with ⟨hkept, -⟩ | ⟨⟨hkind, rfl⟩ | ⟨-, p, hkind, -⟩, o, -, ho, -⟩
  · rw [hkept]
  · -- the pass is over this language model
    obtain rfl : w = .llm := Worked.kind_injective hkind.symm
    have hfootprint : Worked.llm.Footprint home s.cluster
        ((reconcile .llm settings home).run (World.handler v) s).2.cluster :=
      Program.run_of_wp (World.handler_serves v) _
        (footprint_onCluster .llm settings fun o ho => ⟨hplaced _ _ o ho, trivial⟩)
    obtain ⟨before, hbefore, hspares⟩ : ∃ before : Object .llm,
        s.cluster.stored? .llm home = some before ∧ Worked.llm.Spares before o :=
      hfootprint.object o ho
    rw [ho, hbefore, Option.map_some, Option.map_some]
    exact congrArg some hspares.spec
  · exact absurd hkind (Worked.kind_ne_part .llm p)

/-- After a pass over one object, a pass over another one sees what it saw before. -/
theorem sees_after (hdisjoint : ∀ k home, w'.Touches key' k home → ¬ w.Touches key k home) :
    w'.Sees key' s.cluster ((reconcile w settings key).run (World.handler v) s).2.cluster := by
  obtain ⟨a, halong⟩ := (moved_after hv settings hplaced hstands hconflicts).clusters
  have hkept : ∀ k home, ¬ w.Touches key k home →
      ((reconcile w settings key).run (World.handler v) s).2.cluster.stored? k home =
        s.cluster.stored? k home := fun k home hnot =>
    (halong.objects k home).elim And.left fun h => absurd h.1 hnot
  exact
    { conflicts := hconflicts
      conflicts' := halong.conflicts
      touched := fun k home htouched => hkept k home (hdisjoint k home htouched)
      asked := fun k home hk => hkept k home fun htouched => htouched.not_asked hk
      wanted := wanted_after hv settings hplaced hstands hconflicts }

end After

/-- Of two passes with places of their own, each has gone along before the other and after it.  The
clusters at the end are equal but for a change of places of the numbers. -/
theorem Worked.Along.renamed {c c₁ c₂ d d' : Cluster} {a b : Nat}
    (hdisjoint : ∀ k home, w.Touches key k home → ¬ w'.Touches key' k home)
    (h : w.Along key c c₂ a c₁ d') (h' : w'.Along key' c c₁ b c₂ d) :
    Cluster.Renamed (Handout.swap c.version a b) c d d' where
  version := by rw [h.version', h'.version', h.version, h'.version]; omega
  injectedConflicts := h.conflicts'.trans h'.conflicts'.symm
  moved i hi := by
    rw [h'.version', h.version]
    by_contra hout
    exact hi (Handout.exchange_of_not hout)
  objects k home := by
    have hversion : d.version = c.version + a + b := by rw [h'.version', h.version]
    rcases h.objects k home with ⟨hc₁, hd'⟩ | ⟨htouched, o, o', ho, ho', hpaired⟩ <;>
      rcases h'.objects k home with ⟨hc₂, hd⟩ | ⟨htouched', p, p', hp, hp', hpaired'⟩
    · exact .inl ⟨hd.trans hc₁, hd'.trans hc₂⟩
    · -- the place is as the second pass has left it
      obtain ⟨q, numbers, hnumbers, rfl, rfl⟩ := hpaired'
      refine .inr ⟨q, numbers.map (c₁.version + ·), fun i hi => ?_, hp', ?_⟩
      · have hwithin := Handout.within_map hnumbers _ i hi
        rw [h.version] at hwithin
        omega
      · rw [hd', hp, Handout.map_map, h.version]
        exact congrArg (fun numbers => some (q.handed numbers)) <| Handout.map_congr fun i hi =>
          (Handout.exchange_second (hnumbers i hi) c.version a).symm
    · -- the place is as the first pass has left it
      obtain ⟨q, numbers, hnumbers, rfl, rfl⟩ := hpaired
      refine .inr ⟨q, numbers.map (c.version + ·), fun i hi => ?_, hd.trans ho, ?_⟩
      · have hwithin := Handout.within_map hnumbers _ i hi
        omega
      · rw [ho', Handout.map_map, h'.version]
        exact congrArg (fun numbers => some (q.handed numbers)) <| Handout.map_congr fun i hi =>
          (Handout.exchange_first (hnumbers i hi) c.version b).symm
    · exact absurd htouched' (hdisjoint k home htouched)

/-- **Passes over different objects commute.**  Let two objects be stored that are not terminating,
and not both models of one namespace.  Let nobody else act on the world, let its vendors be steady
and its objects all be stored under their own names, with no conflicts in the way.  Then the passes
over the two may run in either order:

* each has the same result, an error with all that it says included;
* each makes the same requests to vendors with the same answers, and the same reports and counts;
* the clusters afterwards are equal but for a renaming of the numbers that were handed out for
  versions and unique ids. -/
theorem passes_commute (hv : v.Steady) {w w' : Worked} {key key' : Key}
    (settings settings' : Settings) {s : World σ} (hconflicts : s.cluster.injectedConflicts = 0)
    (hplaced : s.cluster.Placed) (hstands : w.Stands key s.cluster)
    (hstands' : w'.Stands key' s.cluster) (hobjects : ¬ (w = w' ∧ key = key'))
    (hmodels : ¬ (w = .model ∧ w' = .model ∧ key.ns = key'.ns)) :
    let h := World.handler v
    let p := reconcile w settings key
    let p' := reconcile w' settings' key'
    let s₁ := (p.run h s).2
    let s₂ := (p'.run h s).2
    ((p.run h s₂).1 = (p.run h s).1 ∧ (p'.run h s₁).1 = (p'.run h s).1) ∧
      (p.outward h s₂ = p.outward h s ∧ p'.outward h s₁ = p'.outward h s) ∧
      ∃ ρ, Cluster.Renamed ρ s.cluster (p'.run h s₁).2.cluster (p.run h s₂).2.cluster := by
  intro h p p' s₁ s₂
  have hdisjoint : ∀ k home, w.Touches key k home → ¬ w'.Touches key' k home :=
    fun k home => Worked.Touches.disjoint hobjects hmodels
  have hsees : w.Sees key s.cluster s₂.cluster :=
    sees_after hv settings' hplaced hstands' hconflicts hdisjoint
  have hsees' : w'.Sees key' s.cluster s₁.cluster :=
    sees_after hv settings hplaced hstands hconflicts fun k home h' hother =>
      hdisjoint k home hother h'
  have hclock : s₁.clock = s.clock := (moved_after hv settings hplaced hstands hconflicts).clock
  have hclock' : s₂.clock = s.clock := (moved_after hv settings' hplaced hstands' hconflicts).clock
  -- each pass goes beside itself: on one side it is the first, and on the other side the second
  have hbeside : p.Beside h _ p s s₂ :=
    beside_reconcile hv w settings hplaced hstands ⟨rfl, hclock', rfl, rfl⟩ hsees
  have hbeside' : p'.Beside h _ p' s s₁ :=
    beside_reconcile hv w' settings' hplaced hstands' ⟨rfl, hclock, rfl, rfl⟩ hsees'
  obtain ⟨a, halong⟩ := hbeside.ends.2.clusters
  obtain ⟨b, halong'⟩ := hbeside'.ends.2.clusters
  exact ⟨⟨hbeside.ends.1, hbeside'.ends.1⟩, ⟨hbeside.outward.symm, hbeside'.outward.symm⟩,
    _, halong.renamed hdisjoint halong'⟩

/-- The pass over a model makes the three parts of the image store, and the one over a language
model sets its label.  So the language model gets the fourth version in one order, and the first in
the other one. -/
theorem passes_commute_shared :
    let key : Key := ⟨"default", "m"⟩
    let c := (Cluster.empty.store key (sharedModel key)).store key unlabelledLlm
    let s : World Unit := { cluster := c, vendors := () }
    let h := World.handler .unreachable
    let p := reconcile .model {} key
    let p' := reconcile .llm {} key
    let d := (p'.run h (p.run h s).2).2.cluster
    let d' := (p.run h (p'.run h s).2).2.cluster
    let version (c : Cluster) := (c.stored? .llm key).bind fun o : Object .llm => o.metadata.version
    Vendors.unreachable.Steady ∧ c.injectedConflicts = 0 ∧ c.Placed ∧
      Worked.model.Stands key c ∧ Worked.llm.Stands key c ∧
      version d = some "4" ∧ version d' = some "1" ∧ ∃ ρ, Cluster.Renamed ρ c d d' := by
  intro key c s h p p' d d' version
  have hsteady : Vendors.unreachable.Steady := Vendors.steady_unit _
  have hplaced : c.Placed := (Cluster.placed_empty.store key ⟨rfl, rfl⟩).store key ⟨rfl, rfl⟩
  have hother : ¬ (Kind.model = Kind.llm ∧ key = key) := by simp
  have hmodel : Worked.model.Stands key c := by
    refine ⟨sharedModel key, ?_, by decide⟩
    exact (Cluster.stored?_store_of_ne hother _ _).trans (Cluster.stored?_store_self ..)
  have hllm : Worked.llm.Stands key c :=
    ⟨unlabelledLlm, Cluster.stored?_store_self .., by decide⟩
  have hcommute := passes_commute (s := s) hsteady {} {} rfl hplaced hmodel hllm (by simp) (by simp)
  refine ⟨hsteady, rfl, hplaced, hmodel, hllm, by decide +kernel, by decide +kernel, ?_⟩
  -- the clusters are spelled out, for otherwise the passes would be run to compare them
  dsimp only [d, d', p, p', h] at hcommute ⊢
  exact hcommute.2.2

end ModelKeeper.Pass

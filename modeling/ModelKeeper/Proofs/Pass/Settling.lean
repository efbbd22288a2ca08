import ModelKeeper.Pass.Entry
import ModelKeeper.Proofs.Pass.Settling.Llm
import ModelKeeper.Proofs.Pass.Settling.Model
import ModelKeeper.Proofs.Pass.Settling.Prompt

/-!
# Passes come to rest

While nobody else writes, the passes over an object come to rest, wherever the object stands at
first: one pass may be needed to put the finalizer on it, one for what is to be done before the work
(the label of a language model, the mark of progress of a model), and one for the work.  All later
passes find everything done.

This is `Pass.settles_reconcile`, and `Pass.reconcile_rests` says it of the actual passes, which may
find any time on the clock.
-/

namespace ModelKeeper.Pass

variable {σ : Type}

theorem settles_reconcile (w : Worked) (settings : Settings) {key : Key} {v : Vendors σ}
    {c : Cluster} (hv : v.Steady) (hready : c.Ready w.kind key) :
    (reconcile w settings key).Settles v 2 c := by
  have hrun : (run w settings key).outcome.Settles v 2 c := by
    cases w with
    | llm => exact settles_frame hready fun c' o h hs => Llm.settles_active hv h hs
    | model => exact settles_frame hready fun c' o h hs => Model.settles_active h hs
    | prompt =>
      exact settles_frame hready fun c' o h hs hactive =>
        (Prompt.settles_active hv h hs hactive).succ
  exact hrun.map (resolve settings.intervals)

/-- Passes come to rest.  From the fourth on they leave the cluster as it is, and have the result of
the third, whatever the clock shows whenever they look at it. -/
theorem reconcile_rests (w : Worked) (settings : Settings) (key : Key) (v : Vendors σ)
    (hv : v.Steady) (clock : Nat → Instant) (s : World σ × Nat)
    (hconflicts : s.1.cluster.injectedConflicts = 0) (hplaced : s.1.cluster.Placed)
    (hnumbered : s.1.cluster.Numbered) (n : Nat) (hn : 3 ≤ n) :
    let h := World.ticking v clock
    let p := reconcile w settings key
    (p.again h (n + 1) s).1.cluster = (p.again h n s).1.cluster ∧
      (p.run h (p.again h n s)).1 = (p.run h (p.again h 2 s)).1 := by
  intro h p
  have hready : s.1.cluster.Ready w.kind key :=
    ⟨hconflicts, fun o => hplaced _ _ o, fun o => hnumbered _ _ o⟩
  exact Program.again_of_settles (World.ticking_serves v clock)
    (settles_reconcile w settings hv hready) hn

/-- A language model as it is when it has just been created. -/
def newLlm : Object .llm where
  metadata :=
    { name := some "m"
      ns := some "default"
      version := some "1"
      uid := some "uid-1"
      generation := some 1 }
  spec := {}

theorem reconcile_rests_new :
    let key : Key := ⟨"default", "m"⟩
    let c : Cluster := { Cluster.empty.store key newLlm with version := 1 }
    let s : World Unit × Nat := ({ cluster := c, vendors := () }, 0)
    let clock : Nat → Instant := fun n => ⟨n, 0⟩
    Vendors.unreachable.Steady ∧ c.injectedConflicts = 0 ∧ c.Placed ∧ c.Numbered ∧
      Lifecycle.of newLlm (Kind.finalizer .llm) = .new ∧
      ((reconcile .llm {} key).again (World.ticking .unreachable clock) (3 + 1) s).1.cluster =
        ((reconcile .llm {} key).again (World.ticking .unreachable clock) 3 s).1.cluster := by
  intro key c s clock
  have hsteady : Vendors.unreachable.Steady := Vendors.steady_unit _
  have hplaced : c.Placed := Cluster.placed_empty.store key ⟨rfl, rfl⟩
  have hnumbered : c.Numbered := Cluster.numbered_empty.store key rfl
  have hnew : Lifecycle.of newLlm (Kind.finalizer .llm) = .new := by decide
  exact ⟨hsteady, rfl, hplaced, hnumbered, hnew,
    (reconcile_rests .llm {} key .unreachable hsteady clock s rfl hplaced hnumbered 3
      (Nat.le_refl 3)).1⟩

end ModelKeeper.Pass

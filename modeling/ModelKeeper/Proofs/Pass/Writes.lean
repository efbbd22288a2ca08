import ModelKeeper.Proofs.Pass.Failures
import ModelKeeper.Proofs.Pass.Walk

/-!
# What passes write

A pass amends the object that it is over, in one of a few ways (`Pass.Worked.Makes`), and over a
model it makes parts of the image store.  All its other requests are quiet.  So an invariant that is
kept by these amendments, by the making of parts and by quiet requests (`Pass.Worked.Leaves`) is
kept by the whole pass (`Pass.Worked.Leaves.reconcile`), in any meaning of requests.

In a cluster that nobody else writes, an amendment keeps an invariant if its write does
(`Change.keeps_onCluster`).
-/

namespace ModelKeeper

/-- An amendment keeps what its write keeps, and the using up of conflicts. -/
theorem Change.keeps_onCluster {σ : Type} {v : Vendors σ} {k : Kind} {key : Key} {half : Half}
    {change : Change k} (hproper : change.Proper) {I : Cluster → Prop}
    (hplace : ∀ c, I c → ∀ o : Object k, c.stored? k key = some o → o.IsAt key)
    (hconflict : ∀ c : Cluster, I c → c.injectedConflicts ≠ 0 →
      I { c with injectedConflicts := c.injectedConflicts - 1 })
    (hwrite : ∀ c stored now, I c → c.stored? k key = some stored →
      I (c.nextVersion.putBack half key (change.result half c stored now)))
    (attempts : Nat) : (amend half k key attempts change).Keeps (.onCluster v) I := by
  refine amend.keeps (Meaning.onCluster_monotone v) (fun c hc => ?_) attempts
  rw [Meaning.onCluster_get]
  cases hs : c.stored? k key with
  | none => simpa [Cluster.get, hs] using hc
  | some stored =>
    rw [Cluster.get_of_stored hs, Attempt.unlessFailed_ok]
    intro now
    split
    · have hput : (half.write (change now stored.settled).1).outcome.wp (.onCluster v)
          (fun _ => I) c = I (half.put c (change now stored.settled).1).2 := by
        cases half <;> rfl
      have hplace' := hproper.isAt (hplace c hc stored hs).settled now
      rw [hput]
      -- the write is refused by an injected conflict, or accepted since the copy is fresh
      by_cases hnone : c.injectedConflicts = 0
      · rw [Half.put_fresh hplace' hs hnone (.inr (hproper.version now stored.settled))]
        exact hwrite c stored now hc hs
      · rw [Half.put_injected hplace' hs hnone]
        exact hconflict c hc hnone
    · exact hc

/-- Quiet requests leave a cluster of its own as it is. -/
theorem Meaning.hushed_onCluster {σ : Type} (v : Vendors σ) (I : Cluster → Prop) :
    (onCluster v).Hushed I where
  monotone := onCluster_monotone v
  ask r hquiet c hc := by
    cases r with
    | create | update | updateStatus | delete => exact hquiet.elim
    | now | validate | call => exact fun _ => hc
    | _ => exact hc

namespace Pass

theorem Worked.Makes.proper {w : Worked} {half : Half} {change : Change w.kind}
    (h : w.Makes half change) : change.Proper := by
  cases h with
  | addFinalizer w => exact (Object.addFinalizer_ofFinalizers _ _).proper
  | removeFinalizer w => exact (Object.removeFinalizer_ofFinalizers _ _).proper
  | label type => exact Llm.label_proper type
  | recordReady outcome now => exact (Llm.recordReady_ofStatus _).proper
  | record generation outcome => exact (Prompt.record_ofStatus _ _).proper
  | markProgressing => exact Model.markProgressing_ofStatus.proper
  | markFailed message => exact (Model.markFailed_ofStatus message).proper
  | markAvailable n => exact (Model.markAvailable_ofStatus n).proper

/-! ### Invariants of a pass -/

variable {ε : Type} {m : Meaning ε} {I : ε → Prop}

/-- Whether all that a pass over the object under a key may do keeps an invariant.  The object is at
home wherever it is read. -/
structure Worked.Leaves (w : Worked) (key : Key) (m : Meaning ε) (I : ε → Prop) : Prop
    extends m.Hushed I where
  read : ∀ e, I e → m (.get w.kind key) (fun answer e => I e ∧ ∀ o, answer = .ok o → o.IsAt key) e
  amend : ∀ half change, w.Makes half change → ∀ attempts,
    (amend half w.kind key attempts change).Keeps m I
  make : w = .model → ∀ (p : ImageStore.Part) source,
    (Program.ask (.create p.kind (p.object key.ns source))).Keeps m I

namespace Worked.Leaves

variable {w : Worked} {key : Key} {settings : Settings}

theorem permits (h : w.Leaves key m I) : w.Permits key (· = key) fun _ p => p.Keeps m I where
  toReporting := h.reporting
  label hllm place hplace type attempts := by
    subst hllm hplace
    exact h.amend _ _ (.label type) attempts
  record change hmakes := h.amend .status change hmakes
  look _ p := h.ask (.get p.kind _) trivial
  make := h.make
  check _ := h.check
  send _ := h.send
  read next hnext e he := by
    refine h.monotone _ _ _ e (fun answer e hread => ?_) (h.read e he)
    obtain ⟨he, hhome⟩ := hread
    exact hnext answer (fun o ho => (hhome o ho).own) e he
  addFinalizer place hplace attempts := by
    subst hplace
    exact h.amend _ _ (.addFinalizer w) attempts
  removeFinalizer place hplace attempts := by
    subst hplace
    exact h.amend _ _ (.removeFinalizer w) attempts

/-- What all that a pass may do keeps, the pass keeps. -/
theorem reconcile (h : w.Leaves key m I) : (reconcile w settings key).Keeps m I :=
  h.permits.reconcile

end Worked.Leaves

/-! ### In a cluster of its own -/

/-- In a cluster that nobody else writes, a pass keeps what its writes keep. -/
theorem Worked.leaves_onCluster {σ : Type} (v : Vendors σ) (w : Worked) (key : Key)
    {I : Cluster → Prop}
    (hplace : ∀ c, I c → ∀ o : Object w.kind, c.stored? w.kind key = some o → o.IsAt key)
    (hconflict : ∀ c : Cluster, I c → c.injectedConflicts ≠ 0 →
      I { c with injectedConflicts := c.injectedConflicts - 1 })
    (hwrite : ∀ half change, w.Makes half change → ∀ c stored now, I c →
      c.stored? w.kind key = some stored →
      I (c.nextVersion.putBack half key (change.result half c stored now)))
    (hmake : w = .model → ∀ (p : ImageStore.Part) source c, I c →
      c.stored? p.kind (p.key key.ns) = none →
      I (c.nextVersion.store (p.key key.ns) (c.created (p.object key.ns source)))) :
    w.Leaves key (.onCluster v) I where
  toHushed := Meaning.hushed_onCluster v I
  read c hc := by
    refine ⟨hc, fun o ho => ?_⟩
    obtain ⟨stored, hs, rfl⟩ := Cluster.stored_of_get ho
    exact (hplace c hc stored hs).settled
  amend half change hmakes :=
    Change.keeps_onCluster hmakes.proper hplace hconflict (hwrite half change hmakes)
  make hmodel p source c hc := by
    have hpart := p.object_isAt key.ns source
    simp only [Program.ask, Program.wp_step, Program.wp_done, Meaning.onCluster_create]
    -- a part is made only where there is none
    cases hs : c.stored? p.kind (p.key key.ns) with
    | none =>
      rw [Cluster.create_absent hpart hs]
      exact hmake hmodel p source c hc hs
    | some stored =>
      rw [Cluster.create_present hpart hs]
      exact hc

end Pass

end ModelKeeper

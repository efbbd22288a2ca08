import ModelKeeper.Proofs.Cluster.Objects
import ModelKeeper.World.Basic

/-!
# What is left alone

Others may act on a world in any way that leaves one object alone (`World.Elsewhere`).  A request
leaves the objects of all kinds alone but of the one that it may write (`World.stored_answer`), and
a quiet one leaves the whole cluster as it is (`World.cluster_answer_of_isQuiet`).
-/

namespace ModelKeeper

/-- What others may do to a world that leave one object alone: anything else. -/
def World.Elsewhere {σ : Type} (k : Kind) (key : Key) (w w' : World σ) : Prop :=
  w'.cluster.stored? k key = w.cluster.stored? k key

/-- Whether a request changes no object. -/
def Request.IsQuiet : Request → Prop
  | .create _ _ | .update _ _ | .updateStatus _ _ | .delete _ _ => False
  | _ => True

/-- Whether a request may write an object of a kind. -/
def Request.Writes (k : Kind) : Request → Prop
  | .create j _ | .update j _ | .updateStatus j _ | .delete j _ => j = k
  | _ => False

namespace Cluster

variable {j k : Kind}

theorem stored?_create_other (hne : j ≠ k) (c : Cluster) (o : Object k) (key : Key) :
    (c.create o).2.stored? j key = c.stored? j key := by
  cases hkey : o.requireKey with
  | error e => simp [create, hkey]
  | ok home =>
    have hplace := Object.IsAt.of_requireKey hkey
    cases hs : c.stored? k home with
    | none =>
      rw [create_absent hplace hs]
      exact stored?_store_of_ne (fun h => hne h.1) c.nextVersion _
    | some stored => rw [create_present hplace hs]

theorem stored?_put_other (hne : j ≠ k) (c : Cluster) (half : Half) (o : Object k) (key : Key) :
    (half.put c o).2.stored? j key = c.stored? j key := by
  cases hkey : o.requireKey with
  | error e => rw [Half.put_incomplete half c hkey]
  | ok home =>
    have hplace := Object.IsAt.of_requireKey hkey
    -- a refused write leaves all tables, an accepted one those of other kinds
    cases hput : half.put c o with
    | mk answer c' =>
      cases answer with
      | error e =>
        obtain ⟨htables, -⟩ := Half.put_error hplace hput
        unfold stored?
        rw [htables]
      | ok a =>
        obtain ⟨stored, -, -, -, rfl⟩ := Half.put_ok hplace hput
        exact (sameBut_putBack c.nextVersion half home _).other hne key

theorem stored?_delete_other (hne : j ≠ k) (c : Cluster) (home : Key) (now : Instant) (key : Key) :
    (c.delete k home now).2.stored? j key = c.stored? j key := by
  unfold delete
  cases c.stored? k home with
  | none => rfl
  | some stored =>
    simp only
    split
    · exact stored?_remove_of_ne (fun h => hne h.1) c
    · split
      · rfl
      · exact stored?_store_of_ne (fun h => hne h.1) c.nextVersion _

end Cluster

/-- What does not write objects of a kind leaves them as they are. -/
theorem World.stored_answer {σ : Type} (v : Vendors σ) {k : Kind} {r : Request}
    (hr : ¬ r.Writes k) (w : World σ) (key : Key) :
    (answer v r w).2.cluster.stored? k key = w.cluster.stored? k key := by
  cases r with
  | create j o => exact Cluster.stored?_create_other (Ne.symm hr) w.cluster o key
  | update j o => exact Cluster.stored?_put_other (Ne.symm hr) w.cluster .body o key
  | updateStatus j o => exact Cluster.stored?_put_other (Ne.symm hr) w.cluster .status o key
  | delete j home => exact Cluster.stored?_delete_other (Ne.symm hr) w.cluster home w.clock key
  | _ => rfl

/-- A quiet request leaves all objects alone. -/
theorem World.cluster_answer_of_isQuiet {σ : Type} (v : Vendors σ) {r : Request} (h : r.IsQuiet)
    (w : World σ) : (answer v r w).2.cluster = w.cluster := by
  cases r with
  | create | update | updateStatus | delete => exact h.elim
  | _ => rfl

end ModelKeeper

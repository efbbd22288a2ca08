import ModelKeeper.Chat.Vendors
import ModelKeeper.Cluster.Basic

/-!
# A world for programs

A `World` answers the requests of programs by itself: it has a cluster, a clock that stands still, a
record of events and counts, and the state of the vendors.  `World.handler` lets programs run in it.
-/

namespace ModelKeeper

/-- Counts. -/
abbrev Counters : Type := List (Metric × Nat)

namespace Counters

/-- One more of something. -/
def increment (m : Metric) : Counters → Counters
  | [] => [(m, 1)]
  | (m', n) :: rest => if m' = m then (m', n + 1) :: rest else (m', n) :: increment m rest

/-- How many there are. -/
def count (m : Metric) : Counters → Nat
  | [] => 0
  | (m', n) :: rest => if m' = m then n else count m rest

theorem count_increment (m m' : Metric) (c : Counters) :
    count m (increment m' c) = count m c + (if m' = m then 1 else 0) := by
  induction c with
  | nil => simp [increment, count]
  | cons e rest ih =>
    obtain ⟨e, n⟩ := e
    unfold increment
    split
    · next h =>
      subst h
      by_cases he : e = m <;> simp [count, he]
    · next h =>
      by_cases he : e = m
      · subst he
        simp [count, Ne.symm h]
      · simp [count, he, ih]

end Counters

/-- All that programs act upon.  The vendors have a state of type `σ`. -/
structure World (σ : Type) where
  cluster : Cluster := .empty
  clock : Instant := ⟨1700000000, 0⟩
  /-- The events so far, the last one first. -/
  events : List Event := []
  counters : Counters := []
  vendors : σ

namespace World

variable {σ : Type}

/-- The world after an operation on the cluster, with the answer. -/
def withCluster {α : Type} (w : World σ) (a : Cluster.Answer α) : Except AccessError α × World σ :=
  (a.1, { w with cluster := a.2 })

/-- The world after a request to a vendor, with the answer. -/
def withVendors {α : Type} (w : World σ) (a : α × σ) : α × World σ :=
  (a.1, { w with vendors := a.2 })

/-- The answer to a request, and the world after it. -/
def answer (v : Vendors σ) : (r : Request) → World σ → r.Answer × World σ
  | .get k key, w => (w.cluster.get k key, w)
  | .create _ o, w => w.withCluster (w.cluster.create o)
  | .update _ o, w => w.withCluster (w.cluster.update o)
  | .updateStatus _ o, w => w.withCluster (w.cluster.updateStatus o)
  | .delete k key, w => w.withCluster (w.cluster.delete k key w.clock)
  | .now, w => (w.clock, w)
  | .emit e, w => ((), { w with events := e :: w.events })
  | .count m, w => ((), { w with counters := w.counters.increment m })
  | .connect c, w => (v.connect c, w)
  | .validate c options, w => w.withVendors (v.validate c options w.vendors)
  | .call c payload, w => w.withVendors (v.call c payload w.vendors)

/-- The world as a place where programs run. -/
def handler (v : Vendors σ) : Handler (World σ) := ⟨answer v⟩

end World

/-- The result of a program when others act in between: `others n` is what they do between the
`n`-th object that the program reads and its next request. -/
def Program.runAmid {σ α : Type} (h : Handler σ) (others : Nat → σ → σ) :
    Nat → Program α → σ → α × Nat × σ
  | n, .done a, s => (a, n, s)
  | n, .step r next, s =>
    let (answer, s) := h.answer r s
    match r, answer with
    | .get _ _, .ok o => (next (.ok o)).runAmid h others (n + 1) (others n s)
    | _, answer => (next answer).runAmid h others n s

end ModelKeeper

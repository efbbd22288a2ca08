import ModelKeeper.Proofs.Cluster.Handouts
import ModelKeeper.Proofs.Pass.Writes
import ModelKeeper.Proofs.World.Beside

/-!
# A pass in two clusters

A pass over one object runs in two clusters.  It need not be told more about them than that they
agree in what it sees (`Pass.Worked.Sees`): the objects that it may write to, secrets and workers,
and what is wanted of the language models.  Then it goes along in both in the same way
(`Pass.Worked.Along`): every object is left alone in both, or it is written in both and the two are
paired.

Until the object of the pass is written, it is the same in both (`Pass.Worked.Partway`).
-/

namespace ModelKeeper.Pass

/-- The places that a pass may write to: that of its object and, over a model, those of the parts of
the image store of the namespace. -/
def Worked.Touches (w : Worked) (key : Key) (k : Kind) (home : Key) : Prop :=
  (k = w.kind ∧ home = key) ∨
    w = .model ∧ ∃ p : ImageStore.Part, k = p.kind ∧ home = p.key key.ns

/-- Whether two clusters agree in all that a pass over the object under a key sees, with no
conflicts in the way. -/
structure Worked.Sees (w : Worked) (key : Key) (c d : Cluster) : Prop where
  conflicts : c.injectedConflicts = 0
  conflicts' : d.injectedConflicts = 0
  touched : ∀ k home, w.Touches key k home → d.stored? k home = c.stored? k home
  asked : ∀ k home, k = .secret ∨ k = .worker → d.stored? k home = c.stored? k home
  wanted : ∀ home, (d.stored? .llm home).map Object.spec = (c.stored? .llm home).map Object.spec

/-- Whether a pass, started in two clusters, has gone along to two others: in both it was handed out
`a` numbers, and objects were written in both or in none. -/
structure Worked.Along (w : Worked) (key : Key) (c d : Cluster) (a : Nat) (c' d' : Cluster) :
    Prop where
  version : c'.version = c.version + a
  version' : d'.version = d.version + a
  conflicts : c'.injectedConflicts = 0
  conflicts' : d'.injectedConflicts = 0
  objects : ∀ k home,
    (c'.stored? k home = c.stored? k home ∧ d'.stored? k home = d.stored? k home) ∨
      w.Touches key k home ∧ ∃ o o', c'.stored? k home = some o ∧ d'.stored? k home = some o' ∧
        o.Paired c.version d.version a o'

/-- Whether the pass has gone along without a write to its object yet. -/
structure Worked.Partway (w : Worked) (key : Key) (c d : Cluster) (a : Nat) (c' d' : Cluster) :
    Prop extends w.Along key c d a c' d' where
  own : c'.stored? w.kind key = c.stored? w.kind key
  own' : d'.stored? w.kind key = c.stored? w.kind key

/-- Whether the pass has gone along somehow. -/
def Worked.Moved (w : Worked) (key : Key) (c d c' d' : Cluster) : Prop :=
  ∃ a, w.Along key c d a c' d'

namespace Worked

variable {w : Worked} {key : Key} {c d c' d' : Cluster} {a : Nat} {k : Kind} {home : Key}

/-- Passes over different objects have no place in common, unless they are over models of one
namespace. -/
theorem Touches.disjoint {w w' : Worked} {key key' : Key} (hobjects : ¬ (w = w' ∧ key = key'))
    (hmodels : ¬ (w = .model ∧ w' = .model ∧ key.ns = key'.ns)) (h : w.Touches key k home) :
    ¬ w'.Touches key' k home := by
  intro h'
  rcases h with ⟨rfl, rfl⟩ | ⟨hw, p, rfl, rfl⟩ <;> rcases h' with ⟨hk, hhome⟩ | ⟨hw', p', hk, hhome⟩
  · exact hobjects ⟨kind_injective hk, hhome⟩
  · exact kind_ne_part w p' hk
  · exact kind_ne_part w' p hk.symm
  · have hns : ∀ (p : ImageStore.Part) ns, (p.key ns).ns = ns := fun p ns => by cases p <;> rfl
    refine hmodels ⟨hw, hw', ?_⟩
    rw [← hns p key.ns, hhome, hns]

theorem Touches.not_asked (h : w.Touches key k home) : ¬ (k = .secret ∨ k = .worker) := by
  rcases h with ⟨rfl, -⟩ | ⟨-, p, rfl, -⟩
  · cases w <;> decide
  · cases p <;> decide

theorem Sees.refl (w : Worked) (key : Key) (h : c.injectedConflicts = 0) : w.Sees key c c :=
  ⟨h, h, fun _ _ _ => rfl, fun _ _ _ => rfl, fun _ => rfl⟩

/-- Nothing has happened yet. -/
theorem Sees.partway (h : w.Sees key c d) : w.Partway key c d 0 c d :=
  ⟨⟨rfl, rfl, h.conflicts, h.conflicts', fun _ _ => .inl ⟨rfl, rfl⟩⟩, rfl,
    h.touched _ _ (.inl ⟨rfl, rfl⟩)⟩

namespace Along

theorem moved (h : w.Along key c d a c' d') : w.Moved key c d c' d' := ⟨a, h⟩

/-- One more write. -/
theorem store (h : w.Along key c d a c' d') (htouched : w.Touches key k home) {o o' : Object k}
    (hpaired : o.Paired c.version d.version (a + 1) o') :
    w.Along key c d (a + 1) (c'.nextVersion.store home o) (d'.nextVersion.store home o') where
  version := congrArg (· + 1) h.version
  version' := congrArg (· + 1) h.version'
  conflicts := h.conflicts
  conflicts' := h.conflicts'
  objects j home' := by
    by_cases hsame : j = k ∧ home' = home
    · obtain ⟨rfl, rfl⟩ := hsame
      exact .inr ⟨htouched, o, o', Cluster.stored?_store_self .., Cluster.stored?_store_self ..,
        hpaired⟩
    · rw [Cluster.stored?_store_of_ne hsame, Cluster.stored?_store_of_ne hsame]
      refine (h.objects j home').imp_right fun ⟨htouched, o, o', ho, ho', hpaired⟩ => ?_
      exact ⟨htouched, o, o', ho, ho', hpaired.mono (Nat.le_succ a)⟩

/-- The object of the pass is written. -/
theorem amended (h : w.Along key c d a c' d') {half : Half} {change : Change w.kind}
    (o : Object w.kind) (now : Instant) :
    w.Along key c d (a + 1) (c'.nextVersion.store key (change.result half c' o now))
      (d'.nextVersion.store key (change.result half d' o now)) := by
  refine h.store (.inl ⟨rfl, rfl⟩) ?_
  have hpaired := Object.paired_written
    (n := c.version) (m := d.version) (a := a)
    (half.replaced o (change now o.settled).1) (fun version => by cases half <;> rfl)
  rwa [← h.version, ← h.version'] at hpaired

/-- Secrets and workers still agree. -/
theorem asked (h : w.Along key c d a c' d') (hsees : w.Sees key c d)
    (hk : k = .secret ∨ k = .worker) (home : Key) : d'.stored? k home = c'.stored? k home := by
  rcases h.objects k home with ⟨hc, hd⟩ | ⟨htouched, -⟩
  · rw [hc, hd, hsees.asked k home hk]
  · exact absurd hk htouched.not_asked

/-- What is stored where the pass may write is there on both sides or on none. -/
theorem alike (h : w.Along key c d a c' d') (hsees : w.Sees key c d)
    (htouched : w.Touches key k home) :
    (c'.stored? k home = none ∧ d'.stored? k home = none) ∨
      ∃ o o', c'.stored? k home = some o ∧ d'.stored? k home = some o' ∧
        o.Alike c.version d.version a o' := by
  rcases h.objects k home with ⟨hc, hd⟩ | ⟨-, o, o', ho, ho', hpaired⟩
  · rw [hsees.touched k home htouched] at hd
    cases hs : c.stored? k home with
    | none => exact .inl ⟨hc.trans hs, hd.trans hs⟩
    | some o => exact .inr ⟨o, o, hc.trans hs, hd.trans hs, .inl rfl⟩
  · exact .inr ⟨o, o', ho, ho', .inr hpaired⟩

end Along

/-- A part of the image store is made. -/
theorem Partway.made (h : Worked.model.Partway key c d a c' d') (p : ImageStore.Part)
    {part part' : Object p.kind} (hmatched : part.Matched c.version d.version a part') :
    Worked.model.Partway key c d (a + 1)
      (c'.nextVersion.store (p.key key.ns) (c'.created part))
      (d'.nextVersion.store (p.key key.ns) (d'.created part')) where
  toAlong := h.store (.inr ⟨rfl, p, rfl, rfl⟩) (hmatched.created h.version h.version')
  -- a part of the image store is of another kind than the model
  own := by
    rw [Cluster.stored?_store_of_ne fun hsame => kind_ne_part .model p hsame.1]
    exact h.own
  own' := by
    rw [Cluster.stored?_store_of_ne fun hsame => kind_ne_part .model p hsame.1]
    exact h.own'

end Worked

/-! ### The requests of a pass -/

variable {σ : Type} {v : Vendors σ} {w : Worked} {key : Key} {c d : Cluster} {a : Nat}
  {time : Instant} {s t : World σ}

/-- What a pass asks of vendors, secrets and workers has the same answers. -/
theorem inquires_partway (hv : v.Steady) (hsees : w.Sees key c d) (a : Nat) (time : Instant) :
    (Meaning.beside (World.handler v)).Inquires fun e =>
      World.At time (w.Partway key c d a) e.1 e.2 :=
  World.inquires_beside hv time fun _ _ h _ home hk => h.asked hsees hk home

/-- The object of the pass is amended on both sides. -/
theorem beside_amend_own (v : Vendors σ) {half : Half} {change : Change w.kind}
    (hmakes : w.Makes half change) {o : Object w.kind} (hs : c.stored? w.kind key = some o)
    (hplace : o.IsAt key) (hdeleted : o.isDeleted = false) (attempts : Nat)
    (h : World.At time (w.Partway key c d a) s t) :
    (amend half w.kind key attempts change).Beside (World.handler v)
      (fun _ _ => World.At time (w.Moved key c d)) (fun _ _ => False)
      (amend half w.kind key attempts change) s t :=
  Change.beside_amend v hmakes.proper (h.clusters.own.trans hs) (h.clusters.own'.trans hs) hplace
    hdeleted h.clusters.conflicts h.clusters.conflicts' attempts h (fun _ _ h => h.moved)
    (h.clusters.amended o time).moved

/-- It does not matter what the amended object looks like. -/
theorem beside_persist (v : Vendors σ) {half : Half} {change : Change w.kind}
    (hmakes : w.Makes half change) {o : Object w.kind} (hs : c.stored? w.kind key = some o)
    (hplace : o.IsAt key) (hdeleted : o.isDeleted = false) (attempts : Nat)
    (h : World.At time (w.Partway key c d a) s t) :
    Attempt.Beside (World.handler v) (fun _ _ => World.At time (w.Moved key c d))
      (fun _ _ => False) (do let _ ← amend half w.kind key attempts change)
      (do let _ ← amend half w.kind key attempts change) s t :=
  .bind (beside_amend_own v hmakes hs hplace hdeleted attempts h) (fun _ _ _ _ h => .pure h)
    fun _ _ h => h.elim

end ModelKeeper.Pass

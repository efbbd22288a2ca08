import Mathlib.Logic.Function.Iterate
import ModelKeeper.Pass.Prompt
import ModelKeeper.Proofs.Cluster.Versions
import ModelKeeper.Proofs.World.Alone

/-!
# Generations of a prompt

In every step the prompt under a key goes away, or keeps its generation, or gets the next one, and
then a version is given out too (`Cluster.Proceeds`).  So the generation tells how many times
something else has been wanted of the prompt, until all numbers of 64 bits have been used up
(`Cluster.Aged`, `Cluster.generationAfter_inj`).

Between the passes over a prompt users may do a lot (`Cluster.Tended`), but no more than that.
-/

namespace ModelKeeper

namespace Cluster

/-- The generation after something else was wanted this many times. -/
def generationAfter (g : Int) (n : Nat) : Int := nextGeneration^[n] g

theorem generationAfter_succ (g : Int) (n : Nat) :
    generationAfter g (n + 1) = nextGeneration (generationAfter g n) :=
  Function.iterate_succ_apply' ..

theorem generationAfter_emod (g : Int) (n : Nat) :
    generationAfter g n % 0x10000000000000000 = (g + n) % 0x10000000000000000 := by
  have hmod : ∀ x : Int, Int.bmod x 0x10000000000000000 % 0x10000000000000000 =
      x % 0x10000000000000000 := fun x => Int.bmod_emod
  induction n with
  | zero => simp [generationAfter]
  | succ n ih =>
    rw [generationAfter_succ, nextGeneration, hmod]
    omega

/-- A generation does not come back before all numbers have been used up. -/
theorem generationAfter_inj {g : Int} {m n : Nat} (hm : m < 0x10000000000000000)
    (hn : n < 0x10000000000000000) (h : generationAfter g m = generationAfter g n) : m = n := by
  have hmod := congrArg (· % (0x10000000000000000 : Int)) h
  simp only [generationAfter_emod] at hmod
  omega

variable {key : Key} {c c' : Cluster}

/-- Whether the counter of versions fits in 64 bits. -/
def VersionFits (c : Cluster) : Prop := c.version < 0x10000000000000000

theorem Grows.versionFits (h : c.Grows c') (hfits : c'.VersionFits) : c.VersionFits :=
  Nat.lt_of_le_of_lt h.version hfits

/-- What becomes of the prompt under a key in a step: it goes away, it keeps its generation and
stays processed if it was, or something else is wanted of it from now on. -/
inductive Proceeds (key : Key) (c c' : Cluster) : Prop
  | gone : c'.stored? .prompt key = none → Proceeds key c c'
  | kept {o o' : Object .prompt} :
    c.stored? .prompt key = some o → c'.stored? .prompt key = some o' →
    o'.metadata.generation = o.metadata.generation →
    (o.isProcessed = true → o'.isProcessed = true) → Proceeds key c c'
  | renewed {o o' : Object .prompt} {g : Int} :
    c.stored? .prompt key = some o → c'.stored? .prompt key = some o' →
    o.metadata.generation = some g → o'.metadata.generation = some (nextGeneration g) →
    c.version < c'.version → Proceeds key c c'

namespace Proceeds

/-- What is read of a prompt to see whether it has been processed. -/
theorem isProcessed_congr {o o' : Object .prompt} (hstatus : o'.status = o.status)
    (hgeneration : o'.metadata.generation = o.metadata.generation) :
    o'.isProcessed = o.isProcessed := by
  unfold Object.isProcessed
  rw [hstatus, hgeneration]

theorem of_same (h : c'.stored? .prompt key = c.stored? .prompt key) : c.Proceeds key c' := by
  cases hs : c.stored? .prompt key with
  | none => exact .gone (h.trans hs)
  | some o => exact .kept hs (h.trans hs) rfl id

theorem of_status {o o' : Object .prompt} (hs : c.stored? .prompt key = some o)
    (hs' : c'.stored? .prompt key = some o')
    (hgeneration : o'.metadata.generation = o.metadata.generation)
    (hstatus : o'.status = o.status) : c.Proceeds key c' :=
  .kept hs hs' hgeneration fun h => (isProcessed_congr hstatus hgeneration).trans h

/-- An update takes the place of a prompt, or takes it away. -/
theorem of_merged {o incoming : Object .prompt} {g : Int} {version : String} {gone : Prop}
    [Decidable gone] (hs : c.stored? .prompt key = some o) (hg : o.metadata.generation = some g)
    (hs' : c'.stored? .prompt key = if gone then none else some (merged o incoming version))
    (hlt : c.version < c'.version) : c.Proceeds key c' := by
  split at hs'
  · exact .gone hs'
  · by_cases hspec : incoming.sameSpec o = true
    · refine .of_status hs hs' ?_ rfl
      simp [merged, hspec, hg]
    · refine .renewed hs hs' hg ?_ hlt
      simp [merged, hspec, hg]

end Proceeds

theorem version_withBody (c : Cluster) (key : Key) (o incoming : Object .prompt) :
    (c.withBody key o incoming).version = c.version + 1 := by
  unfold withBody putBack
  dsimp only
  split <;> rfl

/-- What users may do between two passes: update the prompt, request its deletion, and anything at
all elsewhere. -/
inductive Tended (key : Key) (c : Cluster) : Cluster → Prop
  | edit {o : Object .prompt} : o.IsAt key → Tended key c (c.update o).2
  | delete (now : Instant) : Tended key c (c.delete .prompt key now).2
  | elsewhere {op : Operation} :
    op.Proper → (op.apply c).stored? .prompt key = c.stored? .prompt key →
    Tended key c (op.apply c)

namespace Tended

theorem injectConflicts (c : Cluster) (n : Nat) : c.Tended key (c.injectConflicts n) :=
  @elsewhere key c (.injectConflicts n) trivial rfl

theorem grows (h : Tended key c c') (hplaced : c.Placed) : c.Grows c' := by
  cases h with
  | edit => exact grows_put hplaced .body _
  | delete now => exact grows_delete hplaced .prompt key now
  | elsewhere hproper => exact Operation.grows hproper hplaced

theorem proceeds (h : Tended key c c')
    (hg : ∀ o : Object .prompt, c.stored? .prompt key = some o → o.metadata.generation.isSome) :
    c.Proceeds key c' := by
  -- an edit comes to a merge with the stored prompt, unless it is refused
  cases h with
  | @edit o hplace =>
    cases hput : Half.body.put c o with
    | mk answer c' =>
      rw [show c.update o = _ from hput]
      cases answer with
      | error e =>
        obtain ⟨htables, -⟩ := Half.put_error hplace hput
        refine .of_same ?_
        unfold stored?
        rw [htables]
      | ok a =>
        obtain ⟨stored, hs, -, -, rfl⟩ := Half.put_ok hplace hput
        obtain ⟨g, hg⟩ := Option.isSome_iff_exists.1 (hg stored hs)
        refine .of_merged hs hg (stored?_putBack_self ..) ?_
        unfold putBack
        split <;> exact Nat.lt_succ_self _
  | delete now =>
    unfold Cluster.delete
    cases hs : c.stored? .prompt key with
    | none => exact .of_same rfl
    | some stored =>
      simp only
      split
      · exact .gone (stored?_remove_self ..)
      · split
        · exact .of_same rfl
        · exact .of_status hs (stored?_store_self ..) rfl rfl
  | elsewhere _ hsame => exact .of_same hsame

end Tended

/-- Whether the prompt under a key, if it is there, has been renewed `n` times since its generation
was `g`, each time with a version of its own after the first `first` ones. -/
structure Aged (key : Key) (g : Int) (first n : Nat) (c : Cluster) : Prop where
  placed : c.Placed
  versions : first + n ≤ c.version
  generation : ∀ o : Object .prompt, c.stored? .prompt key = some o →
    o.metadata.generation = some (generationAfter g n)

namespace Aged

variable {g : Int} {first n : Nat}

theorem start {o : Object .prompt} (hplaced : c.Placed) (hs : c.stored? .prompt key = some o)
    (hg : o.metadata.generation = some g) : c.Aged key g c.version 0 := by
  refine ⟨hplaced, Nat.le_refl _, fun o' ho' => ?_⟩
  obtain rfl := Option.some.inj (hs.symm.trans ho')
  exact hg

theorem isSome (h : c.Aged key g first n) (o : Object .prompt)
    (hs : c.stored? .prompt key = some o) : o.metadata.generation.isSome := by
  rw [h.generation o hs]
  rfl

theorem lt (h : c.Aged key g first n) (hfits : c.VersionFits) : n < 0x10000000000000000 :=
  Nat.lt_of_le_of_lt (Nat.le_trans (Nat.le_add_left n first) h.versions) hfits

/-- The prompt goes away or stays processed if it was, or it is renewed once more. -/
theorem proceed (h : c.Aged key g first n) (hgrows : c.Grows c') (hproceeds : c.Proceeds key c') :
    (c'.Aged key g first n ∧ ∀ o' : Object .prompt, c'.stored? .prompt key = some o' →
        ∃ o : Object .prompt, c.stored? .prompt key = some o ∧
          (o.isProcessed = true → o'.isProcessed = true)) ∨
      c'.Aged key g first (n + 1) := by
  have hplaced := hgrows.placed h.placed
  have hversions := Nat.le_trans h.versions hgrows.version
  cases hproceeds with
  | gone hnone =>
    refine .inl ⟨⟨hplaced, hversions, fun o' ho' => ?_⟩, fun o' ho' => ?_⟩
    all_goals
      rw [hnone] at ho'
      cases ho'
  | kept hs hs' hgeneration hprocessed =>
    refine .inl ⟨⟨hplaced, hversions, fun o' ho' => ?_⟩, fun o' ho' => ?_⟩
    · obtain rfl := Option.some.inj (hs'.symm.trans ho')
      exact hgeneration.trans (h.generation _ hs)
    · obtain rfl := Option.some.inj (hs'.symm.trans ho')
      exact ⟨_, hs, hprocessed⟩
  | renewed hs hs' hg hg' hlt =>
    refine .inr ⟨hplaced, ?_, fun o' ho' => ?_⟩
    · have := h.versions
      omega
    · obtain rfl := Option.some.inj (hs'.symm.trans ho')
      obtain rfl := Option.some.inj (hg.symm.trans (h.generation _ hs))
      rw [hg', generationAfter_succ]

end Aged

/-- Whether the prompt has been renewed `n` times since it was processed, and is processed still if
it has not been renewed. -/
structure Closed (key : Key) (g : Int) (first n : Nat) (c : Cluster) : Prop
    extends Aged key g first n c where
  processed : n = 0 → ∀ o : Object .prompt, c.stored? .prompt key = some o → o.isProcessed = true

theorem Closed.proceed {g : Int} {first n : Nat} (h : c.Closed key g first n)
    (hgrows : c.Grows c') (hproceeds : c.Proceeds key c') : ∃ n, c'.Closed key g first n := by
  rcases h.toAged.proceed hgrows hproceeds with ⟨haged, hkept⟩ | haged
  · refine ⟨n, haged, fun hn o' ho' => ?_⟩
    obtain ⟨o, ho, hprocessed⟩ := hkept o' ho'
    exact hprocessed (h.processed hn o ho)
  · exact ⟨n + 1, haged, fun hn => absurd hn (Nat.succ_ne_zero n)⟩

end Cluster

end ModelKeeper

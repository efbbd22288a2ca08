import ModelKeeper.Proofs.Cluster.Turns
import ModelKeeper.Proofs.Resource.Comparable
import ModelKeeper.Proofs.Resource.Restored

/-!
# Objects that are written back as they were read

A store keeps objects as JSON, so nothing may get lost on the way there and back.  A plain object of
one of the operator's kinds comes back as it was, and may be written as it was read: this changes
its version, and nothing else if it has a generation (`Cluster.survives_rewriting`).  An object
without a generation gets one (`Cluster.rewriting_gives_generation`).
-/

namespace ModelKeeper

variable {k : Kind} {o o' : Object k}

/-- Data that are not there are numbers. -/
theorem Object.IsPlain.isFinite (h : o.IsPlain) : o.IsFinite := by
  cases k with
  | prompt =>
    intro p hp
    obtain ⟨htemperature, htopP⟩ := h.spec p hp
    exact ⟨by simp [htemperature], by simp [htopP]⟩
  | _ => trivial

/-- Whether an object is another one after it has been written back: it has another version, and the
first generation if it had none. -/
structure Object.IsRewriteOf (o' o : Object k) : Prop where
  spec : o'.spec = o.spec
  status : o'.status = o.status
  metadata : o'.metadata = { o.metadata with
    version := o'.metadata.version
    generation := o'.metadata.generation }
  generation : o'.metadata.generation = o.metadata.generation ∨
    (o.metadata.generation = none ∧ o'.metadata.generation = some 1)

namespace Object.IsRewriteOf

theorem refl (o : Object k) : o.IsRewriteOf o := ⟨rfl, rfl, rfl, .inl rfl⟩

/-- The store finds that the same is wanted, and that nobody has asked for the deletion. -/
theorem of_merged (h : o.IsFinite) (hlive : o.isDeleted = false) (version : String) :
    (Cluster.merged o o version).IsRewriteOf o where
  spec := rfl
  status := rfl
  metadata := by
    have hdeletion : o.metadata.deletion = none := by simpa [Object.isDeleted] using hlive
    simp [Cluster.merged, hdeletion]
  generation := by
    cases hgeneration : o.metadata.generation with
    | none => exact .inr ⟨rfl, by simp [Cluster.merged, Object.sameSpec_self h, hgeneration]⟩
    | some g => exact .inl (by simp [Cluster.merged, Object.sameSpec_self h, hgeneration])

end Object.IsRewriteOf

namespace Cluster

variable {c : Cluster} {key : Key}

theorem isDeleted_merged_self (hlive : o.isDeleted = false) (version : String) :
    (merged o o version).isDeleted = false := by
  rw [merged_isDeleted, hlive, Bool.or_self]

/-- Whatever has become of the update, the object is still there and is at most rewritten. -/
theorem stored?_rewrite (hs : c.stored? k key = some o) (h : o.IsFinite)
    (hlive : o.isDeleted = false) :
    ∃ o', (c.update o).2.stored? k key = some o' ∧ o'.IsRewriteOf o := by
  have hmerged := Object.IsRewriteOf.of_merged h hlive c.nextVersion.versionText
  have hturns : (Operation.put .body o).Turns c key (some o) ((c.update o).2.stored? k key) := by
    rw [← hs]
    exact turns_put c .body o
  generalize (c.update o).2.stored? k key = after at hturns ⊢
  -- an object that is not marked cannot be released by a write
  cases hturns with
  | same => exact ⟨o, rfl, .refl o⟩
  | written p hop =>
    cases hop
    exact ⟨_, rfl, hmerged⟩
  | released p hop _ _ hdeleted =>
    cases hop
    rw [isDeleted_merged_self hlive] at hdeleted
    cases hdeleted
  | removed now hop => cases hop
  | marked now hop => cases hop

/-- An object that names its own key is written back unless a conflict is injected. -/
theorem update_rewrite (hs : c.stored? k key = some o) (h : o.IsFinite)
    (hlive : o.isDeleted = false) (hplace : o.IsAt key) (hc : c.injectedConflicts = 0) :
    c.update o = (.ok (merged o o c.nextVersion.versionText),
      c.nextVersion.store key (merged o o c.nextVersion.versionText)) := by
  have hput : Half.body.put c o = (.ok (merged o o c.nextVersion.versionText).settled,
      c.nextVersion.putBack .body key (merged o o c.nextVersion.versionText)) :=
    Half.put_fresh hplace hs hc (.inr rfl)
  have hfinite : (merged o o c.nextVersion.versionText).IsFinite := by
    cases k <;> exact h
  have hunmarked := isDeleted_merged_self hlive c.nextVersion.versionText
  refine hput.trans ?_
  rw [Object.settled_of_isFinite hfinite, putBack, if_neg (by rw [hunmarked]; simp)]

/-- **Objects survive serialization.**  A plain object of one of the operator's kinds is read from
its JSON, and has the same JSON again.  So wherever such an object is stored and not marked for
deletion, it is handed out as it is, and writing it back leaves it there with the same spec, status
and metadata but for its version; a generation is given only to one that has none.  The write goes
through, and gives the object the next version, if the object names its own key and no conflict is
injected. -/
theorem survives_rewriting (hcustom : k.isCustom) (h : o.IsPlain) :
    Object.ofJson? k o.toJson = some o ∧
      (Object.ofJson? k o.toJson).map Object.toJson = some o.toJson ∧
      ∀ (c : Cluster) (key : Key), c.stored? k key = some o → ¬ o.isDeleted →
        c.get k key = .ok o ∧
          ∃ o', (c.update o).2.stored? k key = some o' ∧ o'.IsRewriteOf o ∧
            (o.IsAt key → c.injectedConflicts = 0 → (c.update o).1 = .ok o' ∧
              o'.metadata.version = some c.nextVersion.versionText) := by
  have hread : Object.ofJson? k o.toJson = some o := (Object.codec_restores hcustom h).ofJson?
  refine ⟨hread, by rw [hread, Option.map_some], fun c key hs hlive => ?_⟩
  have hfinite := h.isFinite
  have hlive : o.isDeleted = false := by simpa using hlive
  refine ⟨by rw [get_of_stored hs, Object.settled_of_isFinite hfinite], ?_⟩
  obtain ⟨o', ho', hrewrite⟩ := stored?_rewrite hs hfinite hlive
  refine ⟨o', ho', hrewrite, fun hplace hc => ?_⟩
  have hupdate := update_rewrite hs hfinite hlive hplace hc
  rw [hupdate, stored?_store_self] at ho'
  obtain rfl := Option.some.inj ho'
  exact ⟨congrArg Prod.fst hupdate, rfl⟩

/-- A language model that was made on a leap day, with an owner, with fields that somebody manages,
with an endpoint of its own, and with some parts that are there but empty. -/
def llmDated (version : String) (generation : Option Int) : Object .llm where
  metadata :=
    { name := some "m"
      ns := some "default"
      annotations := some .empty
      finalizers := some []
      version := some version
      uid := some "uid-1"
      generation
      creation := some (.ofSeconds 1709210096)
      owners := some [
        { apiVersion := "v1", kind := "ConfigMap", name := "c", uid := "uid-0",
          controller := some true }]
      managed := some [
        { manager := some "kubectl"
          fields := some ⟨.obj [("f:spec", .obj [("f:type", .obj [])])], by decide, nofun⟩
          time := some (.ofSeconds 1709210096) }] }
  spec :=
    { type := "openai"
      provider := { endpoint := some { url := "http://m/v1", authSecret := some { name := "s" } } }
      models := ["a", "b"] }
  status := some {}

theorem llmDated_isPlain (version : String) {generation : Option Int}
    (h : ∀ n, generation = some n → IsInt64 n) : (llmDated version generation).IsPlain where
  metadata := by
    have htime : (Stamp.ofSeconds 1709210096).instant.IsPlain := by decide +kernel
    refine
      { creation := fun t ht => ?creation
        deletion := nofun
        managed := fun fs hfs f hf t ht => ?managed
        generation := h
        grace := nofun }
    case creation =>
      obtain rfl := Option.some.inj ht
      exact htime
    case managed =>
      obtain rfl := Option.some.inj hfs
      obtain rfl := List.mem_singleton.1 hf
      obtain rfl := Option.some.inj ht
      exact htime
  spec := trivial
  status _ _ := trivial

theorem survives_rewriting_dated :
    let key : Key := ⟨"default", "m"⟩
    let o := llmDated "1" (some 7)
    let c := (empty.insert o).2
    Object.ofJson? .llm o.toJson = some o ∧ c.get .llm key = .ok o ∧
      ∃ o', (c.update o).1 = .ok o' ∧ (c.update o).2.stored? .llm key = some o' ∧
        o'.IsRewriteOf o ∧ o'.metadata.version = some "2" := by
  intro key o c
  have hplain : o.IsPlain := llmDated_isPlain "1" (by rintro _ ⟨⟩; decide)
  have hstored : c.stored? .llm key = some o := by decide +kernel
  obtain ⟨hread, -, hstore⟩ := survives_rewriting rfl hplain
  obtain ⟨hget, o', ho', hrewrite, hanswer⟩ := hstore c key hstored (by decide)
  obtain ⟨hanswer, hversion⟩ := hanswer ⟨rfl, rfl⟩ rfl
  exact ⟨hread, hget, o', hanswer, ho', hrewrite, hversion.trans (by decide +kernel)⟩

/-- An object from which somebody has taken the generation gets one when it is written back. -/
theorem rewriting_gives_generation :
    let key : Key := ⟨"default", "m"⟩
    let unnumbered (o : Object .llm) : Object .llm :=
      { o with metadata := { o.metadata with generation := none } }
    let c := ((empty.insert (llmDated "1" (some 7))).2.modify .llm key unnumbered).2
    let o := llmDated "2" none
    c.stored? .llm key = some o ∧ o.IsPlain ∧ ¬ o.isDeleted ∧ c.get .llm key = .ok o ∧
      o.metadata.generation = none ∧
      ((c.update o).2.stored? .llm key).map (·.metadata.generation) = some (some 1) := by
  intro key unnumbered c o
  have hstored : c.stored? .llm key = some o := by decide +kernel
  exact ⟨hstored, llmDated_isPlain "2" nofun, by decide, get_of_stored hstored, rfl,
    by decide +kernel⟩

end Cluster

end ModelKeeper

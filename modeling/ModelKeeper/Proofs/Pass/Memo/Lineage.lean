import ModelKeeper.Proofs.Cluster.Versions
import ModelKeeper.Proofs.Resource.SameSpec

/-!
# The lives of a prompt

Under one key there may be several prompts one after the other, each with a unique id of its own,
and each may be changed while it is there.  What becomes of a prompt `Object.Follows` it: the
generation does not go back, and while it stands still the same is wanted.

`Cluster.Goes` says how the prompt under a key may go on in one step.  Users make prompts, change
what is wanted of them and request their deletion, and anything may be done to other objects
(`Cluster.Meanwhile`); the operator writes one half of the prompt as it has read it.  In all these
steps the prompt goes on like that:

* `Cluster.Meanwhile.goes`: what others do;
* `Cluster.goes_update`, `Cluster.goes_updateStatus`: what the operator does.
-/

namespace ModelKeeper

variable {key : Key}

/-! ### What follows a prompt -/

namespace Object

/-- Whether the same is wanted of two prompts.  Data are compared as numbers, so the two zeros are
the same. -/
structure WantsAlike (o p : Object .prompt) : Prop where
  llm : o.spec.llm = p.spec.llm
  params : Params.SameIfAny o.spec.params p.spec.params

theorem wantsAlike_iff {o p : Object .prompt} (ho : o.IsFinite) (hp : p.IsFinite) :
    o.WantsAlike p ↔ o.sameSpec p := by
  rw [sameSpec_prompt ho hp]
  exact ⟨fun h => ⟨h.llm, h.params⟩, fun h => ⟨h.1, h.2⟩⟩

theorem WantsAlike.trans {o p q : Object .prompt} (h : o.WantsAlike p) (h' : p.WantsAlike q) :
    o.WantsAlike q :=
  ⟨h.llm.trans h'.llm, h.params.trans h'.params⟩

/-- Whether a prompt can have come of another: it is the same one, the generation has not gone back,
and if it is still the same then so is what is wanted. -/
structure Follows (o p : Object .prompt) : Prop where
  uid : o.metadata.uid = p.metadata.uid
  generation : ∃ g g', p.metadata.generation = some g ∧ o.metadata.generation = some g' ∧ g ≤ g' ∧
    (g' = g → o.WantsAlike p)

namespace Follows

variable {o p q : Object .prompt}

theorem trans (h : o.Follows p) (h' : p.Follows q) : o.Follows q := by
  obtain ⟨huid, gp, go, hgp, hgo, hle, halike⟩ := h
  obtain ⟨huid', gq, gp', hgq, hgp', hle', halike'⟩ := h'
  obtain rfl : gp = gp' := Option.some.inj (hgp.symm.trans hgp')
  refine ⟨huid.trans huid', gq, go, hgq, hgo, Int.le_trans hle' hle, fun hsame => ?_⟩
  -- the generation in between cannot have been another one
  exact (halike (by omega)).trans (halike' (by omega))

/-- What is wanted at a generation is wanted as long as this is the generation. -/
theorem wantsAlike (h : o.Follows p) (hsame : o.metadata.generation = p.metadata.generation) :
    o.WantsAlike p := by
  obtain ⟨-, g, g', hg, hg', -, halike⟩ := h
  rw [hg, hg'] at hsame
  exact halike (Option.some.inj hsame)

end Follows

end Object

theorem Cluster.nextGeneration_of_lt {g : Int} (hpos : 1 ≤ g) (hlt : g < 0x7FFFFFFFFFFFFFFF) :
    nextGeneration g = g + 1 := by
  unfold nextGeneration
  rw [Int.bmod_eq_of_le] <;> omega

/-- An update leads to a prompt that follows the stored one.  The number of generations has to
suffice unless the same is wanted. -/
theorem Object.follows_merged {stored incoming : Object .prompt} (hstored : stored.IsFinite)
    (hincoming : incoming.IsFinite) {g : Int} (hg : stored.metadata.generation = some g)
    (hpos : 1 ≤ g) (hlt : incoming.sameSpec stored = true ∨ g < 0x7FFFFFFFFFFFFFFF)
    (version : String) : (Cluster.merged stored incoming version).Follows stored := by
  refine ⟨rfl, g, _, hg, rfl, ?_⟩
  rw [hg, Option.getD_some]
  by_cases hsame : incoming.sameSpec stored = true
  · -- the generation stays
    rw [if_pos hsame]
    have halike : incoming.WantsAlike stored := (wantsAlike_iff hincoming hstored).2 hsame
    exact ⟨Int.le_refl g, fun _ => ⟨halike.llm, halike.params⟩⟩
  · -- the generation grows
    have hnext := Cluster.nextGeneration_of_lt hpos (hlt.resolve_left hsame)
    rw [if_neg hsame, hnext]
    exact ⟨by omega, fun heq => by omega⟩

/-! ### Prompts of a cluster -/

/-- Different numbers make different unique ids. -/
theorem Cluster.uid_inj {n m : Nat} (h : "uid-" ++ toString n = "uid-" ++ toString m) : n = m :=
  versionText_inj ((String.append_right_inj "uid-").1 h)

/-- Whether a prompt is one of those that were created in a cluster: with data that are numbers, a
unique id that was given out with a version, and a generation that counts from one. -/
structure Object.Registered (o : Object .prompt) (c : Cluster) : Prop where
  finite : o.IsFinite
  uid : ∃ n ≤ c.version, o.metadata.uid = some ("uid-" ++ toString n)
  generation : ∃ g, o.metadata.generation = some g ∧ 1 ≤ g

namespace Object.Registered

variable {o o' : Object .prompt} {c c' : Cluster}

theorem mono (h : o.Registered c) (hversion : c.version ≤ c'.version) : o.Registered c' := by
  obtain ⟨n, hle, hn⟩ := h.uid
  exact ⟨h.finite, ⟨n, Nat.le_trans hle hversion, hn⟩, h.generation⟩

/-- A prompt is followed by all that differ from it neither in what is wanted nor in the generation.
-/
theorem followed (h : o.Registered c) (hspec : o'.spec = o.spec)
    (huid : o'.metadata.uid = o.metadata.uid)
    (hgeneration : o'.metadata.generation = o.metadata.generation) : o'.Follows o := by
  obtain ⟨g, hg, -⟩ := h.generation
  refine ⟨huid, g, g, hg, hgeneration.trans hg, Int.le_refl g, fun _ => ⟨?_, ?_⟩⟩
  · rw [hspec]
  · rw [hspec]
    exact .refl h.finite

theorem of_follows (h : o.Registered c) (hfollows : o'.Follows o) (hfinite : o'.IsFinite) :
    o'.Registered c := by
  obtain ⟨g, hg, hpos⟩ := h.generation
  obtain ⟨huid, g₀, g', hg₀, hg', hle, -⟩ := hfollows
  obtain rfl : g₀ = g := Option.some.inj (hg₀.symm.trans hg)
  obtain ⟨n, hn, huid₀⟩ := h.uid
  exact ⟨hfinite, ⟨n, hn, huid.trans huid₀⟩, g', hg', Int.le_trans hpos hle⟩

end Object.Registered

namespace Cluster

/-- What the operator itself does to a prompt in a step: nothing, it writes the body, or it writes
this status. -/
inductive OwnWrite where
  | none
  | body
  | status (s : Option PromptStatus)

/-- How the prompt under a key may go on in one step.  Only writes of the body take finalizers off
it, and only writes of the status touch the status. -/
inductive Goes (key : Key) (own : OwnWrite) (c c' : Cluster) : Prop
  | same : c'.stored? .prompt key = c.stored? .prompt key → Goes key own c c'
  | created {o : Object .prompt} :
    c.stored? .prompt key = none → c'.stored? .prompt key = some o → o.IsFinite →
    o.metadata.uid = some ("uid-" ++ toString (c.version + 1)) → o.metadata.generation = some 1 →
    o.status = none → c.version < c'.version → Goes key own c c'
  | removed {o : Object .prompt} :
    c.stored? .prompt key = some o → c'.stored? .prompt key = none →
    (own = .body ∨ o.finalizers = []) → Goes key own c c'
  | kept {o o' : Object .prompt} :
    c.stored? .prompt key = some o → c'.stored? .prompt key = some o' → o'.IsFinite →
    o'.Follows o → (o'.status = o.status ∨ own = .status o'.status) →
    (own = .body ∨ o.finalizers ⊆ o'.finalizers) → Goes key own c c'

namespace Goes

variable {own : OwnWrite} {c c' : Cluster} {o o' copy : Object .prompt}

theorem registered (h : Goes key own c c') (hversion : c.version ≤ c'.version)
    (hc : ∀ o, c.stored? .prompt key = some o → o.Registered c)
    (ho' : c'.stored? .prompt key = some o') : o'.Registered c' := by
  cases h with
  | same hsame => exact (hc o' (hsame ▸ ho')).mono hversion
  | created _ hnew hfinite huid hgeneration _ hlt =>
    obtain rfl := Option.some.inj (hnew.symm.trans ho')
    exact ⟨hfinite, ⟨c.version + 1, hlt, huid⟩, 1, hgeneration, Int.le_refl 1⟩
  | removed _ hgone => rw [ho'] at hgone; cases hgone
  | kept ho hnew hfinite hfollows =>
    obtain rfl := Option.some.inj (hnew.symm.trans ho')
    exact ((hc _ ho).of_follows hfollows hfinite).mono hversion

/-- What followed a copy is followed on.  A new prompt has another unique id. -/
theorem follows (h : Goes key own c c') (hcopy : copy.Registered c)
    (hc : ∀ o, c.stored? .prompt key = some o → o.metadata.uid = copy.metadata.uid →
      o.Follows copy)
    (ho' : c'.stored? .prompt key = some o') (huid : o'.metadata.uid = copy.metadata.uid) :
    o'.Follows copy := by
  cases h with
  | same hsame => exact hc o' (hsame ▸ ho') huid
  | created _ hnew _ huid' =>
    obtain rfl := Option.some.inj (hnew.symm.trans ho')
    obtain ⟨n, hle, hn⟩ := hcopy.uid
    -- the number in the unique id of the copy was given out before
    have heq : c.version + 1 = n := uid_inj (Option.some.inj (huid'.symm.trans (huid.trans hn)))
    omega
  | removed _ hgone => rw [ho'] at hgone; cases hgone
  | kept ho hnew _ hfollows =>
    obtain rfl := Option.some.inj (hnew.symm.trans ho')
    exact hfollows.trans (hc _ ho (hfollows.uid.symm.trans huid))

/-- A prompt with a finalizer stays there. -/
theorem held (h : Goes key own c c') (hown : own ≠ .body)
    (ho : c.stored? .prompt key = some o) {finalizer : String} (hmem : finalizer ∈ o.finalizers) :
    ∃ o', c'.stored? .prompt key = some o' ∧ o'.metadata.uid = o.metadata.uid ∧
      finalizer ∈ o'.finalizers := by
  cases h with
  | same hsame => exact ⟨o, hsame.trans ho, rfl, hmem⟩
  | created habsent => rw [ho] at habsent; cases habsent
  | removed hstood _ hfree =>
    obtain rfl := Option.some.inj (hstood.symm.trans ho)
    rw [hfree.resolve_left hown] at hmem
    cases hmem
  | kept hstood hnew _ hfollows _ hfinalizers =>
    obtain rfl := Option.some.inj (hstood.symm.trans ho)
    exact ⟨_, hnew, hfollows.uid, hfinalizers.resolve_left hown hmem⟩

/-- A status is that which the same prompt had before, unless it is just being written. -/
theorem status (h : Goes key own c c') (ho' : c'.stored? .prompt key = some o') :
    o'.status = none ∨
      ∃ o, c.stored? .prompt key = some o ∧ o'.metadata.uid = o.metadata.uid ∧
        (o'.status = o.status ∨ own = .status o'.status) := by
  cases h with
  | same hsame => exact .inr ⟨o', hsame ▸ ho', rfl, .inl rfl⟩
  | created _ hnew _ _ _ hstatus =>
    obtain rfl := Option.some.inj (hnew.symm.trans ho')
    exact .inl hstatus
  | removed _ hgone => rw [ho'] at hgone; cases hgone
  | kept ho hnew _ hfollows hstatus =>
    obtain rfl := Option.some.inj (hnew.symm.trans ho')
    exact .inr ⟨_, ho, hfollows.uid, hstatus⟩

end Goes

/-! ### What a step does to the prompt -/

variable {c : Cluster} {o : Object .prompt} {own : OwnWrite}

/-- An update, of a copy or by a user.  It has to leave the finalizers on the prompt unless it is
the operator that writes the body, and the number of generations has to suffice unless the same is
wanted. -/
theorem goes_update (hplace : o.IsAt key) (hfinite : o.IsFinite)
    (hc : ∀ stored, c.stored? .prompt key = some stored → stored.Registered c)
    (hgeneration : ∀ stored : Object .prompt, c.stored? .prompt key = some stored →
      o.metadata.version = none ∨ o.metadata.version = stored.metadata.version →
      o.sameSpec stored = true ∨
        ∀ g, stored.metadata.generation = some g → g < 0x7FFFFFFFFFFFFFFF)
    (hfinalizers : own = .body ∨
      ∀ stored, c.stored? .prompt key = some stored → stored.finalizers ⊆ o.finalizers) :
    Goes key own c (c.update o).2 := by
  have hupdate : c.update o = Half.body.put c o := rfl
  rw [hupdate]
  cases hput : Half.body.put c o with
  | mk answer c' =>
    cases answer with
    | error e =>
      obtain ⟨htables, -⟩ := Half.put_error hplace hput
      refine .same ?_
      unfold stored?
      rw [htables]
    | ok a =>
      obtain ⟨stored, hs, hversion, -, rfl⟩ := Half.put_ok hplace hput
      have hafter := stored?_putBack_self c.nextVersion .body key
        (Half.body.replaced stored o c.nextVersion.versionText)
      have hkept : own = .body ∨ stored.finalizers ⊆ o.finalizers :=
        hfinalizers.imp_right fun h => h stored hs
      obtain ⟨g, hg, hpos⟩ := (hc stored hs).generation
      have hfollows := Object.follows_merged (hc stored hs).finite hfinite hg hpos
        ((hgeneration stored hs hversion).imp_right fun h => h g hg) c.nextVersion.versionText
      split at hafter
      · next hfree =>
        -- without finalizers it goes away, and then it had none unless the operator took them off
        have hnone : o.finalizers = [] := hfree.2.2
        refine .removed hs hafter (hkept.imp_right fun h => ?_)
        exact List.subset_nil.1 (hnone ▸ h)
      · exact .kept hs hafter hfinite hfollows (.inl rfl) hkept

/-- A write of the status. -/
theorem goes_updateStatus (hplace : o.IsAt key)
    (hc : ∀ stored, c.stored? .prompt key = some stored → stored.Registered c) :
    Goes key (.status o.status) c (c.updateStatus o).2 := by
  have hupdate : c.updateStatus o = Half.status.put c o := rfl
  rw [hupdate]
  cases hput : Half.status.put c o with
  | mk answer c' =>
    cases answer with
    | error e =>
      obtain ⟨htables, -⟩ := Half.put_error hplace hput
      refine .same ?_
      unfold stored?
      rw [htables]
    | ok a =>
      obtain ⟨stored, hs, -, -, rfl⟩ := Half.put_ok hplace hput
      -- the write of a status cannot free the object
      have hafter := stored?_putBack_self c.nextVersion .status key
        (Half.status.replaced stored o c.nextVersion.versionText)
      rw [if_neg fun h => by cases h.1] at hafter
      have hstored := hc stored hs
      exact .kept hs hafter hstored.finite (hstored.followed rfl rfl rfl) (.inr rfl)
        (.inr fun _ h => h)

theorem goes_create (hplace : o.IsAt key) (hfinite : o.IsFinite) (hstatus : o.status = none) :
    Goes key own c (c.create o).2 := by
  cases hs : c.stored? .prompt key with
  | some stored =>
    rw [create_present hplace hs]
    exact .same rfl
  | none =>
    rw [create_absent hplace hs]
    exact .created hs (stored?_store_self ..) hfinite rfl rfl hstatus (Nat.lt_succ_self _)

theorem goes_delete (hc : ∀ stored, c.stored? .prompt key = some stored → stored.Registered c)
    (now : Instant) : Goes key own c (c.delete .prompt key now).2 := by
  unfold delete
  cases hs : c.stored? .prompt key with
  | none => exact .same rfl
  | some stored =>
    simp only
    split
    · next hfree =>
      exact .removed hs (stored?_remove_self ..) (.inr (List.isEmpty_iff.1 hfree))
    · split
      · -- it is marked already
        exact .same rfl
      · have hstored := hc stored hs
        exact .kept hs (stored?_store_self ..) hstored.finite (hstored.followed rfl rfl rfl)
          (.inl rfl) (.inr fun _ h => h)

/-- What others may do meanwhile: make prompts without a status, change what is wanted while there
are generations left, request the deletion, and do anything at all elsewhere. -/
inductive Meanwhile (key : Key) (c : Cluster) : Cluster → Prop
  | create {o : Object .prompt} :
    o.IsAt key → o.IsFinite → o.status = none → Meanwhile key c (c.create o).2
  | edit {o : Object .prompt} :
    o.IsAt key → o.IsFinite →
    (∀ stored, c.stored? .prompt key = some stored → stored.finalizers ⊆ o.finalizers ∧
      ∀ g, stored.metadata.generation = some g → g < 0x7FFFFFFFFFFFFFFF) →
    Meanwhile key c (c.update o).2
  | delete (now : Instant) : Meanwhile key c (c.delete .prompt key now).2
  | elsewhere {op : Operation} :
    op.Proper → (op.apply c).stored? .prompt key = c.stored? .prompt key →
    Meanwhile key c (op.apply c)

namespace Meanwhile

variable {c' : Cluster}

theorem grows (h : Meanwhile key c c') (hplaced : c.Placed) : c.Grows c' := by
  cases h with
  | create => exact grows_create c _
  | edit => exact grows_put hplaced .body _
  | delete now => exact grows_delete hplaced .prompt key now
  | elsewhere hproper => exact Operation.grows hproper hplaced

theorem goes (h : Meanwhile key c c')
    (hc : ∀ stored, c.stored? .prompt key = some stored → stored.Registered c) :
    Goes key .none c c' := by
  cases h with
  | create hplace hfinite hstatus => exact goes_create hplace hfinite hstatus
  | edit hplace hfinite hstored =>
    exact goes_update hplace hfinite hc (fun stored hs _ => .inr (hstored stored hs).2)
      (.inr fun stored hs => (hstored stored hs).1)
  | delete now => exact goes_delete hc now
  | elsewhere _ hsame => exact .same hsame

end Meanwhile

end Cluster

end ModelKeeper

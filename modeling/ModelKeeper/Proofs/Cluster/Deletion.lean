import ModelKeeper.Proofs.Cluster.Turns
import ModelKeeper.Proofs.Pass.Memo.Lineage

/-!
# The deletion of objects

Finalizers protect the objects of a cluster into which nothing is put as it is
(`Cluster.finalizers_protect`).  An object that is marked for deletion has a finalizer to wait for,
keeps its mark as long as it is there, and goes away only with the update that takes its last
finalizer.

The mark itself does not come from requests for deletion alone: an update that carries one, for an
object that has none, marks the object or even removes it (`Cluster.unmarked_kept_iff`).  This is
the only other way, and a write of the status has no part in it.
-/

namespace ModelKeeper

/-- Whether an object can have come of another one: it is the same one, and if that one was marked
for deletion then the mark is the same. -/
structure Object.Endures {k : Kind} (o' o : Object k) : Prop where
  uid : o'.metadata.uid = o.metadata.uid
  deletion : o.isDeleted → o'.metadata.deletion = o.metadata.deletion

namespace Object.Endures

variable {k : Kind} {o o' o'' : Object k}

theorem refl (o : Object k) : o.Endures o := ⟨rfl, fun _ => rfl⟩

theorem isDeleted (h : o'.Endures o) (hdeleted : o.isDeleted) : o'.isDeleted := by
  have hmark := h.deletion hdeleted
  unfold Object.isDeleted at hdeleted ⊢
  rw [hmark]
  exact hdeleted

theorem trans (h : o'.Endures o) (h' : o''.Endures o') : o''.Endures o where
  uid := h'.uid.trans h.uid
  deletion hdeleted := (h'.deletion (h.isDeleted hdeleted)).trans (h.deletion hdeleted)

end Object.Endures

namespace Cluster

variable {c : Cluster} {op : Operation} {k : Kind} {key : Key} {stored o : Object k}

/-! ### One operation -/

/-- Whether an operation on `c` takes away the object `stored` under a key: it requests the deletion
while there is no finalizer, or is an update that goes through and leaves the object marked for
deletion and without finalizers. -/
inductive Operation.Removes (op : Operation) (c : Cluster) (key : Key) (stored : Object k) : Prop
  | requested (now : Instant) :
    op = .delete k key now → stored.finalizers = [] → Removes op c key stored
  | released (o : Object k) {m : Option Metadata} :
    op = .put .body o → o.IsAt key → op.answer c = .ok m → (stored.isDeleted ∨ o.isDeleted) →
    o.finalizers = [] → Removes op c key stored

theorem Operation.answer_isOk_iff : (op.answer c).isOk ↔ ∃ m, op.answer c = .ok m := by
  cases op.answer c <;> simp [Except.isOk, Except.toBool]

namespace Operation.Turns

/-- What is still there has endured. -/
theorem endures {after : Object k} (h : op.Turns c key (some stored) (some after)) :
    after.Endures stored := by
  cases h with
  | same => exact .refl stored
  | @written half _ o =>
    cases half with
    | status => exact ⟨rfl, fun _ => rfl⟩
    | body =>
      refine ⟨rfl, fun hdeleted => ?_⟩
      -- a mark that is there goes before that of the incoming object
      obtain ⟨t, ht⟩ := Option.isSome_iff_exists.1 hdeleted
      simp [Half.replaced, merged, ht]
  | marked now _ _ hunmarked =>
    exact ⟨rfl, fun hdeleted => absurd hdeleted (Bool.eq_false_iff.1 hunmarked)⟩

/-- What is there has endured, or has just been made. -/
theorem origin {found : Option (Object k)} {after : Object k}
    (h : op.Turns c key found (some after)) :
    (∃ stored, found = some stored ∧ after.Endures stored) ∨
      after.metadata.uid = some ("uid-" ++ toString (c.version + 1)) ∧
        (op.apply c).version = c.version + 1 := by
  cases hfound : found with
  | some stored => exact .inl ⟨stored, rfl, endures (hfound ▸ h)⟩
  | none =>
    subst hfound
    cases h with
    | made o _ _ hnext => exact .inr ⟨rfl, hnext⟩

theorem gone_iff {found : Option (Object k)} (h : op.Turns c key (some stored) found) :
    found = none ↔ op.Removes c key stored := by
  have hmarked : ∀ o : Object k, (merged stored o c.nextVersion.versionText).isDeleted ↔
      stored.isDeleted ∨ o.isDeleted := by
    intro o
    rw [merged_isDeleted, Bool.or_eq_true]
  -- every other turn rules out both ways to remove an object
  cases h with
  | same _ hput hdelete =>
    refine ⟨fun hnone => (nomatch hnone), fun hremoves => ?_⟩
    cases hremoves with
    | requested now heq hfinalizers =>
      exact absurd hfinalizers (hdelete now stored heq rfl).2
    | released o heq hplace hanswer => exact absurd hanswer (hput .body o _ heq hplace)
  | written o heq _ _ hkept =>
    refine ⟨fun hnone => (nomatch hnone), fun hremoves => ?_⟩
    subst heq
    cases hremoves with
    | requested now heq => cases heq
    | released o heq _ _ hdeleted hfinalizers =>
      cases heq
      exact absurd ⟨rfl, (hmarked o).2 hdeleted, hfinalizers⟩ hkept
  | released o heq hplace hanswer hdeleted hfinalizers =>
    exact iff_of_true rfl (.released o heq hplace hanswer ((hmarked o).1 hdeleted) hfinalizers)
  | removed now heq hfinalizers => exact iff_of_true rfl (.requested now heq hfinalizers)
  | marked now heq hfinalizers =>
    refine ⟨fun hnone => (nomatch hnone), fun hremoves => ?_⟩
    subst heq
    cases hremoves with
    | requested now _ hnone => exact absurd hnone hfinalizers
    | released o heq => cases heq

end Operation.Turns

/-! ### Runs -/

/-- Whether the objects of a cluster are protected as they should be: those that are marked for
deletion have a finalizer.  Besides, unique ids are given out with versions. -/
structure Protected (c : Cluster) : Prop where
  finalizers : ∀ k key (o : Object k), c.stored? k key = some o → o.isDeleted → o.finalizers ≠ []
  uid : ∀ k key (o : Object k), c.stored? k key = some o →
    ∃ n ≤ c.version, o.metadata.uid = some ("uid-" ++ toString n)

theorem protected_empty : empty.Protected where
  finalizers _ _ _ h := nomatch h
  uid _ _ _ h := nomatch h

theorem Protected.apply (hc : c.Protected) (hop : op.Regular) : (op.apply c).Protected := by
  have hturns : ∀ {k key} {o : Object k}, (op.apply c).stored? k key = some o →
      op.Turns c key (c.stored? k key) (some o) := by
    intro k key o ho
    have h : op.Turns c key (c.stored? k key) ((op.apply c).stored? k key) :=
      Operation.turns c hop
    rwa [ho] at h
  constructor
  · intro k key o ho hdeleted
    have h := hturns ho
    generalize hs : c.stored? k key = found at h
    -- only a change of the body takes finalizers, and one that takes the last removes the object
    cases h with
    | same => exact hc.finalizers k key o hs hdeleted
    | made => cases hdeleted
    | @written half stored o _ _ _ _ hkept =>
      cases half with
      | status => exact hc.finalizers k key stored hs hdeleted
      | body => exact fun hnone => hkept ⟨rfl, hdeleted, hnone⟩
    | marked now _ hfinalizers => exact hfinalizers
  · intro k key o ho
    rcases (hturns ho).origin with ⟨stored, hs, hendures⟩ | ⟨huid, hnext⟩
    · obtain ⟨n, hle, hn⟩ := hc.uid k key stored hs
      exact ⟨n, Nat.le_trans hle (op.outcome c).version_le, hendures.uid.trans hn⟩
    · exact ⟨c.version + 1, Nat.le_of_eq hnext.symm, huid⟩

section

variable {ops more : List Operation}

theorem protected_after (hops : ∀ op ∈ ops, op.Regular) : (after ops).Protected := by
  induction ops using List.reverseRecOn with
  | nil => exact protected_empty
  | append_singleton ops op ih =>
    rw [after_append_singleton]
    exact (ih fun op' hop' => hops op' (List.mem_append_left _ hop')).apply (hops op (by simp))

/-- What comes later in a run has endured since, or has a unique id that was not given out before.
-/
theorem origin_after (hmore : ∀ op ∈ more, op.Regular) {o : Object k}
    (ho : (after (ops ++ more)).stored? k key = some o) :
    (∃ stored, (after ops).stored? k key = some stored ∧ o.Endures stored) ∨
      ∃ n, (after ops).version < n ∧ o.metadata.uid = some ("uid-" ++ toString n) := by
  induction more using List.reverseRecOn generalizing o with
  | nil =>
    rw [List.append_nil] at ho
    exact .inl ⟨o, ho, .refl o⟩
  | append_singleton more op ih =>
    rw [← List.append_assoc, after_append_singleton] at ho
    have h : op.Turns (after (ops ++ more)) key ((after (ops ++ more)).stored? k key)
        ((op.apply (after (ops ++ more))).stored? k key) := Operation.turns _ (hmore op (by simp))
    rw [ho] at h
    -- the last operation has kept the object or made it, with a unique id that is new
    rcases h.origin with ⟨p, hp, hendures⟩ | ⟨huid, -⟩
    · rcases ih (fun op' hop' => hmore op' (List.mem_append_left _ hop')) hp with
        ⟨stored, hs, hendures'⟩ | ⟨n, hlt, hn⟩
      · exact .inl ⟨stored, hs, hendures'.trans hendures⟩
      · exact .inr ⟨n, hlt, hendures.uid.trans hn⟩
    · exact .inr ⟨_, Nat.lt_succ_of_le (version_after_le ops more), huid⟩

/-- **Finalizers protect objects.**  After any operations of clients, failing writes among them:

* every object that is marked for deletion has a finalizer;
* to request the deletion of such an object once more changes nothing;
* an object that was marked at an earlier moment and is still there, by its unique id, has the same
  mark;
* in any further operation an object goes away exactly if its deletion is requested while it has no
  finalizers, or an update goes through that leaves it marked and without finalizers
  (`Cluster.Operation.Removes`), and otherwise it stays the same one. -/
theorem finalizers_protect (hops : ∀ op ∈ ops, op.Regular) :
    let c := after ops
    (∀ k key (o : Object k), c.stored? k key = some o → o.isDeleted → o.finalizers ≠ []) ∧
      (∀ k key (o : Object k) now, c.stored? k key = some o → o.isDeleted →
        c.delete k key now = (.ok (), c)) ∧
      (∀ earlier later, ops = earlier ++ later → ∀ k key (o p : Object k),
        (after earlier).stored? k key = some o → c.stored? k key = some p →
        p.metadata.uid = o.metadata.uid → o.isDeleted →
        p.metadata.deletion = o.metadata.deletion) ∧
      ∀ op : Operation, op.Regular → ∀ k key (o : Object k), c.stored? k key = some o →
        ((op.apply c).stored? k key = none ↔ op.Removes c key o) ∧
          ∀ p, (op.apply c).stored? k key = some p → p.metadata.uid = o.metadata.uid := by
  intro c
  have hprotected : c.Protected := protected_after hops
  refine ⟨hprotected.finalizers, ?_, ?_, ?_⟩
  · intro k key o now ho hdeleted
    have hfinalizers := hprotected.finalizers k key o ho hdeleted
    rw [← List.isEmpty_eq_false_iff] at hfinalizers
    simp [delete, ho, hfinalizers, hdeleted]
  · rintro earlier later rfl k key o p ho hp huid
    have hregular : ∀ op ∈ earlier ++ later, op.Regular := hops
    rcases origin_after (fun op hop => hregular op (List.mem_append_right _ hop)) hp with
      ⟨q, hq, hendures⟩ | ⟨n, hlt, hn⟩
    · obtain rfl := Option.some.inj (ho.symm.trans hq)
      exact hendures.deletion
    · -- the unique id of the first one was given out before
      have hearlier := protected_after fun op hop => hregular op (List.mem_append_left _ hop)
      obtain ⟨m, hle, hm⟩ := hearlier.uid k key o ho
      have : n = m := uid_inj (Option.some.inj (hn.symm.trans (huid.trans hm)))
      omega
  · intro op hop k key o ho
    have h : op.Turns c key (c.stored? k key) ((op.apply c).stored? k key) :=
      Operation.turns c hop
    rw [ho] at h
    refine ⟨h.gone_iff, fun p hp => ?_⟩
    rw [hp] at h
    exact h.endures.uid

/-- A language model with these finalizers and this mark of deletion. -/
def llmHeld (finalizers : List String) (deletion : Option Stamp) : Object .llm where
  metadata := { name := some "m", ns := some "default", finalizers := some finalizers, deletion }
  spec := {}

/-- An update with another mark leaves the first one, and the one that takes the last finalizer
removes the object. -/
theorem finalizers_protect_held :
    let key : Key := ⟨"default", "m"⟩
    let ops : List Operation :=
      [.create (llmHeld ["f"] none), .delete .llm key ⟨10, 0⟩,
        .put .body (llmHeld ["f"] (some (.ofSeconds 20)))]
    (∀ op ∈ ops, op.Regular) ∧
      ∃ p, (after ops).stored? .llm key = some p ∧ p.metadata.deletion = some (.ofSeconds 10) ∧
        (after ops).delete .llm key ⟨30, 0⟩ = (.ok (), after ops) ∧
        ((Operation.put .body (llmHeld [] none)).apply (after ops)).stored? .llm key = none := by
  intro key ops
  have hops : ∀ op ∈ ops, op.Regular := by simp [ops, Operation.Regular]
  let shown : Option (Object .llm) → Option (Option String × Option Stamp) :=
    Option.map fun o => (o.metadata.uid, o.metadata.deletion)
  have hmarked : shown ((after (ops.take 2)).stored? .llm key) =
      some (some "uid-1", some (.ofSeconds 10)) := by decide +kernel
  have hlater : ((after ops).stored? .llm key).map (·.metadata.uid) = some (some "uid-1") := by
    decide +kernel
  obtain ⟨o, ho, hshown⟩ := Option.map_eq_some_iff.1 hmarked
  obtain ⟨p, hp, huid'⟩ := Option.map_eq_some_iff.1 hlater
  obtain ⟨huid, hdeletion⟩ := Prod.mk.inj hshown
  -- the mark is there since the second operation, so the third one cannot change it
  obtain ⟨-, hagain, hkept, hgone⟩ := finalizers_protect hops
  have hdeleted : o.isDeleted := by rw [Object.isDeleted, hdeletion]; rfl
  have hmark : p.metadata.deletion = o.metadata.deletion :=
    hkept (ops.take 2) (ops.drop 2) rfl .llm key o p ho hp (huid'.trans huid.symm) hdeleted
  have hdeleted' : p.isDeleted := by rw [Object.isDeleted, hmark]; exact hdeleted
  refine ⟨hops, p, hp, hmark.trans hdeletion, hagain .llm key p _ hp hdeleted', ?_⟩
  have hregular : (Operation.put .body (llmHeld [] none)).Regular := trivial
  rw [(hgone _ hregular .llm key p hp).1]
  have haccepted : ((Operation.put .body (llmHeld [] none)).answer (after ops)).isOk := by
    decide +kernel
  obtain ⟨m, hm⟩ := Operation.answer_isOk_iff.1 haccepted
  exact .released _ rfl ⟨rfl, rfl⟩ hm (.inl hdeleted') rfl

end

/-! ### Where the mark comes from -/

/-- Whether an operation on `c` is an update of the object under a key to `p`, goes through and
carries a mark of deletion. -/
structure Operation.Marks (op : Operation) (c : Cluster) (key : Key) (p : Object k) : Prop where
  eq : op = .put .body p
  isAt : p.IsAt key
  accepted : ∃ m, op.answer c = .ok m
  isDeleted : p.isDeleted

theorem Operation.Marks.unique {p q : Object k} (hp : op.Marks c key p) (hq : op.Marks c key q) :
    q = p := by
  have heq : Operation.put .body p = .put .body q := hp.eq.symm.trans hq.eq
  cases heq
  rfl

/-- What becomes of an unmarked object in a write: it stays unmarked if the write carries no mark,
and otherwise has this mark, or is gone if the write carries no finalizers. -/
theorem Operation.Turns.of_unmarked {half : Half} {j : Kind} {o : Object j}
    {found : Option (Object k)}
    (h : (Operation.put half o).Turns c key (some stored) found)
    (hunmarked : stored.metadata.deletion = none) :
    ((∀ p : Object k, ¬ (Operation.put half o).Marks c key p) ∧
        ∃ after, found = some after ∧ after.metadata.deletion = none) ∨
      ∃ p : Object k, (Operation.put half o).Marks c key p ∧
        if p.finalizers = [] then found = none
        else ∃ after, found = some after ∧ after.metadata.deletion = p.metadata.deletion := by
  -- the mark of what an update leads to is that of the incoming object
  have hmark : ∀ p version, (merged stored p version).metadata.deletion = p.metadata.deletion := by
    intro p version
    simp [merged, hunmarked]
  have hmarked : ∀ p version, (merged stored p version).isDeleted = p.isDeleted := by
    intro p version
    rw [Object.isDeleted, hmark, Object.isDeleted]
  generalize hop : Operation.put half o = op at h ⊢
  cases h with
  | same _ hput =>
    refine .inl ⟨?_, stored, rfl, hunmarked⟩
    rintro p ⟨heq, hplace, ⟨m, hanswer⟩, -⟩
    exact hput .body p m heq hplace hanswer
  | @written half' _ p _ heq hplace hanswer hkept =>
    subst heq
    cases half' with
    | status =>
      refine .inl ⟨?_, _, rfl, hunmarked⟩
      rintro q ⟨heq, -⟩
      cases heq
    | body =>
      cases hdeleted : p.isDeleted with
      | true =>
        have hfinalizers : p.finalizers ≠ [] := fun hnone =>
          hkept ⟨rfl, (hmarked p _).trans hdeleted, hnone⟩
        refine .inr ⟨p, ⟨rfl, hplace, ⟨_, hanswer⟩, hdeleted⟩, ?_⟩
        rw [if_neg hfinalizers]
        exact ⟨_, rfl, hmark p _⟩
      | false =>
        have hnone : p.metadata.deletion = none :=
          Option.isNone_iff_eq_none.1 (Option.isSome_eq_false_iff.1 hdeleted)
        refine .inl ⟨?_, _, rfl, (hmark p _).trans hnone⟩
        rintro q ⟨heq, -, -, hdeleted'⟩
        cases heq
        rw [hdeleted] at hdeleted'
        cases hdeleted'
  | released p heq hplace hanswer hdeleted hfinalizers =>
    refine .inr ⟨p, ⟨heq, hplace, ⟨_, hanswer⟩, (hmarked p _).symm.trans hdeleted⟩, ?_⟩
    rw [if_pos hfinalizers]
  | removed now heq =>
    rw [heq] at hop
    cases hop
  | marked now heq =>
    rw [heq] at hop
    cases hop

/-- **Only an update that carries a mark of deletion gives one.**  In any cluster, an object that is
not marked for deletion is still there and unmarked after a write of either half, whatever it
passes, unless this is an update of the object that goes through and carries a mark.  Then the
object has this mark, or it is gone if the update carries no finalizers.  The mark is a `Stamp`: an
object reaches the store as JSON, so of a finer time `t` that somebody puts there it gets
`t.stamp`. -/
theorem unmarked_kept_iff (c : Cluster) {k : Kind} {key : Key} {stored : Object k}
    (hs : c.stored? k key = some stored) (hunmarked : stored.metadata.deletion = none)
    (half : Half) {j : Kind} (o : Object j) :
    let op : Operation := .put half o
    ((∃ after, (op.apply c).stored? k key = some after ∧ after.metadata.deletion = none) ↔
        ∀ p : Object k, ¬ op.Marks c key p) ∧
      ∀ p : Object k, op.Marks c key p →
        if p.finalizers = [] then (op.apply c).stored? k key = none
        else ∃ after, (op.apply c).stored? k key = some after ∧
          after.metadata.deletion = p.metadata.deletion := by
  intro op
  have hturns : op.Turns c key (some stored) ((op.apply c).stored? k key) := by
    rw [← hs]
    exact Operation.turns c trivial
  generalize (op.apply c).stored? k key = found at hturns ⊢
  rcases hturns.of_unmarked hunmarked with ⟨hnone, hkept⟩ | ⟨p, hp, hlater⟩
  · exact ⟨iff_of_true hkept hnone, fun p hp => absurd hp (hnone p)⟩
  · constructor
    · refine iff_of_false ?_ fun hnone => hnone p hp
      rintro ⟨after, rfl, hafter⟩
      split at hlater
      · cases hlater
      · -- what is there has the mark of the update
        obtain ⟨_, hsome, hmark⟩ := hlater
        have hdeleted := hp.isDeleted
        cases hsome
        rw [Object.isDeleted, ← hmark, hafter] at hdeleted
        cases hdeleted
    · intro q hq
      rw [hp.unique hq]
      exact hlater

/-- An update removes an object whose deletion nobody has requested. -/
theorem unmarked_kept_iff_removed :
    let key : Key := ⟨"default", "m"⟩
    let c := after [.create (llmHeld [] none)]
    let op : Operation := .put .body (llmHeld [] (some (.ofSeconds 20)))
    ∃ stored : Object .llm, c.stored? .llm key = some stored ∧
      stored.metadata.deletion = none ∧ op.Marks c key (llmHeld [] (some (.ofSeconds 20))) ∧
      (op.apply c).stored? .llm key = none := by
  intro key c op
  have hunmarked : (c.stored? .llm key).map (·.metadata.deletion) = some none := by decide +kernel
  obtain ⟨stored, hs, hdeletion⟩ := Option.map_eq_some_iff.1 hunmarked
  have haccepted : (op.answer c).isOk := by decide +kernel
  have hmarks : op.Marks c key (llmHeld [] (some (.ofSeconds 20))) :=
    ⟨rfl, ⟨rfl, rfl⟩, Operation.answer_isOk_iff.1 haccepted, rfl⟩
  exact ⟨stored, hs, hdeletion, hmarks, (unmarked_kept_iff c hs hdeletion .body _).2 _ hmarks⟩

end Cluster

end ModelKeeper

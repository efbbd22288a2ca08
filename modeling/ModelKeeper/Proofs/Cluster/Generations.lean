import ModelKeeper.Proofs.Cluster.Turns
import ModelKeeper.Proofs.Pass.Memo.Lineage
import ModelKeeper.Proofs.Resource.Comparable

/-!
# Generations tell what is wanted

When only its clients write to a cluster (`Cluster.ClientRun`), the two halves of an object do not
get into each other's way, and the generation of an object stands for what is wanted of it
(`Cluster.generation_tells_spec`): an object that has the same unique id and the same generation at
two moments wants the same at both.

How an object has come to be under its key is said once (`Cluster.Operation.Leads`): it has just
been made, or it takes the place of one with the same unique id, and then either the generation and
what is wanted are kept, or the operation is an update to something else
(`Cluster.Operation.Respecifies`) and the generation grows by one.
-/

namespace ModelKeeper

namespace Cluster

/-! ### Operations of clients -/

/-- Whether an operation is one of those that clients have.  All data in the objects that they pass
are numbers. -/
def Operation.OfClient : Operation → Prop
  | .create o => o.IsFinite
  | .put _ o => o.IsFinite
  | .delete _ _ _ => True
  | _ => False

theorem Operation.OfClient.regular {op : Operation} (h : op.OfClient) : op.Regular := by
  cases op with
  | insert | modify | injectConflicts => cases h
  | create | put | delete => trivial

/-- Whether an operation on `c` is an update that goes through, and wants something else of the
object `stored` under a key. -/
def Operation.Respecifies (op : Operation) (c : Cluster) {k : Kind} (key : Key)
    (stored : Object k) : Prop :=
  ∃ o : Object k, op = .put .body o ∧ o.IsAt key ∧ (∃ m, op.answer c = .ok m) ∧
    o.sameSpec stored = false

/-- How an object `o'` has come to be under a key by an operation on `c`. -/
inductive Operation.Leads (op : Operation) (c : Cluster) {k : Kind} (key : Key) (o' : Object k) :
    Prop
  | made :
    c.stored? k key = none → o'.IsFinite →
    o'.metadata.version = some (toString (c.version + 1)) →
    o'.metadata.uid = some ("uid-" ++ toString (c.version + 1)) →
    o'.metadata.generation = some 1 → (op.apply c).version = c.version + 1 → Leads op c key o'
  | kept {o : Object k} :
    c.stored? k key = some o → o'.IsFinite → o'.metadata.uid = o.metadata.uid →
    ¬ op.Respecifies c key o → o'.metadata.generation = o.metadata.generation → o'.sameSpec o →
    Leads op c key o'
  | respecified {o : Object k} {g : Int} :
    c.stored? k key = some o → o'.IsFinite → o'.metadata.uid = o.metadata.uid →
    op.Respecifies c key o → o.metadata.generation = some g →
    o'.metadata.generation = some (g + 1) → Leads op c key o'

/-! ### Objects of clients -/

/-- Whether the objects of a cluster are such as clients make them: with data that are numbers, a
unique id of their own that was given out with a version, and a generation that counts from one. -/
structure Registered (c : Cluster) : Prop where
  finite : ∀ k key (o : Object k), c.stored? k key = some o → o.IsFinite
  uid : ∀ k key (o : Object k), c.stored? k key = some o →
    ∃ n ≤ c.version, o.metadata.uid = some ("uid-" ++ toString n)
  distinct : ∀ k key (o : Object k) j key' (p : Object j),
    c.stored? k key = some o → c.stored? j key' = some p → o.metadata.uid = p.metadata.uid →
    j = k ∧ key' = key
  generation : ∀ k key (o : Object k), c.stored? k key = some o →
    ∃ g, o.metadata.generation = some g ∧ 1 ≤ g

theorem registered_empty : empty.Registered where
  finite _ _ _ h := nomatch h
  uid _ _ _ h := nomatch h
  distinct _ _ _ _ _ _ h := nomatch h
  generation _ _ _ h := nomatch h

/-- Whether the generations of all objects leave room for another one in 64 bits. -/
def HasRoom (c : Cluster) : Prop :=
  ∀ k key (o : Object k) g, c.stored? k key = some o → o.metadata.generation = some g →
    g < 0x7FFFFFFFFFFFFFFF

/-- A unique id that is yet to come is not that of an object. -/
theorem Registered.ne_next {c : Cluster} (hc : c.Registered) {k : Kind} {key : Key} {o : Object k}
    (ho : c.stored? k key = some o) :
    o.metadata.uid ≠ some ("uid-" ++ toString (c.version + 1)) := by
  obtain ⟨n, hle, hn⟩ := hc.uid k key o ho
  rw [hn]
  intro heq
  have : n = c.version + 1 := uid_inj (Option.some.inj heq)
  omega

/-! ### What one operation leads to -/

namespace Operation.Leads

variable {c : Cluster} {op : Operation} {k : Kind} {key : Key} {o' : Object k}

/-- The object that a write leads to. -/
theorem of_replaced {half : Half} {o stored : Object k} {m : Option Metadata} (hc : c.Registered)
    (hroom : c.HasRoom) (hfinite : o.IsFinite) (hplace : o.IsAt key)
    (hs : c.stored? k key = some stored) (hanswer : (Operation.put half o).answer c = .ok m) :
    (Operation.put half o).Leads c key (half.replaced stored o c.nextVersion.versionText) := by
  have hstored := hc.finite k key stored hs
  obtain ⟨g, hg, hpos⟩ := hc.generation k key stored hs
  cases half with
  | status =>
    have hself : stored.sameSpec stored := Object.sameSpec_self hstored
    have hop : ¬ (Operation.put .status o).Respecifies c key stored := by
      rintro ⟨_, heq, -⟩
      cases heq
    have hfinite' : (Half.status.replaced stored o c.nextVersion.versionText).IsFinite := by
      cases k <;> exact hstored
    exact .kept hs hfinite' rfl hop rfl hself
  | body =>
    have hfinite' : (Half.body.replaced stored o c.nextVersion.versionText).IsFinite := by
      cases k <;> exact hfinite
    -- the generation grows exactly if the store finds that something else is wanted
    cases hspec : o.sameSpec stored with
    | true =>
      have hop : ¬ (Operation.put .body o).Respecifies c key stored := by
        rintro ⟨_, heq, -, -, hdiffers⟩
        cases heq
        rw [hspec] at hdiffers
        cases hdiffers
      refine .kept hs hfinite' rfl hop ?_ hspec
      simp [Half.replaced, merged, hspec, hg]
    | false =>
      have hop : (Operation.put .body o).Respecifies c key stored :=
        ⟨o, rfl, hplace, ⟨m, hanswer⟩, hspec⟩
      refine .respecified hs hfinite' rfl hop hg ?_
      have hnext := nextGeneration_of_lt hpos (hroom k key stored g hs hg)
      simp [Half.replaced, merged, hspec, hg, hnext]

/-- How the objects after an operation of a client have come to be there. -/
theorem of_client (hop : op.OfClient) (hc : c.Registered) (hroom : c.HasRoom)
    (ho' : (op.apply c).stored? k key = some o') : op.Leads c key o' := by
  have hturns : op.Turns c key (c.stored? k key) ((op.apply c).stored? k key) :=
    Operation.turns c hop.regular
  rw [ho'] at hturns
  generalize hs : c.stored? k key = found at hturns
  -- of all turns only an accepted body can change what is wanted
  cases hturns with
  | same _ hput _ =>
    have hfinite := hc.finite k key o' hs
    refine .kept hs hfinite rfl ?_ rfl (Object.sameSpec_self hfinite)
    rintro ⟨p, heq, hplace, ⟨m, hanswer⟩, -⟩
    exact hput .body p m heq hplace hanswer
  | made o heq hplace hversion =>
    subst heq
    have hfinite : (c.created o).IsFinite := by cases k <;> exact hop
    exact .made hs hfinite rfl rfl rfl hversion
  | written o heq hplace hanswer =>
    subst heq
    exact of_replaced hc hroom hop hplace hs hanswer
  | @marked stored now heq =>
    subst heq
    have hstored := hc.finite k key stored hs
    have hfinite : (c.marked stored now).IsFinite := by cases k <;> exact hstored
    have hop : ¬ (Operation.delete k key now).Respecifies c key stored := by
      rintro ⟨_, heq, -⟩
      cases heq
    have hself : stored.sameSpec stored := Object.sameSpec_self hstored
    exact .kept hs hfinite rfl hop rfl hself

end Operation.Leads

theorem Registered.apply {c : Cluster} {op : Operation} (hc : c.Registered) (hroom : c.HasRoom)
    (hop : op.OfClient) (hdated : (op.apply c).Dated) : (op.apply c).Registered := by
  have hleads : ∀ k key (o' : Object k), (op.apply c).stored? k key = some o' →
      op.Leads c key o' := fun k key o' ho' => .of_client hop hc hroom ho'
  have hversion := (op.outcome c).version_le
  constructor
  · intro k key o' ho'
    cases hleads k key o' ho' with
    | made _ hfinite => exact hfinite
    | kept _ hfinite => exact hfinite
    | respecified _ hfinite => exact hfinite
  · intro k key o' ho'
    cases hleads k key o' ho' with
    | made _ _ _ huid _ hnext => exact ⟨c.version + 1, Nat.le_of_eq hnext.symm, huid⟩
    | kept ho _ huid | respecified ho _ huid =>
      obtain ⟨n, hle, hn⟩ := hc.uid k key _ ho
      exact ⟨n, Nat.le_trans hle hversion, huid.trans hn⟩
  · -- what has just been made is found only once, by its version
    intro k key o' j key' p' ho' hp' hsame
    have hold : ∀ {k key} {o' : Object k}, op.Leads c key o' →
        (∃ o, c.stored? k key = some o ∧ o'.metadata.uid = o.metadata.uid) ∨
          o'.metadata.version = some (toString (c.version + 1)) ∧
            o'.metadata.uid = some ("uid-" ++ toString (c.version + 1)) := by
      intro k key o' h
      cases h with
      | made _ _ hversion huid => exact .inr ⟨hversion, huid⟩
      | kept ho _ huid | respecified ho _ huid => exact .inl ⟨_, ho, huid⟩
    rcases hold (hleads k key o' ho') with ⟨o, ho, huid⟩ | ⟨hversion, huid⟩
    · rcases hold (hleads j key' p' hp') with ⟨p, hp, huid'⟩ | ⟨-, huid'⟩
      · exact hc.distinct k key o j key' p ho hp (huid.symm.trans (hsame.trans huid'))
      · exact absurd (huid.symm.trans (hsame.trans huid')) (hc.ne_next ho)
    · rcases hold (hleads j key' p' hp') with ⟨p, hp, huid'⟩ | ⟨hversion', -⟩
      · exact absurd (huid'.symm.trans (hsame.symm.trans huid)) (hc.ne_next hp)
      · exact hdated.distinct k key o' j key' p' ho' hp' (hversion.trans hversion'.symm)
  · intro k key o' ho'
    cases hleads k key o' ho' with
    | made _ _ _ _ hgeneration => exact ⟨1, hgeneration, Int.le_refl 1⟩
    | kept ho _ _ _ hgeneration =>
      obtain ⟨g, hg, hpos⟩ := hc.generation k key _ ho
      exact ⟨g, hgeneration.trans hg, hpos⟩
    | @respecified o g ho _ _ _ hg hgeneration =>
      obtain ⟨g₀, hg₀, hpos⟩ := hc.generation k key _ ho
      obtain rfl := Option.some.inj (hg.symm.trans hg₀)
      exact ⟨g + 1, hgeneration, by omega⟩

/-! ### Runs of clients -/

/-- Whether a run consists of operations of clients, and there is always room for another
generation. -/
structure ClientRun (ops : List Operation) : Prop where
  clients : ∀ op ∈ ops, op.OfClient
  room : ∀ n, (after (ops.take n)).HasRoom

namespace ClientRun

variable {ops more : List Operation}

theorem of_append (h : ClientRun (ops ++ more)) : ClientRun ops where
  clients op hop := h.clients op (List.mem_append_left more hop)
  room n := by
    have hroom := h.room (min n ops.length)
    rwa [List.take_append_of_le_length (Nat.min_le_right ..), ← List.take_eq_take_min] at hroom

theorem hasRoom (h : ClientRun ops) : (after ops).HasRoom := by
  have hroom := h.room ops.length
  rwa [List.take_length] at hroom

theorem registered (h : ClientRun ops) : (after ops).Registered := by
  induction ops using List.reverseRecOn with
  | nil => exact registered_empty
  | append_singleton ops op ih =>
    have hdated := dated_after (ops ++ [op])
    rw [after_append_singleton] at hdated ⊢
    exact (ih h.of_append).apply h.of_append.hasRoom (h.clients op (by simp)) hdated

end ClientRun

/-! ### Moments of a run -/

/-- Whether an object can have come of another one: it is the same one, the generation has not gone
back, and if it is still the same then so is what is wanted. -/
structure Succeeds {k : Kind} (o p : Object k) : Prop where
  finite : o.IsFinite ∧ p.IsFinite
  uid : o.metadata.uid = p.metadata.uid
  generation : ∃ g g', p.metadata.generation = some g ∧ o.metadata.generation = some g' ∧ g ≤ g' ∧
    (g' = g → o.sameSpec p)

theorem Succeeds.trans {k : Kind} {o p q : Object k} (h : Succeeds o p) (h' : Succeeds p q) :
    Succeeds o q := by
  obtain ⟨hfinite, huid, gp, go, hgp, hgo, hle, hspec⟩ := h
  obtain ⟨hfinite', huid', gq, gp', hgq, hgp', hle', hspec'⟩ := h'
  obtain rfl : gp = gp' := Option.some.inj (hgp.symm.trans hgp')
  refine ⟨⟨hfinite.1, hfinite'.2⟩, huid.trans huid', gq, go, hgq, hgo, Int.le_trans hle' hle,
    fun hsame => ?_⟩
  -- the generation in between cannot have been another one
  exact Object.sameSpec_trans hfinite.1 hfinite'.1 hfinite'.2 (hspec (by omega)) (hspec' (by omega))

/-- Whether the second cluster can come of the first: every object succeeds the one that was under
its key, or has a unique id that was not given out before. -/
def Descends (c c' : Cluster) : Prop :=
  ∀ k key (o' : Object k), c'.stored? k key = some o' →
    (∃ o, c.stored? k key = some o ∧ Succeeds o' o) ∨
      ∃ n, c.version < n ∧ o'.metadata.uid = some ("uid-" ++ toString n)

namespace Descends

variable {c c' c'' : Cluster}

theorem refl (hc : c.Registered) : c.Descends c := by
  intro k key o ho
  have hfinite := hc.finite k key o ho
  obtain ⟨g, hg, -⟩ := hc.generation k key o ho
  exact .inl ⟨o, ho, ⟨hfinite, hfinite⟩, rfl, g, g, hg, hg, Int.le_refl g,
    fun _ => Object.sameSpec_self hfinite⟩

theorem trans (hversion : c.version ≤ c'.version) (h : c.Descends c') (h' : c'.Descends c'') :
    c.Descends c'' := by
  intro k key o'' ho''
  rcases h' k key o'' ho'' with ⟨o', ho', hsucceeds'⟩ | ⟨n, hlt, hn⟩
  · rcases h k key o' ho' with ⟨o, ho, hsucceeds⟩ | ⟨n, hlt, hn⟩
    · exact .inl ⟨o, ho, hsucceeds'.trans hsucceeds⟩
    · exact .inr ⟨n, hlt, hsucceeds'.uid.trans hn⟩
  · exact .inr ⟨n, Nat.lt_of_le_of_lt hversion hlt, hn⟩

theorem of_client {op : Operation} (hop : op.OfClient) (hc : c.Registered) (hroom : c.HasRoom) :
    c.Descends (op.apply c) := by
  intro k key o' ho'
  cases Operation.Leads.of_client hop hc hroom ho' with
  | made _ _ _ huid => exact .inr ⟨c.version + 1, Nat.lt_succ_self _, huid⟩
  | @kept o ho hfinite huid _ hgeneration hspec =>
    obtain ⟨g, hg, -⟩ := hc.generation k key o ho
    exact .inl ⟨o, ho, ⟨hfinite, hc.finite k key o ho⟩, huid, g, g, hg, hgeneration.trans hg,
      Int.le_refl g, fun _ => hspec⟩
  | @respecified o g ho hfinite huid _ hg hgeneration =>
    exact .inl ⟨o, ho, ⟨hfinite, hc.finite k key o ho⟩, huid, g, g + 1, hg, hgeneration, by omega,
      fun heq => by omega⟩

end Descends

/-- What comes later in a run of clients descends from what was there before. -/
theorem ClientRun.descends {ops more : List Operation} (h : ClientRun (ops ++ more)) :
    (after ops).Descends (after (ops ++ more)) := by
  induction more using List.reverseRecOn with
  | nil =>
    rw [List.append_nil]
    exact .refl h.of_append.registered
  | append_singleton more op ih =>
    rw [← List.append_assoc] at h ⊢
    rw [after_append_singleton]
    exact .trans (version_after_le ops more) (ih h.of_append)
      (.of_client (h.clients op (by simp)) h.of_append.registered h.of_append.hasRoom)

/-- An object of a run is told by its unique id from all that are there at other moments, and by its
generation what is wanted of it. -/
theorem ClientRun.moments {ops more : List Operation} (h : ClientRun (ops ++ more)) {k j : Kind}
    {key key' : Key} {o : Object k} {p : Object j} (ho : (after ops).stored? k key = some o)
    (hp : (after (ops ++ more)).stored? j key' = some p)
    (huid : o.metadata.uid = p.metadata.uid) :
    (j = k ∧ key' = key) ∧ ∃ q, (after ops).stored? j key' = some q ∧ Succeeds p q := by
  have hregistered := h.of_append.registered
  rcases h.descends j key' p hp with ⟨q, hq, hsucceeds⟩ | ⟨n, hlt, hn⟩
  · exact ⟨hregistered.distinct k key o j key' q ho hq (huid.trans hsucceeds.uid), q, hq,
      hsucceeds⟩
  · -- the unique id of the first one was given out before
    obtain ⟨m, hle, hm⟩ := hregistered.uid k key o ho
    have : m = n := uid_inj (Option.some.inj (hm.symm.trans (huid.trans hn)))
    omega

/-- Fewer operations than there are generations leave room for another one. -/
theorem ClientRun.of_length {ops : List Operation} (hclients : ∀ op ∈ ops, op.OfClient)
    (hlength : ops.length < 0x7FFFFFFFFFFFFFFF) : ClientRun ops := by
  suffices h : ClientRun ops ∧ ∀ k key (o : Object k) g, (after ops).stored? k key = some o →
      o.metadata.generation = some g → g ≤ ops.length from h.1
  induction ops using List.reverseRecOn with
  | nil =>
    refine ⟨⟨hclients, fun n => ?_⟩, fun _ _ _ _ ho => nomatch ho⟩
    rw [List.take_nil]
    exact fun _ _ _ _ ho => nomatch ho
  | append_singleton ops op ih =>
    rw [List.length_append, List.length_singleton] at hlength
    obtain ⟨hrun, hbound⟩ := ih (fun op' hop' => hclients op' (List.mem_append_left _ hop'))
      (by omega)
    -- the generation of an object has grown by one at most
    have hbound' : ∀ k key (o' : Object k) g, (after (ops ++ [op])).stored? k key = some o' →
        o'.metadata.generation = some g → g ≤ ops.length + 1 := by
      intro k key o' g ho' hg
      rw [after_append_singleton] at ho'
      cases Operation.Leads.of_client (hclients op (by simp)) hrun.registered hrun.hasRoom ho' with
      | made _ _ _ _ hgeneration =>
        have : 1 = g := Option.some.inj (hgeneration.symm.trans hg)
        omega
      | kept ho _ _ _ hgeneration =>
        have := hbound k key _ g ho (hgeneration.symm.trans hg)
        omega
      | @respecified o g₀ ho _ _ _ hg₀ hgeneration =>
        have := hbound k key o g₀ ho hg₀
        have : g₀ + 1 = g := Option.some.inj (hgeneration.symm.trans hg)
        omega
    refine ⟨⟨hclients, fun n => ?_⟩, fun k key o g ho hg => ?_⟩
    · by_cases hn : n ≤ ops.length
      · rw [List.take_append_of_le_length hn]
        exact hrun.room n
      · rw [List.take_of_length_le (by simp; omega)]
        intro k key o g ho hg
        have := hbound' k key o g ho hg
        omega
    · rw [List.length_append, List.length_singleton]
      exact_mod_cast hbound' k key o g ho hg

/-- **The halves of an object do not clobber each other, and the generation tells what is wanted.**
In every run of clients that leaves room for the generations:

* an update that goes through and leaves the object there keeps its status and its unique id,
  whatever it passes for them;
* a write of the status that goes through leaves everything as it was but the status and the
  version, whatever else it passes;
* the generation of an object grows by one in an update to something else, and stays in every other
  operation;
* objects with the same unique id, at any two moments, are the same one, and if they have the same
  generation as well then the same is wanted of them.  This is the comparison of the store: it is
  equality for the operator's own kinds, but that the two zeros are equal in the data of prompts
  (`Object.sameSpec_prompt`). -/
theorem generation_tells_spec {ops : List Operation} (h : ClientRun ops) :
    (∀ earlier op later, ops = earlier ++ op :: later →
      let c := after earlier
      let c' := after (earlier ++ [op])
      (∀ k key (o : Object k) m, op = .put .body o → o.IsAt key → op.answer c = .ok m →
        ∃ stored, c.stored? k key = some stored ∧
          ∀ stored', c'.stored? k key = some stored' →
            stored'.status = stored.status ∧ stored'.metadata.uid = stored.metadata.uid) ∧
      (∀ k key (o : Object k) m, op = .put .status o → o.IsAt key → op.answer c = .ok m →
        ∃ stored version, c.stored? k key = some stored ∧
          c'.stored? k key = some
            { stored with
              status := o.status
              metadata := { stored.metadata with version } }) ∧
      ∀ k key (stored stored' : Object k), c.stored? k key = some stored →
        c'.stored? k key = some stored' →
        ∃ g, stored.metadata.generation = some g ∧
          (op.Respecifies c key stored → stored'.metadata.generation = some (g + 1)) ∧
          (¬ op.Respecifies c key stored → stored'.metadata.generation = some g)) ∧
    ∀ n m, n ≤ m → ∀ k key (o : Object k), (after (ops.take n)).stored? k key = some o →
      (∀ j key' (p : Object j), (after (ops.take m)).stored? j key' = some p →
        o.metadata.uid = p.metadata.uid → j = k ∧ key' = key) ∧
      ∀ key' (p : Object k), (after (ops.take m)).stored? k key' = some p →
        o.metadata.uid = p.metadata.uid → o.metadata.generation = p.metadata.generation →
        p.sameSpec o ∧ (k.isCustom → k ≠ .prompt → p.spec = o.spec) := by
  constructor
  · -- one operation: what it leads to is told by `Operation.Leads`
    rintro earlier op later rfl c c'
    have happly : c' = op.apply c := after_append_singleton earlier op
    have hearlier : ClientRun earlier := h.of_append
    have hop : op.OfClient := h.clients op (by simp)
    refine ⟨?_, ?_, ?_⟩
    · rintro k key o m rfl hplace hanswer
      obtain ⟨home, stored, hhome, hs, hafter⟩ := Operation.put_of_answer hanswer
      obtain rfl := hplace.unique hhome
      refine ⟨stored, hs, fun stored' hs' => ?_⟩
      rw [happly, hafter, stored?_putBack_self] at hs'
      split at hs'
      · cases hs'
      · obtain rfl := Option.some.inj hs'
        exact ⟨rfl, rfl⟩
    · rintro k key o m rfl hplace hanswer
      obtain ⟨home, stored, hhome, hs, hafter⟩ := Operation.put_of_answer hanswer
      obtain rfl := hplace.unique hhome
      refine ⟨stored, some c.nextVersion.versionText, hs, ?_⟩
      rw [happly, hafter, stored?_putBack_self, if_neg fun hbody => by cases hbody.1]
      rfl
    · intro k key stored stored' hs hs'
      obtain ⟨g, hg, -⟩ := hearlier.registered.generation k key stored hs
      refine ⟨g, hg, ?_⟩
      rw [happly] at hs'
      cases Operation.Leads.of_client hop hearlier.registered hearlier.hasRoom hs' with
      | made hnone => rw [hs] at hnone; cases hnone
      | kept ho _ _ hnot hgeneration =>
        obtain rfl := Option.some.inj (hs.symm.trans ho)
        exact ⟨fun hrespecifies => absurd hrespecifies hnot, fun _ => hgeneration.trans hg⟩
      | respecified ho _ _ hrespecifies hg₀ hgeneration =>
        obtain rfl := Option.some.inj (hs.symm.trans ho)
        obtain rfl := Option.some.inj (hg.symm.trans hg₀)
        exact ⟨fun _ => hgeneration, fun hnot => absurd hrespecifies hnot⟩
  · intro n m hle k key o ho
    -- two moments: between them lie the operations of a run of its own
    have htake : ops.take m = ops.take n ++ (ops.take m).drop n := by
      have hsplit := List.take_append_drop n (ops.take m)
      rwa [List.take_take, Nat.min_eq_left hle, eq_comm] at hsplit
    have hrun : ClientRun (ops.take n ++ (ops.take m).drop n) := by
      rw [← List.take_append_drop m ops, htake] at h
      exact h.of_append
    rw [htake]
    refine ⟨fun j key' p hp huid => (hrun.moments ho hp huid).1, fun key' p hp huid hsame => ?_⟩
    obtain ⟨⟨-, rfl⟩, q, hq, hsucceeds⟩ := hrun.moments ho hp huid
    obtain rfl := Option.some.inj (ho.symm.trans hq)
    obtain ⟨-, -, g, g', hg, hg', -, hspec⟩ := hsucceeds
    rw [hg, hg'] at hsame
    have hspec : p.sameSpec o := hspec (Option.some.inj hsame).symm
    exact ⟨hspec, fun hcustom hprompt => Object.spec_eq_of_sameSpec hcustom hprompt hspec⟩

/-- A language model that has these models to try. -/
def llmTrying (models : List String) : Object .llm where
  metadata := { name := some "m", ns := some "default" }
  spec := { models }

theorem generation_tells_spec_trying :
    let key : Key := ⟨"default", "m"⟩
    let ops : List Operation :=
      [.create (llmTrying ["a"]), .put .body (llmTrying ["b"]), .put .status (llmTrying ["a"])]
    ClientRun ops ∧
      ∃ o p, (after (ops.take 2)).stored? .llm key = some o ∧
        (after (ops.take 3)).stored? .llm key = some p ∧
        o.metadata.generation = some 2 ∧ p.metadata.generation = some 2 ∧ p.spec = o.spec := by
  intro key ops
  have hrun : ClientRun ops :=
    .of_length (by simp [ops, Operation.OfClient, Object.IsFinite]) (by decide)
  -- the status is written last, with the models that are no longer wanted
  let shown : Option (Object .llm) → Option (Option String × Option Int) :=
    Option.map fun o => (o.metadata.uid, o.metadata.generation)
  have hbefore : shown ((after (ops.take 2)).stored? .llm key) = some (some "uid-1", some 2) := by
    decide +kernel
  have hafter : shown ((after (ops.take 3)).stored? .llm key) = some (some "uid-1", some 2) := by
    decide +kernel
  obtain ⟨o, ho, hshown⟩ := Option.map_eq_some_iff.1 hbefore
  obtain ⟨p, hp, hshown'⟩ := Option.map_eq_some_iff.1 hafter
  obtain ⟨huid, hgeneration⟩ := Prod.mk.inj hshown
  obtain ⟨huid', hgeneration'⟩ := Prod.mk.inj hshown'
  obtain ⟨-, hspec⟩ := ((generation_tells_spec hrun).2 2 3 (by decide) .llm key o ho).2 key p hp
    (huid.trans huid'.symm) (hgeneration.trans hgeneration'.symm)
  exact ⟨hrun, o, p, ho, hp, hgeneration, hgeneration', hspec rfl (by decide)⟩

end Cluster

end ModelKeeper

import Mathlib.Data.List.Induction
import ModelKeeper.Proofs.Cluster.Versions

/-!
# Runs of operations

A cluster starts empty, and then one operation after the other is done to it, by its clients or by
other actors (`Cluster.after`).  Whatever these are, its versions work as they should
(`Cluster.versions_disciplined`): they ascend, no two objects have the same one, none is given out
twice, and a write that carries an old one is refused.  What is refused changes nothing; only an
injected conflict is used up by it.

What a single operation can come to, with its answer, is said once (`Cluster.Outcome`), and
everything else follows from that.  The versions that objects carry are numbered by
`Cluster.Dated`, which every outcome keeps.
-/

namespace ModelKeeper

/-- Whether this is a conflict with a writer who does not exist. -/
def AccessError.IsInjected : AccessError → Prop
  | .conflict _ _ message => message = "injected conflict"
  | _ => False

theorem Object.not_isInjected_of_requireKey {k : Kind} {o : Object k} {e : AccessError}
    (h : o.requireKey = .error e) : ¬ e.IsInjected := by
  unfold Object.requireKey at h
  split at h
  · cases h
    exact id
  · cases h
    exact id
  · cases h

namespace Cluster

/-! ### One operation -/

/-- What an operation tells whoever asked for it: why it was refused, or the metadata of the object
that it returns, if it returns one. -/
def Operation.answer : Operation → Cluster → Except AccessError (Option Metadata)
  | .insert o, c => (c.insert o).1.map (fun p => some p.metadata)
  | .modify k key change, c => (c.modify k key change).1.map (fun p => some p.metadata)
  | .create o, c => (c.create o).1.map (fun p => some p.metadata)
  | .put half o, c => (half.put c o).1.map (fun p => some p.metadata)
  | .delete k key now, c => (c.delete k key now).1.map (fun _ => none)
  | .injectConflicts _, _ => .ok none

/-- What an operation on `c` can come to: its answer, and the cluster after it. -/
inductive Outcome (c : Cluster) : Except AccessError (Option Metadata) → Cluster → Prop
  | refused {e : AccessError} : ¬ e.IsInjected → Outcome c (.error e) c
  | injected {k : Kind} {key : Key} :
    (c.stored? k key).isSome → c.injectedConflicts ≠ 0 →
    Outcome c (.error (.conflict k.name key "injected conflict"))
      { c with injectedConflicts := c.injectedConflicts - 1 }
  /-- Nothing is to be done but, maybe, to count conflicts anew. -/
  | idle (count : Nat) : Outcome c (.ok none) { c with injectedConflicts := count }
  | stored {k : Kind} (key : Key) (o : Object k) {m : Option Metadata} :
    o.metadata.version = some c.nextVersion.versionText → (m = none ∨ m = some o.metadata) →
    Outcome c (.ok m) (c.nextVersion.store key o)
  /-- An update removes the object that it returns. -/
  | released (k : Kind) (key : Key) {m : Metadata} :
    m.version = some c.nextVersion.versionText →
    Outcome c (.ok (some m)) (c.nextVersion.remove k key)
  | removed (k : Kind) (key : Key) : Outcome c (.ok none) (c.remove k key)

section

variable {k : Kind} (c : Cluster)

theorem outcome_insert (o : Object k) :
    Outcome c ((Operation.insert o).answer c) ((Operation.insert o).apply c) := by
  simp only [Operation.answer, Operation.apply, insert]
  cases hkey : o.requireKey with
  | error e => exact .refused (Object.not_isInjected_of_requireKey hkey)
  | ok key => exact .stored key _ rfl (.inr rfl)

theorem outcome_modify (key : Key) (change : Object k → Object k) :
    Outcome c ((Operation.modify k key change).answer c)
      ((Operation.modify k key change).apply c) := by
  simp only [Operation.answer, Operation.apply, modify, get]
  cases c.stored? k key with
  | none => exact .refused id
  | some o => exact .stored key _ rfl (.inr rfl)

theorem outcome_create (o : Object k) :
    Outcome c ((Operation.create o).answer c) ((Operation.create o).apply c) := by
  simp only [Operation.answer, Operation.apply]
  cases hkey : o.requireKey with
  | error e =>
    simp only [create, hkey]
    exact .refused (Object.not_isInjected_of_requireKey hkey)
  | ok key =>
    have hplace := Object.IsAt.of_requireKey hkey
    cases hs : c.stored? k key with
    | none =>
      rw [create_absent hplace hs]
      exact .stored key _ rfl (.inr rfl)
    | some stored =>
      rw [create_present hplace hs]
      exact .refused id

theorem outcome_put (half : Half) (o : Object k) :
    Outcome c ((Operation.put half o).answer c) ((Operation.put half o).apply c) := by
  simp only [Operation.answer, Operation.apply]
  cases hkey : o.requireKey with
  | error e =>
    rw [Half.put_incomplete half c hkey]
    exact .refused (Object.not_isInjected_of_requireKey hkey)
  | ok key =>
    have hplace := Object.IsAt.of_requireKey hkey
    cases hs : c.stored? k key with
    | none =>
      rw [Half.put_absent hplace hs]
      exact .refused id
    | some stored =>
      by_cases hc : c.injectedConflicts = 0
      · by_cases hv : o.metadata.version = none ∨ o.metadata.version = stored.metadata.version
        · -- the write goes through
          have hversion : (half.replaced stored o c.nextVersion.versionText).metadata.version =
              some c.nextVersion.versionText := by
            cases half <;> rfl
          rw [Half.put_fresh hplace hs hc hv]
          simp only [putBack]
          split
          · exact .released k key hversion
          · exact .stored key _ hversion (.inr rfl)
        · rw [not_or] at hv
          rw [Half.put_stale hplace hs hc (Option.isSome_iff_ne_none.2 hv.1) hv.2]
          exact .refused (by simp [AccessError.IsInjected])
      · rw [Half.put_injected hplace hs hc]
        exact .injected (by rw [hs]; rfl) hc

theorem outcome_delete (k : Kind) (key : Key) (now : Instant) :
    Outcome c ((Operation.delete k key now).answer c) ((Operation.delete k key now).apply c) := by
  simp only [Operation.answer, Operation.apply, delete]
  cases c.stored? k key with
  | none => exact .refused id
  | some stored =>
    simp only
    split
    · exact .removed k key
    · split
      · exact .idle c.injectedConflicts
      · exact .stored key _ rfl (.inl rfl)

/-- Every operation comes to one of the outcomes. -/
theorem Operation.outcome (op : Operation) : Outcome c (op.answer c) (op.apply c) := by
  cases op with
  | insert o => exact outcome_insert c o
  | modify k key change => exact outcome_modify c key change
  | create o => exact outcome_create c o
  | put half o => exact outcome_put c half o
  | delete k key now => exact outcome_delete c k key now
  | injectConflicts count => exact .idle count

end

/-- Whether an operation on `c` gives out this version: with the object that it returns, or with one
that it stores. -/
inductive Operation.GivesOut (op : Operation) (c : Cluster) (version : String) : Prop
  | returned {m : Metadata} :
    op.answer c = .ok (some m) → m.version = some version → GivesOut op c version
  | stored {k : Kind} {key : Key} {o : Object k} :
    (op.apply c).stored? k key = some o → c.stored? k key ≠ some o →
    o.metadata.version = some version → GivesOut op c version

namespace Outcome

variable {c c' : Cluster} {answer : Except AccessError (Option Metadata)}

theorem version_le (h : Outcome c answer c') : c.version ≤ c'.version := by
  cases h with
  | stored | released => exact Nat.le_succ c.version
  | _ => exact Nat.le_refl c.version

/-- What is refused changes nothing, but for the conflict that it uses up. -/
theorem of_error {e : AccessError} (h : Outcome c (.error e) c') :
    c'.tables = c.tables ∧ c'.version = c.version ∧
      (e.IsInjected → c'.injectedConflicts + 1 = c.injectedConflicts ∧
        ∃ k key message, e = .conflict (Kind.name k) key message ∧ (c.stored? k key).isSome) ∧
      (¬ e.IsInjected → c'.injectedConflicts = c.injectedConflicts) := by
  cases h with
  | refused he => exact ⟨rfl, rfl, fun h => absurd h he, fun _ => rfl⟩
  | @injected k key hs hc =>
    refine ⟨rfl, rfl, fun _ => ⟨?_, k, key, _, rfl, hs⟩, fun h => absurd rfl h⟩
    exact Nat.succ_pred_eq_of_ne_zero hc

/-- An object is as it was, or it is the one that carries the next version. -/
theorem stored_cases (h : Outcome c answer c') {k : Kind} {key : Key} {o : Object k}
    (ho : c'.stored? k key = some o) :
    c.stored? k key = some o ∨
      c'.version = c.version + 1 ∧ o.metadata.version = some (toString (c.version + 1)) ∧
        ∀ j key', c'.stored? j key' ≠ c.stored? j key' → j = k ∧ key' = key := by
  have hremoved : ∀ {d : Cluster} {j key'}, (d.remove j key').stored? k key = some o →
      d.stored? k key = some o := by
    intro d j key' ho
    by_cases hsame : k = j ∧ key = key'
    · obtain ⟨rfl, rfl⟩ := hsame
      rw [stored?_remove_self] at ho
      cases ho
    · rwa [stored?_remove_of_ne hsame] at ho
  cases h with
  | @stored j key' p _ hversion _ =>
    by_cases hsame : k = j ∧ key = key'
    · -- the object that has just been stored
      obtain ⟨rfl, rfl⟩ := hsame
      rw [stored?_store_self] at ho
      obtain rfl := Option.some.inj ho
      refine .inr ⟨rfl, hversion, fun j' key'' hne => ?_⟩
      by_contra hother
      exact hne (stored?_store_of_ne hother c.nextVersion p)
    · rw [stored?_store_of_ne hsame] at ho
      exact .inl ho
  | released j key' _ => exact .inl (hremoved ho)
  | removed j key' => exact .inl (hremoved ho)
  | _ => exact .inl ho

/-- What is given out is the next version. -/
theorem givesOut {op : Operation} {version : String} (h : op.GivesOut c version) :
    version = toString (c.version + 1) ∧ (op.apply c).version = c.version + 1 := by
  have houtcome := op.outcome c
  cases h with
  | returned hanswer hm =>
    rw [hanswer] at houtcome
    generalize hc' : op.apply c = c' at houtcome ⊢
    -- what is returned is what has just been stored or released
    cases houtcome with
    | stored key o hversion hreturned =>
      rcases hreturned with hnone | hsome
      · cases hnone
      · obtain rfl := Option.some.inj hsome
        exact ⟨Option.some.inj (hm.symm.trans hversion), rfl⟩
    | released k key hversion => exact ⟨Option.some.inj (hm.symm.trans hversion), rfl⟩
  | stored ho hnew hversion =>
    rcases houtcome.stored_cases ho with hold | ⟨hnext, hgiven, -⟩
    · exact absurd hold hnew
    · exact ⟨Option.some.inj (hversion.symm.trans hgiven), hnext⟩

end Outcome

/-! ### Versions of the objects -/

/-- Whether the versions of all objects are positive numbers that have been given out, and differ.
-/
structure Dated (c : Cluster) : Prop where
  given : ∀ k key (o : Object k), c.stored? k key = some o →
    ∃ n, 0 < n ∧ n ≤ c.version ∧ o.metadata.version = some (toString n)
  distinct : ∀ k key (o : Object k) j key' (p : Object j),
    c.stored? k key = some o → c.stored? j key' = some p →
    o.metadata.version = p.metadata.version → j = k ∧ key' = key

theorem dated_empty : empty.Dated :=
  ⟨fun _ _ _ h => (nomatch h), fun _ _ _ _ _ _ h => (nomatch h)⟩

/-- A version that is yet to come is not that of an object. -/
theorem Dated.ne_next {c : Cluster} (h : c.Dated) {k : Kind} {key : Key} {o : Object k}
    (ho : c.stored? k key = some o) : o.metadata.version ≠ some (toString (c.version + 1)) := by
  obtain ⟨n, -, hle, hn⟩ := h.given k key o ho
  rw [hn]
  intro heq
  have : n = c.version + 1 := versionText_inj (Option.some.inj heq)
  omega

theorem Outcome.dated {c c' : Cluster} {answer : Except AccessError (Option Metadata)}
    (h : Outcome c answer c') (hdated : c.Dated) : c'.Dated where
  given k key o ho := by
    rcases h.stored_cases ho with hold | ⟨hnext, hversion, -⟩
    · obtain ⟨n, hpos, hle, hn⟩ := hdated.given k key o hold
      exact ⟨n, hpos, Nat.le_trans hle h.version_le, hn⟩
    · exact ⟨c.version + 1, Nat.succ_pos _, Nat.le_of_eq hnext.symm, hversion⟩
  distinct k key o j key' p ho hp hsame := by
    rcases h.stored_cases ho with hold | ⟨-, hversion, honly⟩
    · rcases h.stored_cases hp with hold' | ⟨-, hversion', -⟩
      · exact hdated.distinct k key o j key' p hold hold' hsame
      · -- only the second one is new, and the first one carries an older version
        exact absurd (hsame.trans hversion') (hdated.ne_next hold)
    · by_cases hchanged : c'.stored? j key' = c.stored? j key'
      · have hold' : c.stored? j key' = some p := hchanged ▸ hp
        exact absurd (hsame.symm.trans hversion) (hdated.ne_next hold')
      · exact honly j key' hchanged

/-! ### Runs -/

/-- The cluster after these operations, one after the other, when there was nothing at first. -/
def after (ops : List Operation) : Cluster := ops.foldl (fun c op => op.apply c) empty

theorem after_append_singleton (ops : List Operation) (op : Operation) :
    after (ops ++ [op]) = op.apply (after ops) := by
  simp [after]

/-- What holds at first and is kept by every operation holds after every run. -/
theorem after_induction {motive : Cluster → Prop} (start : motive empty)
    (step : ∀ c op, motive c → motive (Operation.apply op c)) (ops : List Operation) :
    motive (after ops) := by
  induction ops using List.reverseRecOn with
  | nil => exact start
  | append_singleton ops op ih =>
    rw [after_append_singleton]
    exact step _ op ih

theorem dated_after (ops : List Operation) : (after ops).Dated :=
  after_induction dated_empty (fun c op h => (op.outcome c).dated h) ops

theorem version_after_le (ops more : List Operation) :
    (after ops).version ≤ (after (ops ++ more)).version := by
  induction more using List.reverseRecOn with
  | nil =>
    have hsame : after (ops ++ []) = after ops := by rw [List.append_nil]
    exact Nat.le_of_eq (by rw [hsame])
  | append_singleton more op ih =>
    rw [← List.append_assoc, after_append_singleton]
    exact Nat.le_trans ih (op.outcome _).version_le

/-- **Versions are given out in order, and once.**  After any operations at all, and with one more:

* the counter of versions does not go back;
* every object carries a version that is a positive number up to the counter;
* no two objects carry the same one;
* what is given out was not given out before;
* a write of either half that carries another version than the stored object is refused with a
  conflict;
* an operation that is refused leaves all objects and the counter as they are, and exactly if the
  refusal is an injected conflict, it uses this up; then the object that it is about is there. -/
theorem versions_disciplined (ops : List Operation) (op : Operation) :
    let c := after ops
    let c' := after (ops ++ [op])
    c.version ≤ c'.version ∧
      (∀ k key (o : Object k), c.stored? k key = some o →
        ∃ n, 0 < n ∧ n ≤ c.version ∧ o.metadata.version = some (toString n)) ∧
      (∀ k key (o : Object k) j key' (p : Object j),
        c.stored? k key = some o → c.stored? j key' = some p →
        o.metadata.version = p.metadata.version → j = k ∧ key' = key) ∧
      (∀ earlier op' later version, ops = earlier ++ op' :: later →
        op'.GivesOut (after earlier) version → ¬ op.GivesOut c version) ∧
      (∀ half k key (o stored : Object k), op = .put half o → o.IsAt key →
        c.stored? k key = some stored → o.metadata.version.isSome →
        o.metadata.version ≠ stored.metadata.version →
        ∃ message, op.answer c = .error (.conflict k.name key message)) ∧
      ∀ e, op.answer c = .error e →
        c'.tables = c.tables ∧ c'.version = c.version ∧
          (e.IsInjected → c'.injectedConflicts + 1 = c.injectedConflicts ∧
            ∃ k key message, e = .conflict (Kind.name k) key message ∧ (c.stored? k key).isSome) ∧
          (¬ e.IsInjected → c'.injectedConflicts = c.injectedConflicts) := by
  intro c c'
  have hafter : c' = op.apply c := after_append_singleton ops op
  have hdated : c.Dated := dated_after ops
  refine ⟨version_after_le ops [op], hdated.given, hdated.distinct, ?_, ?_, ?_⟩
  · -- what was given out before was at most the counter, and now it is the next one
    intro earlier op' later version hops hbefore hnow
    obtain ⟨hversion, hcounter⟩ := Outcome.givesOut hbefore
    obtain ⟨hversion', -⟩ := Outcome.givesOut hnow
    have hle : (after (earlier ++ [op'])).version ≤ c.version := by
      have h := version_after_le (earlier ++ [op']) later
      rwa [List.append_assoc, List.singleton_append, ← hops] at h
    rw [after_append_singleton, hcounter] at hle
    have hsame : (after earlier).version + 1 = c.version + 1 :=
      versionText_inj (hversion.symm.trans hversion')
    omega
  · -- a stale write meets the injected conflict first, if there is one
    rintro half k key o stored rfl hplace hs hv hne
    by_cases hc : c.injectedConflicts = 0
    · exact ⟨_, by rw [Operation.answer, Half.put_stale hplace hs hc hv hne]; rfl⟩
    · exact ⟨_, by rw [Operation.answer, Half.put_injected hplace hs hc]; rfl⟩
  · intro e he
    have houtcome := op.outcome c
    rw [he, ← hafter] at houtcome
    exact houtcome.of_error

/-- A language model that comes with a version. -/
def llmOfVersion (version : Option String) : Object .llm where
  metadata := { name := some "m", ns := some "default", version }
  spec := {}

/-- The version of an object that was there before is no good for the one that was made in its
place. -/
theorem versions_disciplined_recreated :
    let key : Key := ⟨"default", "m"⟩
    let ops : List Operation :=
      [.create (llmOfVersion none), .delete .llm key ⟨0, 0⟩, .create (llmOfVersion none)]
    let late := llmOfVersion (some "1")
    late.IsAt key ∧
      ∃ stored, (after ops).stored? .llm key = some stored ∧
        late.metadata.version ≠ stored.metadata.version ∧
        (∃ message, (Operation.put .body late).answer (after ops) =
          .error (.conflict "LLM" key message)) ∧
        (after (ops ++ [.put .body late])).tables = (after ops).tables := by
  intro key ops late
  have hplace : late.IsAt key := ⟨rfl, rfl⟩
  have hsecond : ((after ops).stored? .llm key).map (·.metadata.version) = some (some "2") := by
    decide +kernel
  obtain ⟨stored, hs, hversion⟩ := Option.map_eq_some_iff.1 hsecond
  have hne : late.metadata.version ≠ stored.metadata.version := by
    rw [hversion]
    decide
  obtain ⟨-, -, -, -, hstale, hrefused⟩ := versions_disciplined ops (.put .body late)
  obtain ⟨message, hanswer⟩ := hstale .body .llm key late stored rfl hplace hs rfl hne
  exact ⟨hplace, stored, hs, hne, ⟨message, hanswer⟩, (hrefused _ hanswer).1⟩

end Cluster

end ModelKeeper

import ModelKeeper.Pass.Entry
import ModelKeeper.Proofs.Resource.SameSpec
import ModelKeeper.Proofs.World.Undisturbed

/-!
# Only active objects are worked for

A pass begins with a look at the object.  If this is absent or not active, then the pass tends to
its finalizers at most.

* `Pass.exchanges_tend`: under any handler, such a pass looks at the object and at the clock, and
  writes the object as it was read, with other finalizers (`Exchange.Tends`).
* `Pass.wp_reconcile_onCluster`: in a cluster of its own, the object then passes the gate
  (`Object.pastGate`), and all other objects stay as they are (`Cluster.GateKept`).
* `Pass.finalizer_gate` puts both together, and says conversely that a pass that does any work
  (`Exchange.IsWork`) has begun with the reading of an active object.
-/

namespace ModelKeeper

/-! ### Exchanges about finalizers -/

/-- Whether an exchange is a look at the object or at the clock, or writes the object as it was read
before with other finalizers. -/
inductive Exchange.Tends (k : Kind) (key : Key) (past : List Exchange) : Exchange → Prop
  | get (answer : Except AccessError (Object k)) : Tends k key past ⟨.get k key, answer⟩
  | now (time : Instant) : Tends k key past ⟨.now, time⟩
  | update (copy : Object k) (fs : List String) (answer : Except AccessError (Object k)) :
    ⟨.get k key, .ok copy⟩ ∈ past → Tends k key past ⟨.update k (copy.withFinalizers fs), answer⟩

/-- Whether all exchanges are of this sort. -/
def Exchange.AllTend (k : Kind) (key : Key) (past : List Exchange) : Prop :=
  ∀ x ∈ past, x.Tends k key past

namespace Exchange

variable {k : Kind} {key : Key} {past : List Exchange}

theorem Tends.cons {x : Exchange} (y : Exchange) (h : x.Tends k key past) :
    x.Tends k key (y :: past) := by
  cases h with
  | get answer => exact .get answer
  | now time => exact .now time
  | update copy fs answer hcopy => exact .update copy fs answer (List.mem_cons_of_mem _ hcopy)

theorem AllTend.cons {x : Exchange} (h : AllTend k key past) (hx : x.Tends k key past) :
    AllTend k key (x :: past) := by
  intro y hy
  rcases List.mem_cons.1 hy with rfl | hy
  · exact hx.cons y
  · exact (h y hy).cons x

end Exchange

theorem Exchange.allTend_reverse {k : Kind} {key : Key} {past : List Exchange} :
    AllTend k key past.reverse ↔ AllTend k key past := by
  have hmem : ∀ x, Tends k key past.reverse x ↔ Tends k key past x := by
    intro x
    constructor
    · rintro (_ | _ | ⟨copy, fs, answer, h⟩)
      · exact .get _
      · exact .now _
      · exact .update copy fs answer (List.mem_reverse.1 h)
    · rintro (_ | _ | ⟨copy, fs, answer, h⟩)
      · exact .get _
      · exact .now _
      · exact .update copy fs answer (List.mem_reverse.2 h)
  simp only [AllTend, List.mem_reverse, hmem]

/-- Nothing that was noted is lost. -/
theorem Program.wp_noting_of_forall {α : Type} {post : α → List Exchange → Prop}
    (p : Program α) {past : List Exchange} (h : ∀ a later, post a (later ++ past)) :
    p.wp .noting post past := by
  induction p generalizing past with
  | done a => exact h a []
  | step r next ih =>
    refine fun answer => ih answer fun a later => ?_
    have hlater := h a (later ++ [⟨r, answer⟩])
    rwa [List.append_assoc, List.singleton_append] at hlater

section

variable {k : Kind} {key : Key} {change : Change k}

theorem Change.OfFinalizers.wp_attempt (h : change.OfFinalizers)
    {onConflict : AccessError → Program (Except AccessError (Object k))} {past : List Exchange}
    (hconflict : ∀ e past, Exchange.AllTend k key past →
      (onConflict e).wp .noting (fun _ past => Exchange.AllTend k key past) past)
    (hpast : Exchange.AllTend k key past) :
    (amend.attempt .body k key change onConflict).wp .noting
      (fun _ past => Exchange.AllTend k key past) past := by
  rw [amend.wp_attempt]
  intro answer
  have hread := hpast.cons (.get answer)
  cases answer with
  | error e => exact hread
  | ok copy =>
    intro now
    have hlooked := hread.cons (.now now)
    -- the list is as it should be, or the only difference is in the finalizers
    rcases h now copy with hchange | ⟨fs, hchange⟩
    · rw [hchange, if_neg Bool.false_ne_true]
      exact hlooked
    · rw [hchange, if_pos rfl]
      intro answer
      exact amend.unlessConflict_of hconflict answer
        (hlooked.cons (.update copy fs answer (by simp)))

theorem Change.OfFinalizers.wp_go (h : change.OfFinalizers) (retries : Nat)
    {past : List Exchange} (hpast : Exchange.AllTend k key past) :
    (amend.go .body k key change retries).wp .noting
      (fun _ past => Exchange.AllTend k key past) past := by
  induction retries generalizing past with
  | zero => exact h.wp_attempt (fun _ _ h => h) hpast
  | succ retries ih => exact h.wp_attempt (fun _ _ h => ih h) hpast

end

/-! ### Exchanges of a pass -/

/-- An object on its way to being active or gone is given other finalizers, and that is all. -/
theorem wp_advance_noting {k : Kind} {key : Key} {o : Object k} (hplace : o.IsAt key)
    {finalizer : String} (attempts : Nat) {past : List Exchange}
    (hpast : Exchange.AllTend k key past) (hactive : Lifecycle.of o finalizer ≠ .active) :
    (advance o finalizer attempts).wp .noting
      (fun r past => r ≠ .ok none ∧ Exchange.AllTend k key past) past := by
  unfold advance
  simp only [hplace.own]
  -- a finalizer is put on or taken off by an amendment of the body
  split
  · rw [Attempt.wp_bind]
    refine Attempt.wp_mono Meaning.noting_monotone ?_ (addFinalizer k key finalizer attempts)
      ((Object.addFinalizer_ofFinalizers k finalizer).wp_go (attempts - 1) hpast)
    intro r past hpast
    cases r with
    | ok o => exact ⟨nofun, hpast⟩
    | error e => exact ⟨nofun, hpast⟩
  · rw [Attempt.wp_bind]
    unfold removeFinalizer
    rw [Attempt.wp_of, Program.wp_bind']
    refine Attempt.wp_mono Meaning.noting_monotone ?_
      (amend .body k key attempts (fun _ => Object.removeFinalizer finalizer))
      ((Object.removeFinalizer_ofFinalizers k finalizer).wp_go (attempts - 1) hpast)
    intro r past hpast
    cases r with
    | ok o => exact ⟨nofun, hpast⟩
    | error e => cases e <;> exact ⟨nofun, hpast⟩
  · exact ⟨nofun, hpast⟩
  · contradiction

namespace Pass

/-- A pass that begins with the reading of an object that is not active tends to its finalizers, and
that is all. -/
theorem wp_frame_noting {k : Kind} (settings : Settings) (key : Key)
    (work : Object k → Attempt Failure (Option Directive)) :
    (frame settings key work).outcome.wp .noting
      (fun _ past =>
        (∀ o, [⟨.get k key, .ok o⟩] <:+ past →
          o.IsAt key ∧ Lifecycle.of o k.finalizer ≠ .active) →
        Exchange.AllTend k key past) [] := by
  have hnil : Exchange.AllTend k key [] := fun x hx => absurd hx List.not_mem_nil
  unfold frame access
  simp only [Attempt.wp_outcome, Attempt.wp_bind, Attempt.wp_mapError, Objects.find?, Attempt.wp_of,
    Program.wp_bind', Program.ask, Program.wp_step, Program.wp_done]
  intro answer
  have hread := hnil.cons (.get answer)
  cases answer with
  | error e => cases e <;> exact fun _ => hread
  | ok o =>
    by_cases ho : o.IsAt key ∧ Lifecycle.of o k.finalizer ≠ .active
    · simp only [Program.wp_pure, Attempt.mapError_ok, Attempt.unlessFailed_ok, Attempt.wp_bind,
        Attempt.wp_mapError]
      refine Attempt.wp_mono Meaning.noting_monotone ?_ _
        (wp_advance_noting ho.1 settings.writeAttempts hread ho.2)
      rintro r past ⟨hr, hpast⟩
      cases r with
      | error e => exact fun _ => hpast
      | ok d =>
        cases d with
        | none => exact absurd rfl hr
        | some d => exact fun _ => hpast
    · -- what was read first is another object than was said
      simp only [Program.wp_pure, Attempt.mapError_ok, Attempt.unlessFailed_ok]
      exact Program.wp_noting_of_forall _ fun _ later hfirst =>
        absurd (hfirst o ⟨later, rfl⟩) ho

theorem exchanges_eq_cons {τ : Type} (h : Handler τ) (w : Worked) (settings : Settings) (key : Key)
    (t : τ) : ∃ rest, (reconcile w settings key).exchanges h t =
      ⟨.get w.kind key, (h.answer (.get w.kind key) t).1⟩ :: rest := by
  cases w <;> exact ⟨_, rfl⟩

/-- Under any handler, a pass that does not find an active object has no other exchanges than those
about its finalizers. -/
theorem exchanges_tend {τ : Type} (h : Handler τ) (w : Worked) (settings : Settings) (key : Key)
    (t : τ) (hfirst : ∀ o, (h.answer (.get w.kind key) t).1 = .ok o →
      o.IsAt key ∧ Lifecycle.of o w.kind.finalizer ≠ .active) :
    Exchange.AllTend w.kind key ((reconcile w settings key).exchanges h t) := by
  have hwp : (reconcile w settings key).wp .noting
      (fun _ past =>
        (∀ o, [⟨.get w.kind key, .ok o⟩] <:+ past →
          o.IsAt key ∧ Lifecycle.of o w.kind.finalizer ≠ .active) →
        Exchange.AllTend w.kind key past) [] := by
    unfold reconcile
    rw [Program.wp_bind']
    cases w <;> exact wp_frame_noting settings key _
  have htend := Program.of_wp_noting h _ t hwp
  rw [List.append_nil] at htend
  refine Exchange.allTend_reverse.1 (htend fun o ho => hfirst o ?_)
  -- the first exchange of a pass is the read of its object
  obtain ⟨rest, hrest⟩ := exchanges_eq_cons h w settings key t
  rw [hrest, List.reverse_cons] at ho
  have heq := List.singleton_suffix_append_singleton_iff.1 ho
  exact (eq_of_heq (Exchange.mk.inj heq).2).symm

end Pass

/-! ### What becomes of the object -/

namespace Object

variable {k : Kind}

/-- The object with other finalizers, as the store writes it: with a new version, and with a
generation if it had none. -/
def refinalized (o : Object k) (fs : List String) (version : String) : Object k :=
  { o with
    metadata := { o.metadata with
      finalizers := some fs
      version := some version
      generation := some (o.metadata.generation.getD 1) } }

@[simp]
theorem refinalized_isDeleted (o : Object k) (fs : List String) (version : String) :
    (o.refinalized fs version).isDeleted = o.isDeleted := rfl

@[simp]
theorem refinalized_finalizers (o : Object k) (fs : List String) (version : String) :
    (o.refinalized fs version).finalizers = fs := rfl

/-- What a pass makes of an object that is not active: a new one gets the finalizer, and one that
terminates loses all copies of it, and goes away if it has no other finalizers. -/
def pastGate (o : Object k) (finalizer version : String) : Option (Object k) :=
  match Lifecycle.of o finalizer with
  | .new => some (o.refinalized (o.finalizers ++ [finalizer]) version)
  | .terminating =>
    let fs := o.finalizers.filter (· != finalizer)
    if fs.isEmpty then none else some (o.refinalized fs version)
  | .active | .gone => some o

theorem merged_withFinalizers {o : Object k} (hfinite : o.IsFinite) (hself : o.sameSpec o)
    (fs : List String) (version : String) :
    Cluster.merged o (o.settled.withFinalizers fs) version = o.refinalized fs version := by
  have hsame : (o.withFinalizers fs).sameSpec o = true := hself
  rw [settled_of_isFinite hfinite]
  unfold Cluster.merged
  simp only [hsame, if_true]
  simp [withFinalizers, refinalized]

end Object

/-- What a pass over an object that is not active may change in a cluster: the object under the key,
which passes the gate unless too many conflicts are in the way. -/
structure Cluster.GateKept (k : Kind) (key : Key) (attempts : Nat) (c c' : Cluster) : Prop where
  others : c.SameBut k key c'
  object : c'.stored? k key = (c.stored? k key).bind (fun o =>
    if c.injectedConflicts < max attempts 1 then
      o.pastGate k.finalizer c.nextVersion.versionText
    else some o)

namespace Cluster.GateKept

variable {k : Kind} {key : Key} {attempts : Nat} {c c' : Cluster} {o o' : Object k}

/-- The finalizers have been written. -/
theorem of_putBack (hs : c.stored? k key = some o) (hlt : c.injectedConflicts < max attempts 1)
    (hgate : o.pastGate k.finalizer c.nextVersion.versionText =
      if o'.isDeleted ∧ o'.finalizers = [] then none else some o') :
    GateKept k key attempts c
      (({ c with injectedConflicts := 0 } : Cluster).nextVersion.putBack .body key o') where
  others := sameBut_putBack _ _ _ _
  object := by
    rw [stored?_putBack_self, hs, Option.bind_some, if_pos hlt, hgate]
    simp only [true_and]

/-- Nothing has been written, but for the number of conflicts. -/
theorem of_conflicts (hs : c.stored? k key = some o) (hle : max attempts 1 ≤ c.injectedConflicts)
    (n : Nat) : GateKept k key attempts c { c with injectedConflicts := n } where
  others := .refl k key c
  object := by
    have hs' : ({ c with injectedConflicts := n } : Cluster).stored? k key = some o := hs
    rw [hs', hs, Option.bind_some, if_neg (Nat.not_lt.2 hle)]

/-- Nothing was to be done. -/
theorem of_gone (h : ∀ o, c.stored? k key = some o → Lifecycle.of o k.finalizer = .gone) :
    GateKept k key attempts c c where
  others := .refl k key c
  object := by
    cases hs : c.stored? k key with
    | none => rfl
    | some o => simp [Object.pastGate, h o hs]

end Cluster.GateKept

section

variable {σ : Type} {v : Vendors σ} {k : Kind} {c : Cluster} {key : Key} {o : Object k}

/-- The writing of other finalizers, of those that the object has past the gate. -/
theorem wp_amend_pastGate {change : Change k} {fs : List String}
    {post : Except AccessError (Object k) → Cluster → Prop} (hof : change.OfFinalizers)
    (hs : c.stored? k key = some o) (hplace : o.IsAt key) (hfinite : o.IsFinite)
    (hself : o.sameSpec o)
    (hchange : ∀ now, change now o.settled = (o.settled.withFinalizers fs, true))
    (hgate : o.pastGate k.finalizer c.nextVersion.versionText =
      if o.isDeleted ∧ fs = [] then none else some (o.refinalized fs c.nextVersion.versionText))
    (attempts : Nat) (hpost : ∀ r c', c.GateKept k key attempts c' → post r c') :
    (amend .body k key attempts change).wp (.onCluster v) post c := by
  refine Change.wp_amend_injected hof.proper hs hplace (fun now => by rw [hchange]) attempts
    (fun hlt now => hpost _ _ ?_) (fun hle => hpost _ _ ?_)
  · simp only [Change.result, hchange, Half.replaced, Object.merged_withFinalizers hfinite hself]
    exact .of_putBack hs hlt hgate
  · exact .of_conflicts hs hle _

/-- An object that is not active passes the gate. -/
theorem wp_advance_onCluster (hs : c.stored? k key = some o) (hplace : o.IsAt key)
    (hfinite : o.IsFinite) (hself : o.sameSpec o) (attempts : Nat)
    (hactive : Lifecycle.of o k.finalizer ≠ .active) :
    (advance o.settled k.finalizer attempts).wp (.onCluster v)
      (fun r c' => r ≠ .ok none ∧ c.GateKept k key attempts c') c := by
  have hlifecycle : Lifecycle.of o.settled k.finalizer = Lifecycle.of o k.finalizer := rfl
  unfold advance
  simp only [hplace.settled.own, hlifecycle]
  rcases Lifecycle.of_cases o k.finalizer with
    ⟨hnew, hmem, hdeleted⟩ | ⟨h, -⟩ | ⟨hterminating, hmem, hdeleted⟩ | ⟨hgone, -⟩
  · simp only [hnew, Attempt.wp_bind]
    refine wp_amend_pastGate (Object.addFinalizer_ofFinalizers k k.finalizer) hs hplace hfinite
      hself (fun _ => Object.addFinalizer_of_not_mem hmem) ?_ attempts fun r c' hgate => ?_
    · simp [Object.pastGate, hnew, hdeleted]
    · cases r <;> exact ⟨by simp, hgate⟩
  · exact absurd h hactive
  · simp only [hterminating, Attempt.wp_bind]
    unfold removeFinalizer
    rw [Attempt.wp_of, Program.wp_bind']
    refine wp_amend_pastGate (Object.removeFinalizer_ofFinalizers k k.finalizer) hs hplace hfinite
      hself (fun _ => Object.removeFinalizer_of_mem hmem) ?_ attempts fun r c' hgate => ?_
    · simp [Object.pastGate, hterminating, hdeleted]
    · -- an object that has gone away meanwhile is no failure
      cases r with
      | ok _ => exact ⟨by simp, hgate⟩
      | error e => cases e <;> exact ⟨by simp, hgate⟩
  · simp only [hgone]
    refine ⟨by simp, .of_gone fun o' ho' => ?_⟩
    rw [hs] at ho'
    exact Option.some.inj ho' ▸ hgone

end

namespace Pass

theorem Worked.sameSpec_self (w : Worked) {o : Object w.kind} (h : o.IsFinite) : o.sameSpec o := by
  cases w with
  | llm => exact (Object.sameSpec_llm o o).2 rfl
  | model => exact (Object.sameSpec_model o o).2 rfl
  | prompt => exact Object.sameSpec_prompt_self h

theorem wp_frame_onCluster {σ : Type} {v : Vendors σ} {k : Kind} {c : Cluster} {key : Key}
    (settings : Settings) (work : Object k → Attempt Failure (Option Directive))
    (hobject : ∀ o, c.stored? k key = some o →
      o.IsAt key ∧ o.IsFinite ∧ o.sameSpec o ∧ Lifecycle.of o k.finalizer ≠ .active) :
    (frame settings key work).outcome.wp (.onCluster v)
      (fun _ c' => c.GateKept k key settings.writeAttempts c') c := by
  unfold frame access
  simp only [Attempt.wp_outcome, Attempt.wp_bind, Attempt.wp_mapError, Objects.wp_find?]
  cases hs : c.stored? k key with
  | none => exact .of_gone fun o ho => by simp [hs] at ho
  | some o =>
    obtain ⟨hplace, hfinite, hself, hactive⟩ := hobject o hs
    simp only [Option.map_some, Attempt.mapError_ok, Attempt.unlessFailed_ok, Attempt.wp_bind,
      Attempt.wp_mapError]
    refine Attempt.wp_mono (Meaning.onCluster_monotone v) ?_ _
      (wp_advance_onCluster hs hplace hfinite hself settings.writeAttempts hactive)
    rintro r c' ⟨hr, hgate⟩
    cases r with
    | error e => exact hgate
    | ok d =>
      -- only the lifecycle of an active object lets the pass go on
      cases d with
      | none => exact absurd rfl hr
      | some d => exact hgate

theorem wp_reconcile_onCluster {σ : Type} {v : Vendors σ} (w : Worked) (settings : Settings)
    {c : Cluster} {key : Key} (hobject : ∀ o : Object w.kind, c.stored? w.kind key = some o →
      o.IsAt key ∧ o.IsFinite ∧ Lifecycle.of o w.kind.finalizer ≠ .active) :
    (reconcile w settings key).wp (.onCluster v)
      (fun _ c' => c.GateKept w.kind key settings.writeAttempts c') c := by
  have hobject' : ∀ o : Object w.kind, c.stored? w.kind key = some o →
      o.IsAt key ∧ o.IsFinite ∧ o.sameSpec o ∧ Lifecycle.of o w.kind.finalizer ≠ .active :=
    fun o ho =>
      let ⟨hplace, hfinite, hactive⟩ := hobject o ho
      ⟨hplace, hfinite, w.sameSpec_self hfinite, hactive⟩
  unfold reconcile
  rw [Program.wp_bind']
  cases w <;> exact wp_frame_onCluster settings _ hobject'

end Pass

/-! ### The gate -/

/-- Whether an exchange is work for the object: a request to a vendor, another object made, a status
written, a report, or the object written with other labels than it was read with. -/
inductive Exchange.IsWork (k : Kind) (key : Key) (past : List Exchange) : Exchange → Prop
  | connect (c : Connection) (answer) : IsWork k key past ⟨.connect c, answer⟩
  | validate (c : Connection) (options : List CallOption) (answer) :
    IsWork k key past ⟨.validate c options, answer⟩
  | call (c : Connection) (payload : List UInt8) (answer) :
    IsWork k key past ⟨.call c payload, answer⟩
  | create {j : Kind} (o : Object j) (answer) : IsWork k key past ⟨.create j o, answer⟩
  | updateStatus {j : Kind} (o : Object j) (answer) : IsWork k key past ⟨.updateStatus j o, answer⟩
  | emit (e : Event) (answer) : IsWork k key past ⟨.emit e, answer⟩
  | label {o : Object k} (answer) :
    (∀ copy : Object k, ⟨.get k key, .ok copy⟩ ∈ past →
      o.metadata.labels ≠ copy.metadata.labels) →
    IsWork k key past ⟨.update k o, answer⟩

theorem Exchange.Tends.not_isWork {k : Kind} {key : Key} {past : List Exchange} {x : Exchange}
    (h : x.Tends k key past) : ¬ x.IsWork k key past := by
  rintro (_ | _ | _ | _ | _ | _ | ⟨answer, hlabels⟩)
  case label =>
    cases h with
    | @update copy fs _ hread => exact hlabels copy hread rfl
  all_goals cases h

theorem Exchange.Tends.ofCluster {k : Kind} {key : Key} {past : List Exchange} {x : Exchange}
    (h : x.Tends k key past) : World.OfCluster x.request := by
  cases h <;> trivial

namespace Pass

/-- The gate of a pass.  If the object is absent or not active, then the pass does no work: it only
tends to the finalizers of the object, nothing changes but the cluster, and there nothing but the
object, which passes the gate.  And under every handler, however others interfere, a pass that does
work has read the object as active at its beginning. -/
theorem finalizer_gate {σ τ : Type} (w : Worked) (settings : Settings) (key : Key) (v : Vendors σ)
    (s : World σ) (hplaced : s.cluster.Placed)
    (hfinite : ∀ o : Object w.kind, s.cluster.stored? w.kind key = some o → o.IsFinite)
    (h : Handler τ) (t : τ)
    (hhome : ∀ o, (h.answer (.get w.kind key) t).1 = .ok o → o.IsAt key) :
    ((∀ o : Object w.kind, s.cluster.stored? w.kind key = some o →
        Lifecycle.of o w.kind.finalizer ≠ .active) →
      let p := reconcile w settings key
      let s' := (p.run (World.handler v) s).2
      Exchange.AllTend w.kind key (p.exchanges (World.handler v) s) ∧
        s' = { s with cluster := s'.cluster } ∧
        s.cluster.GateKept w.kind key settings.writeAttempts s'.cluster) ∧
      let exchanges := (reconcile w settings key).exchanges h t
      ((∃ x ∈ exchanges, x.IsWork w.kind key exchanges) →
        ∃ o rest, exchanges = ⟨.get w.kind key, .ok o⟩ :: rest ∧
          Lifecycle.of o w.kind.finalizer = .active) := by
  constructor
  · -- nothing to work for
    intro hidle
    have htend : Exchange.AllTend w.kind key
        ((reconcile w settings key).exchanges (World.handler v) s) := by
      refine exchanges_tend _ w settings key s fun o ho => ?_
      obtain ⟨stored, hs, rfl⟩ := Cluster.stored_of_get ho
      exact ⟨(hplaced _ _ _ hs).settled, hidle stored hs⟩
    refine ⟨htend, World.run_of_cluster v _ s fun x hx => (htend x hx).ofCluster, ?_⟩
    exact Program.run_of_wp (World.handler_serves v) _ (s := s)
      (wp_reconcile_onCluster w settings fun o ho =>
        ⟨hplaced _ _ o ho, hfinite o ho, hidle o ho⟩)
  · -- some work: all exchanges would only tend to the finalizers if no active object had been read
    rintro exchanges ⟨x, hx, hwork⟩
    obtain ⟨rest, hrest⟩ := exchanges_eq_cons h w settings key t
    by_contra hnone
    have htend : Exchange.AllTend w.kind key exchanges := by
      refine exchanges_tend h w settings key t fun o ho => ⟨hhome o ho, fun hactive => hnone ?_⟩
      exact ⟨o, rest, by rw [← ho]; exact hrest, hactive⟩
    exact (htend x hx).not_isWork hwork

/-- A language model that is to go away, with the finalizer twice and another one in between. -/
def terminatingLlm : Object .llm where
  metadata :=
    { name := some "m"
      ns := some "default"
      finalizers := some [Kind.finalizer .llm, "other", Kind.finalizer .llm]
      deletion := some (.ofSeconds 0)
      version := some "1"
      generation := some 1 }
  spec := {}

theorem finalizer_gate_terminating :
    let key : Key := ⟨"default", "m"⟩
    let c : Cluster := { Cluster.empty.store key terminatingLlm with version := 1 }
    let s : World Unit := { cluster := c, vendors := () }
    let s' := ((reconcile .llm {} key).run (World.handler .unreachable) s).2
    s.cluster.Placed ∧ terminatingLlm.IsFinite ∧
      Lifecycle.of terminatingLlm (Kind.finalizer .llm) ≠ .active ∧
      s.cluster.GateKept .llm key 5 s'.cluster := by
  intro key c s s'
  have hplaced : c.Placed := Cluster.placed_empty.store key ⟨rfl, rfl⟩
  have hactive : Lifecycle.of terminatingLlm (Kind.finalizer .llm) ≠ .active := by decide
  have hstored : ∀ o : Object .llm, c.stored? .llm key = some o → o = terminatingLlm := by
    intro o ho
    rw [show c.stored? .llm key = _ from Cluster.stored?_store_self ..] at ho
    exact (Option.some.inj ho).symm
  have hhome : ∀ o, ((World.handler .unreachable).answer (.get .llm key) s).1 = .ok o →
      o.IsAt key := by
    intro o ho
    obtain ⟨stored, hs, rfl⟩ := Cluster.stored_of_get ho
    exact (hplaced _ _ _ hs).settled
  exact ⟨hplaced, trivial, hactive,
    ((finalizer_gate .llm {} key .unreachable s hplaced (fun _ _ => trivial)
      (World.handler .unreachable) s hhome).1 fun o ho => hstored o ho ▸ hactive).2.2⟩

/-- A language model that carries no generation. -/
def unnumberedLlm : Object .llm where
  metadata := { name := some "m", ns := some "default", version := some "2" }
  spec := {}

/-- The list of finalizers is not all that may change: with it an object gets a generation, if it
has none. -/
theorem finalizer_write_gives_generation :
    let key : Key := ⟨"default", "m"⟩
    let c : Cluster := { Cluster.empty.store key unnumberedLlm with version := 2 }
    let s : World Unit := { cluster := c, vendors := () }
    let s' := ((reconcile .llm {} key).run (World.handler .unreachable) s).2
    c.Placed ∧ c.stored? .llm key = some unnumberedLlm ∧
      Lifecycle.of unnumberedLlm (Kind.finalizer .llm) = .new ∧
      ∃ o', s'.cluster.stored? .llm key = some o' ∧
        unnumberedLlm.metadata.generation = none ∧ o'.metadata.generation = some 1 := by
  intro key c s s'
  have hplaced : c.Placed := Cluster.placed_empty.store key ⟨rfl, rfl⟩
  have hstored : c.stored? .llm key = some unnumberedLlm := Cluster.stored?_store_self ..
  have hnew : Lifecycle.of unnumberedLlm (Kind.finalizer .llm) = .new := by decide
  have hgate : c.GateKept .llm key 5 s'.cluster :=
    Program.run_of_wp (World.handler_serves .unreachable) _ (s := s)
      (wp_reconcile_onCluster .llm {} fun o ho => by
        obtain rfl := Option.some.inj (hstored.symm.trans ho)
        exact ⟨hplaced _ _ _ ho, trivial, by decide⟩)
  refine ⟨hplaced, hstored, hnew,
    unnumberedLlm.refinalized [Kind.finalizer .llm] c.nextVersion.versionText, ?_, rfl, rfl⟩
  rw [hgate.object, hstored]
  rfl

end Pass

end ModelKeeper

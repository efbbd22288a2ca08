import Mathlib.Logic.IsEmpty.Basic
import ModelKeeper.Pass.Entry
import ModelKeeper.Proofs.Operator.Change
import ModelKeeper.Proofs.Pass.Quiet
import ModelKeeper.Proofs.Pass.Settling.Model
import ModelKeeper.Proofs.Pass.Walk
import ModelKeeper.Proofs.Program.Turns
import ModelKeeper.Proofs.World.Elsewhere

/-!
# Availability is not taken back

A pass that finds the image store not ready wishes to be called again, and leaves the model alone.
So what the model says is not what the last pass has found: once it says that it is available, it
goes on saying so as long as it is there, whatever becomes of the image store
(`Pass.Model.availability_stays`).

Two things are behind this, for any number of passes in turns:

* The status is only ever written by changes that keep `Available` (`Change.KeepsAvailable`), of a
  copy that was available when it was read.  So every request of a pass spares the model
  (`Request.SparesAvailable`).
* A pass whose last look found the image store not ready (`ImageStore.foundUnready`) has come to its
  end by the one way that writes no model at all (`Pass.Model.EndsChain`).
-/

namespace ModelKeeper

/-! ### Models that are available -/

/-- Whether the model says that it is available. -/
def Object.IsAvailable (o : Object .model) : Prop :=
  ((o.status.getD {}).conditions.get .available).isTrue = true

/-- Whether a change does not take back that a model is available. -/
def Change.KeepsAvailable (change : Change .model) : Prop :=
  ∀ now o, o.IsAvailable → (change now o).1.IsAvailable

namespace Pass.Model

theorem markProgressing_keepsAvailable : Change.KeepsAvailable markProgressing := by
  intro now o h
  unfold markProgressing
  simp only
  split
  · exact h
  · simpa [Object.IsAvailable, Conditions.get_set, Condition.now] using h

theorem markFailed_keepsAvailable (message : String) :
    Change.KeepsAvailable (markFailed message) := by
  intro now o h
  unfold markFailed
  simp only
  split
  · exact h
  · simpa [Object.IsAvailable, Conditions.get_set, Condition.now] using h

theorem markAvailable_keepsAvailable (n : Counts) : Change.KeepsAvailable (markAvailable n) :=
  fun now _ _ => (shown_after n now _).isTrue

end Pass.Model

/-! ### Requests that spare them -/

/-- Whether the model under a key says that it is available, if there is one. -/
def Cluster.ShowsAvailable (c : Cluster) (key : Key) : Prop :=
  ∀ o, c.stored? .model key = some o → o.IsAvailable

/-- Whether a request leaves models available that are. -/
def Request.SparesAvailable : Request → Prop
  | .create .model _ => False
  | .updateStatus .model o => o.IsAvailable
  | _ => True

theorem Request.sparesAvailable_of_not_writes {r : Request} (hr : ¬ r.Writes .model) :
    r.SparesAvailable := by
  cases r with
  | create k o => cases k <;> first | exact trivial | exact absurd rfl hr
  | updateStatus k o => cases k <;> first | exact trivial | exact absurd rfl hr
  | _ => exact trivial

namespace Cluster.ShowsAvailable

variable {c : Cluster} {key : Key}

theorem congr {c' : Cluster} (h : c.ShowsAvailable key)
    (hsame : c'.stored? .model key = c.stored? .model key) : c'.ShowsAvailable key :=
  fun o ho => h o (hsame.symm.trans ho)

theorem put (h : c.ShowsAvailable key) (half : Half) {o : Object .model}
    (ho : half = .status → o.IsAvailable) : (half.put c o).2.ShowsAvailable key := by
  cases hkey : o.requireKey with
  | error e => rwa [Half.put_incomplete half c hkey]
  | ok home =>
    have hplace := Object.IsAt.of_requireKey hkey
    cases hput : half.put c o with
    | mk answer c' =>
      cases answer with
      | error e =>
        obtain ⟨htables, -⟩ := Half.put_error hplace hput
        exact h.congr (by unfold stored?; rw [htables])
      | ok a =>
        obtain ⟨stored, hs, -, -, rfl⟩ := Half.put_ok hplace hput
        by_cases hhome : key = home
        · -- the body comes with the stored status, and the status is what was passed
          subst hhome
          intro p hp
          have hreplaced : (half.replaced stored o c.nextVersion.versionText).IsAvailable := by
            cases half with
            | body => exact h stored hs
            | status => exact ho rfl
          rw [stored?_putBack_self] at hp
          split at hp
          · cases hp
          · exact Option.some.inj hp ▸ hreplaced
        · exact h.congr (sameBut_putBack c.nextVersion half home _ .model key
            fun hboth => hhome hboth.2)

theorem delete (h : c.ShowsAvailable key) (home : Key) (now : Instant) :
    (c.delete .model home now).2.ShowsAvailable key := by
  unfold Cluster.delete
  cases hs : c.stored? .model home with
  | none => exact h
  | some stored =>
    simp only
    -- the object is removed, or marked with the status that it had
    by_cases hhome : key = home
    · subst hhome
      split
      · intro p hp
        simp at hp
      · split
        · exact h
        · intro p hp
          rw [stored?_store_self] at hp
          exact Option.some.inj hp ▸ h stored hs
    · have hne : ¬ (Kind.model = .model ∧ key = home) := fun hboth => hhome hboth.2
      split
      · exact h.congr (stored?_remove_of_ne hne c)
      · split
        · exact h
        · exact h.congr (stored?_store_of_ne hne c.nextVersion _)

end Cluster.ShowsAvailable

theorem World.showsAvailable_answer {σ : Type} (v : Vendors σ) {r : Request} {w : World σ}
    {key : Key} (hr : r.SparesAvailable) (h : w.cluster.ShowsAvailable key) :
    (answer v r w).2.cluster.ShowsAvailable key := by
  -- of the requests that write models only a status could take it back
  by_cases hwrites : r.Writes .model
  · cases r with
    | create k o =>
      obtain rfl : k = .model := hwrites
      exact hr.elim
    | update k o =>
      obtain rfl : k = .model := hwrites
      exact h.put .body fun hhalf => nomatch hhalf
    | updateStatus k o =>
      obtain rfl : k = .model := hwrites
      exact h.put .status fun _ => hr
    | delete k home =>
      obtain rfl : k = .model := hwrites
      exact h.delete home w.clock
    | _ => exact hwrites.elim
  · exact h.congr (stored_answer v hwrites w key)

/-! ### Requests that write no model -/

/-- Whether this is no failure, but a wish to be called again. -/
def Failure.IsWish : Failure → Prop
  | .requeueAfter _ => True
  | _ => False

/-- What is done for a model when the set of its image store is ready. -/
def Pass.Model.publish (i : Input) (set : Object .statefulSet) : Attempt Failure Unit := do
  access (persist i.settings i.key (markAvailable (Counts.of set)))
  if !i.model.hasCondition .available then
    .always (report i.model.subject EventReason.modelAvailable "Image store is ready")

section

variable {ε : Type} {m : Meaning ε} {I : ε → Prop}

/-- Whether requests that write no model keep an invariant. -/
structure Meaning.Spares (m : Meaning ε) (I : ε → Prop) : Prop where
  monotone : m.Monotone
  ask : ∀ r, ¬ r.Writes .model → (Program.ask r).Keeps m I

namespace Meaning.Spares

variable (h : m.Spares I)
include h

theorem hushed : m.Hushed I where
  monotone := h.monotone
  ask r hquiet := h.ask r fun hwrites => by cases r <;> first | exact hquiet | exact hwrites

theorem report {subject : Subject} {reason message : String} :
    (report subject reason message).Keeps m I :=
  h.hushed.report

theorem find? {k : Kind} {key : Key} : (Objects.find? k key).Keeps m I := h.hushed.find?

theorem ensure {k : Kind} (hk : k ≠ .model) {key : Key} {part : Object k} {subject : Subject}
    {reason message : String} : (ImageStore.ensure key part subject reason message).Keeps m I :=
  h.hushed.ensure (h.ask (.create k part) hk)

theorem wp_access {α : Type} {p : Attempt AccessError α} (hp : p.Keeps m I)
    {post : Except Failure α → ε → Prop} {e : ε} (he : I e)
    (hfailed : ∀ err e, I e → ¬ err.IsWish → post (.error err) e)
    (hok : ∀ a e, I e → post (.ok a) e) : (Pass.access p).wp m post e := by
  unfold Pass.access
  rw [Attempt.wp_mapError]
  refine Attempt.wp_mono h.monotone (fun r e he => ?_) p (hp e he)
  cases r with
  | ok a => exact hok a e he
  | error err => exact hfailed _ e he id

theorem wp_requireStatefulSet {ns : String} {post : Except Failure (Object .statefulSet) → ε → Prop}
    {e : ε} (he : I e) (hfailed : ∀ err e, I e → ¬ err.IsWish → post (.error err) e)
    (hok : ∀ set e, I e → post (.ok set) e) : (Pass.Model.requireStatefulSet ns).wp m post e := by
  unfold Pass.Model.requireStatefulSet
  rw [Attempt.wp_bind]
  refine h.wp_access h.find? he hfailed fun found e he => ?_
  cases found with
  | none => exact hfailed _ e he id
  | some set => exact hok set e he

theorem wp_isReady {i : Pass.Model.Input} {post : Except Failure Bool → ε → Prop} {e : ε}
    (he : I e) (hfailed : ∀ err e, I e → ¬ err.IsWish → post (.error err) e)
    (hok : ∀ ready e, I e → post (.ok ready) e) : (Pass.Model.isReady i).wp m post e := by
  unfold Pass.Model.isReady
  rw [Attempt.wp_bind]
  refine h.wp_access h.hushed.statefulSetReady he hfailed fun ready e he => ?_
  rw [Attempt.unlessFailed_ok, Attempt.wp_ite]
  split
  · exact h.wp_access h.hushed.serviceReady he hfailed hok
  · exact hok false e he

/-- The chain writes no model, unless the image store is ready and this is published. -/
theorem wp_chain {i : Pass.Model.Input} {post : Except Failure Unit → ε → Prop} {e : ε} (he : I e)
    (hfailed : ∀ err e, I e → ¬ err.IsWish → post (.error err) e)
    (hwait : ∀ e, I e → post (.error (.requeueAfter i.settings.intervals.short)) e)
    (hready : ∀ set e, I e → (Pass.Model.publish i set).wp m post e) :
    Attempt.wp m post (Chain.run i Pass.Model.chain) e := by
  unfold Pass.Model.chain
  simp only [Chain.run, Step.claim, Step.statefulSet, Step.service, Step.named,
    Pass.Model.claimStep, Pass.Model.statefulSetStep, Pass.Model.serviceStep, Attempt.wp_bind,
    Attempt.wp_pure, Attempt.unlessFailed_nothing]
  -- the claim, the set, and the service in front of the set
  refine h.wp_access (h.ensure (by decide)) he hfailed fun _ e he => ?_
  refine h.wp_access (h.ensure (by decide)) he hfailed fun _ e he => ?_
  refine h.wp_requireStatefulSet he hfailed fun _ e he => ?_
  refine h.wp_access (h.ensure (by decide)) he hfailed fun _ e he => ?_
  -- the set is read again when all is ready, and may have gone away by then
  unfold Pass.Model.readinessStep
  simp only [Attempt.unlessFailed_ok, Attempt.wp_bind]
  refine h.wp_isReady he hfailed fun ready e he => ?_
  cases ready with
  | false => exact hwait e he
  | true =>
    rw [Attempt.unlessFailed_ok, if_neg (by decide), Attempt.wp_bind]
    exact h.wp_requireStatefulSet he hfailed hready

end Meaning.Spares

end

/-! ### Every request spares the model -/

namespace Pass.Model

open ImageStore

variable {σ : Type} {v : Vendors σ} {settings : Settings} {key : Key}

/-- What a pass knows of a model that was available at first, and what it owes. -/
def availability (key : Key) : Terms (World σ) where
  possible _ w := w.cluster.ShowsAvailable key
  promise past := ∀ m ∈ past, m.request.SparesAvailable

theorem availability_stable {ι : Type} (v : Vendors σ) (key : Key) :
    Terms.Stable (fun _ : ι => availability key) (World.handler v)
      (World.Elsewhere .model key) where
  others _ _ _ _ h helsewhere := h.congr helsewhere
  own _ _ _ _ h hpromise := World.showsAvailable_answer v (hpromise _ (List.mem_cons_self ..)) h
  beside _ _ _ _ _ _ _ h _ hpromise :=
    World.showsAvailable_answer v (hpromise _ (List.mem_cons_self ..)) h

theorem promise_cons {past : List (Moment (World σ))} {r : Request} {w : World σ}
    (hr : r.SparesAvailable) (hpast : (availability key).promise past) :
    (availability key).promise ((World.handler v).moment r w :: past) :=
  List.forall_mem_cons.2 ⟨hr, hpast⟩

/-- Whether a program keeps what a pass owes. -/
abbrev Sparing {δ α : Type} (v : Vendors σ) (key : Key) (p : Attempt δ α) : Prop :=
  p.Keeps (.amid (World.handler v) (availability key)) (availability key).promise

theorem ask_sparing {r : Request} (hr : r.SparesAvailable) :
    (Program.ask r).Keeps (.amid (World.handler v) (availability key))
      (availability key).promise :=
  fun _ hpast _ _ => ⟨promise_cons hr hpast, promise_cons hr hpast⟩

theorem amid_spares (v : Vendors σ) (key : Key) :
    (Meaning.amid (World.handler v) (availability key)).Spares (availability key).promise where
  monotone := Meaning.amid_monotone _ _
  ask _ hr := ask_sparing (Request.sparesAvailable_of_not_writes hr)

theorem sparing_write {half : Half} {o : Object .model} (ho : half = .status → o.IsAvailable) :
    Sparing v key (half.write o) := by
  cases half with
  | body => exact ask_sparing trivial
  | status => exact ask_sparing (ho rfl)

variable {half : Half} {home : Key} {change : Change .model}

/-- The status is changed where it was read. -/
theorem sparing_attempt (hchange : half = .status → home = key ∧ change.KeepsAvailable)
    {onConflict : AccessError → Program (Except AccessError (Object .model))}
    (hconflict : ∀ e, Sparing v key (.of (onConflict e))) :
    Sparing v key (.of (amend.attempt half .model home change onConflict)) := by
  intro past hpast
  rw [Attempt.outcome, Attempt.of, amend.wp_attempt]
  -- the read
  intro w hw
  have hgot : (availability key).promise ((World.handler v).moment (.get .model home) w :: past) :=
    promise_cons trivial hpast
  refine ⟨hgot, ?_⟩
  have hanswer : ((World.handler v).answer (.get .model home) w).1 = w.cluster.get .model home :=
    rfl
  rw [hanswer]
  cases hget : w.cluster.get .model home with
  | error e => exact hgot
  | ok copy =>
    obtain ⟨stored, hs, rfl⟩ := Cluster.stored_of_get hget
    -- the look at the clock
    intro w' _
    have hlooked : (availability key).promise ((World.handler v).moment .now w' ::
        (World.handler v).moment (.get .model home) w :: past) := promise_cons trivial hgot
    have hclock : ((World.handler v).answer .now w').1 = w'.clock := rfl
    refine ⟨hlooked, ?_⟩
    simp only [hclock]
    -- the write, if there is anything to write
    split
    · have hwrite : Sparing v key (half.write (change w'.clock stored.settled).1) := by
        refine sparing_write fun hhalf => ?_
        obtain ⟨rfl, hkeeps⟩ := hchange hhalf
        exact hkeeps _ _ (hw stored hs)
      exact Program.wp_mono (Meaning.amid_monotone _ _)
        (fun answer _ hpast => amend.unlessConflict_of hconflict answer hpast) _
        (hwrite _ hlooked)
    · exact hlooked

theorem sparing_amend {attempts : Nat}
    (hchange : half = .status → home = key ∧ change.KeepsAvailable) :
    Sparing v key (amend half .model home attempts change) := by
  unfold amend
  induction attempts - 1 with
  | zero => exact sparing_attempt hchange fun e _ hpast => hpast
  | succ retries ih => exact sparing_attempt hchange fun _ => ih

theorem keepsAvailable_of_makes {change : Change .model}
    (h : Worked.model.Makes .status change) : change.KeepsAvailable := by
  cases h with
  | markProgressing => exact markProgressing_keepsAvailable
  | markFailed message => exact markFailed_keepsAvailable message
  | markAvailable n => exact markAvailable_keepsAvailable n

theorem permits_sparing (v : Vendors σ) (key : Key) :
    Worked.model.Permits key (fun _ => True) fun _ p =>
      p.Keeps (.amid (World.handler v) (availability key)) (availability key).promise where
  toReporting := (amid_spares v key).hushed.reporting
  label hllm := by cases hllm
  record _ hmakes _ := sparing_amend fun _ => ⟨rfl, keepsAvailable_of_makes hmakes⟩
  look _ p := ask_sparing trivial
  make _ p source :=
    (amid_spares v key).ask (.create p.kind _) (Worked.model.kind_ne_part p).symm
  check hllm := by cases hllm
  send hprompt := by cases hprompt
  read next hnext := (amid_spares v key).hushed.reporting.bind (ask_sparing trivial)
    fun answer => hnext answer fun _ _ => trivial
  addFinalizer _ _ _ := sparing_amend fun hhalf => by cases hhalf
  removeFinalizer _ _ _ := sparing_amend fun hhalf => by cases hhalf

theorem sparing_reconcile :
    (reconcile .model settings key).Keeps (.amid (World.handler v) (availability key))
      (availability key).promise :=
  (permits_sparing v key).reconcile

end Pass.Model

/-! ### The last look of a pass -/

namespace ImageStore

/-- Whether an exchange found that the set or the service of an image store is not there, or is not
ready. -/
def findsUnready (ns : String) : Exchange → Bool
  | ⟨.get .statefulSet key, .ok set⟩ => key = statefulSetKey ns && !isStatefulSetReady set
  | ⟨.get .statefulSet key, .error e⟩ => key = statefulSetKey ns && e.isNotFound
  | ⟨.get .service key, .ok service⟩ => key = serviceKey ns && !isServiceReady service
  | ⟨.get .service key, .error e⟩ => key = serviceKey ns && e.isNotFound
  | _ => false

/-- Whether the last that was done, but for reports, found the image store not ready.  The last
exchange comes first. -/
def foundUnready (ns : String) : List Exchange → Bool
  | [] => false
  | ⟨.emit _, _⟩ :: past => foundUnready ns past
  | x :: _ => findsUnready ns x

end ImageStore

namespace Pass.Model

open ImageStore

variable {σ : Type} {settings : Settings} {key : Key} {ns : String} {past : List Exchange}

/-- Whether no model was written. -/
def Untouched (past : List Exchange) : Prop := ∀ x ∈ past, ¬ x.request.Writes .model

theorem noting_spares : Meaning.noting.Spares Untouched where
  monotone := Meaning.noting_monotone
  ask _ hr _ hpast _ := List.forall_mem_cons.2 ⟨hr, hpast⟩

theorem wp_write_last (ns : String) (half : Half) (o : Object .model) :
    (half.write o).wp .noting (fun _ past => ¬ foundUnready ns past) past := by
  cases half <;> exact fun _ => nofun

/-- An amendment ends with a look at the model or at the clock, or with a write. -/
theorem wp_attempt_last {half : Half} {home : Key} {change : Change .model}
    {onConflict : AccessError → Program (Except AccessError (Object .model))}
    (hconflict : ∀ e past, ¬ foundUnready ns past →
      (onConflict e).wp .noting (fun _ past => ¬ foundUnready ns past) past) :
    (amend.attempt half .model home change onConflict).wp .noting
      (fun _ past => ¬ foundUnready ns past) past := by
  rw [amend.wp_attempt]
  intro answer
  cases answer with
  | error e => exact nofun
  | ok copy =>
    intro now
    split
    · exact Attempt.wp_mono Meaning.noting_monotone
        (fun answer _ hpast => amend.unlessConflict_of hconflict answer hpast) _
        (wp_write_last ns half _)
    · exact nofun

theorem wp_amend_last (ns : String) {half : Half} {home : Key} {attempts : Nat}
    {change : Change .model} :
    (amend half .model home attempts change).wp .noting (fun _ past => ¬ foundUnready ns past)
      past := by
  unfold amend
  rw [Attempt.wp_of]
  induction attempts - 1 generalizing past with
  | zero => exact wp_attempt_last fun _ _ hpast => hpast
  | succ retries ih => exact wp_attempt_last fun _ _ _ => ih

theorem wp_persist_last (ns : String) {change : Change .model}
    {post : Except AccessError Unit → List Exchange → Prop}
    (hpost : ∀ r past, ¬ foundUnready ns past → post r past) :
    (persist settings key change).wp .noting post past := by
  unfold persist
  rw [Attempt.wp_bind]
  refine Attempt.wp_mono Meaning.noting_monotone (fun r past hpast => ?_) _ (wp_amend_last ns)
  cases r with
  | ok o => exact hpost _ past hpast
  | error e => exact hpost _ past hpast

/-- How the chain can end: with a wish to be called again soon before any model was written, or
with another last look. -/
def EndsChain (settings : Settings) (ns : String) :
    Except Failure Unit → List Exchange → Prop
  | .ok (), past => ¬ foundUnready ns past
  | .error e, past => e.IsWish → e = .requeueAfter settings.intervals.short ∧ Untouched past

theorem wp_chain_ends (ns : String) (i : Input) (hpast : Untouched past) :
    Attempt.wp .noting (EndsChain i.settings ns) (Chain.run i chain) past := by
  refine noting_spares.wp_chain hpast (fun e past _ hnot hwish => absurd hwish hnot)
    (fun past hpast _ => ⟨rfl, hpast⟩) fun set past _ => ?_
  unfold publish access
  rw [Attempt.wp_bind, Attempt.wp_mapError]
  refine wp_persist_last ns fun r past hpast => ?_
  cases r with
  | error e => exact False.elim
  | ok _ =>
    show Attempt.wp _ _ (if _ then _ else _) past
    split
    · exact fun _ => hpast
    · exact hpast

/-- What a pass has done if its last look found the image store not ready. -/
def EndsPass (settings : Settings) (ns : String) {α : Type} (r : Except Failure α)
    (past : List Exchange) : Prop :=
  foundUnready ns past →
    r = .error (.requeueAfter settings.intervals.short) ∧ Untouched past

theorem wp_work_ends (ns : String) (o : Object .model) (hpast : Untouched past) :
    (work settings key o).wp .noting (EndsPass settings ns) past := by
  unfold work access
  rw [Attempt.wp_ite]
  split
  · rw [Attempt.wp_bind, Attempt.wp_mapError]
    refine wp_persist_last ns fun r past hpast => ?_
    cases r with
    | error e => exact fun hfound => absurd hfound hpast
    | ok _ => exact fun _ hfound => absurd hfound hpast
  · rw [Attempt.wp_bind, Attempt.wp_always]
    refine Attempt.wp_mono Meaning.noting_monotone (fun r past hends => ?_) _
      (wp_chain_ends ns ⟨settings, key, o⟩ hpast)
    match r with
    | .ok () => exact fun hfound => absurd hfound hends
    | .error e =>
      cases e with
      | requeueAfter d =>
        obtain ⟨hshort, hpast⟩ := hends trivial
        cases hshort
        exact fun _ => ⟨rfl, hpast⟩
      | _ =>
        -- the failure is recorded
        show Attempt.wp _ _ (Attempt.always _ >>= _) _
        rw [Attempt.wp_bind, Attempt.wp_always]
        exact wp_persist_last ns fun _ _ hpast hfound => absurd hfound hpast

theorem wp_advance_last (ns : String) {o : Object .model} {finalizer : String} {attempts : Nat}
    {post : Except AccessError (Option Directive) → List Exchange → Prop}
    (hpast : ¬ foundUnready ns past) (hactive : post (.ok none) past)
    (hpost : ∀ r past, r ≠ .ok none → ¬ foundUnready ns past → post r past) :
    (advance o finalizer attempts).wp .noting post past := by
  unfold advance
  simp only
  -- an amendment of the model looks at no part of the image store
  split
  · unfold addFinalizer
    rw [Attempt.wp_bind]
    refine Attempt.wp_mono Meaning.noting_monotone (fun r past hpast => ?_) _ (wp_amend_last ns)
    cases r <;> exact hpost _ past nofun hpast
  · unfold removeFinalizer
    rw [Attempt.wp_bind, Attempt.wp_of, Program.wp_bind']
    refine Attempt.wp_mono Meaning.noting_monotone (fun r past hpast => ?_)
      (amend .body .model _ attempts fun _ => Object.removeFinalizer finalizer) (wp_amend_last ns)
    cases r with
    | ok o => exact hpost _ past nofun hpast
    | error e => cases e <;> exact hpost _ past nofun hpast
  · exact hpost _ past nofun hpast
  · exact hactive

theorem wp_run_ends (settings : Settings) (key : Key) (ns : String) :
    (run settings key).wp .noting (EndsPass settings ns) [] := by
  unfold run frame access
  simp only [Attempt.wp_bind, Attempt.wp_mapError, Objects.find?, Attempt.wp_of,
    Program.wp_bind', Program.ask, Program.wp_step, Program.wp_done]
  intro answer
  cases answer with
  | error e => cases e <;> exact fun hfound => nomatch hfound
  | ok o =>
    -- so far the model was read, and that is all
    have hpast : ¬ foundUnready ns [⟨.get .model key, .ok o⟩] := nofun
    simp only [Program.wp_pure, Attempt.mapError_ok, Attempt.unlessFailed_ok, Attempt.wp_bind,
      Attempt.wp_mapError]
    refine wp_advance_last ns hpast ?_ fun r past hr hpast => ?_
    · exact wp_work_ends ns o (List.forall_mem_cons.2 ⟨id, by simp⟩)
    · match r with
      | .error e => exact fun hfound => absurd hfound hpast
      | .ok (some d) => exact fun hfound => absurd hfound hpast

theorem wp_reconcile_ends (settings : Settings) (key : Key) :
    (reconcile .model settings key).wp .noting
      (fun r past => foundUnready key.ns past →
        r = .ok (.after settings.intervals.short) ∧ Untouched past) [] := by
  unfold reconcile
  rw [Program.wp_bind']
  refine Attempt.wp_mono Meaning.noting_monotone (fun r past hends hfound => ?_) _
    (wp_run_ends settings key key.ns)
  obtain ⟨rfl, hpast⟩ := hends hfound
  exact ⟨rfl, hpast⟩

/-- A model that is available stays so.  In every run of any number of passes over one model in
turns, with others acting in between who leave the model alone:

* if the model says at first that it is available, then it does so at any time, as long as it is
  there;
* a pass that has ended, and whose last look found the image store not ready, has asked to be called
  again after the short interval, and none of its requests has changed any model. -/
theorem availability_stays {ι : Type} [DecidableEq ι] (v : Vendors σ) (settings : Settings)
    (key : Key) {w₀ w : World σ} {past : List (ι × Moment (World σ))}
    {programs : ι → Program (Except Failure Directive)}
    (run : Turns (World.handler v) (World.Elsewhere .model key)
      (fun _ => reconcile .model settings key) w₀ past w programs) :
    (w₀.cluster.ShowsAvailable key → w.cluster.ShowsAvailable key) ∧
      ∀ i r, programs i = .done r →
        foundUnready key.ns ((Turns.of i past).map Moment.toExchange) →
        r = .ok (.after settings.intervals.short) ∧
          ∀ m ∈ Turns.of i past, ∀ home,
            ((World.handler v).answer m.request m.before).2.cluster.stored? .model home =
              m.before.cluster.stored? .model home := by
  constructor
  · intro havailable
    cases isEmpty_or_nonempty ι with
    | inl hnone =>
      -- there are only the others
      induction run with
      | start => exact havailable
      | own i => exact hnone.elim i
      | others _ hothers ih => exact ih.congr hothers
    | inr hsome =>
      obtain ⟨hpossible, -⟩ := run.keeps (availability_stable v key) (fun _ => havailable)
        (fun _ => by simp [availability]) (fun _ => sparing_reconcile _ (by simp [availability]))
        hsome.some
      exact hpossible
  · intro i r hdone hfound
    have hends := run.of_wp_noting (fun _ => wp_reconcile_ends settings key) i
    rw [hdone] at hends
    obtain ⟨hr, huntouched⟩ := hends hfound
    refine ⟨hr, fun m hm home => ?_⟩
    exact World.stored_answer v (huntouched _ (List.mem_map_of_mem hm)) m.before home

/-- A model that is active and available. -/
def availableModel (key : Key) : Object .model where
  metadata :=
    { name := some key.name, ns := some key.ns, finalizers := some [Kind.model.finalizer] }
  spec := {}
  status := some { conditions := [{ type := .available, status := .isTrue }] }

/-- A cluster with a model that is available and the parts of its image store. -/
def furnished (key : Key) : Cluster :=
  let set := statefulSet key.ns (.forModel {} {})
  (((Cluster.empty.store key (availableModel key)).store (claimKey key.ns)
    (claim key.ns (.forModel {} {}))).store (statefulSetKey key.ns) set).store (serviceKey key.ns)
      (service key.ns set)

/-- The image store is all there, but no pod of it is ready. -/
theorem availability_stays_unready :
    let key : Key := ⟨"default", "m"⟩
    let w₀ : World Unit := { cluster := furnished key, vendors := () }
    w₀.cluster.ShowsAvailable key ∧
      ∃ past w programs,
        Turns (World.handler .unreachable) (World.Elsewhere .model key)
          (fun _ : Unit => reconcile .model {} key) w₀ past w programs ∧
        foundUnready key.ns ((Turns.of () past).map Moment.toExchange) ∧
        programs () = .done (.ok (.after ⟨3, 0⟩)) ∧
        ∃ o, w.cluster.stored? .model key = some o ∧ o.IsAvailable := by
  intro key w₀
  have havailable : w₀.cluster.ShowsAvailable key := by
    have hall : (w₀.cluster.stored? .model key).all (fun o =>
        ((o.status.getD {}).conditions.get .available).isTrue) = true := by decide +kernel
    exact (Option.all_eq_true _ _).1 hall
  have hstart : Turns (World.handler .unreachable) (World.Elsewhere .model key)
      (fun _ : Unit => reconcile .model {} key) w₀ [] w₀ (fun _ => reconcile .model {} key) :=
    .start
  obtain ⟨past, hpast, -, run⟩ := hstart.finish_exchanges ()
  have hfound : foundUnready key.ns ((Turns.of () past).map Moment.toExchange) = true := by
    rw [hpast]
    decide +kernel
  obtain ⟨o, ho⟩ := Option.isSome_iff_exists.1 (show
    (((reconcile .model {} key).run (World.handler .unreachable) w₀).2.cluster.stored? .model
      key).isSome by decide +kernel)
  obtain ⟨hstays, hwaits⟩ := availability_stays .unreachable {} key run
  obtain ⟨hshort, -⟩ := hwaits () _ (Function.update_self ..) hfound
  refine ⟨havailable, past, _, _, run, hfound, ?_, o, ho, hstays havailable o ho⟩
  rw [Function.update_self, hshort]

end Pass.Model

end ModelKeeper

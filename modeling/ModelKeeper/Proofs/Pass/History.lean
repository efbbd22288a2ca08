import Mathlib.Control.Monad.Basic
import ModelKeeper.Proofs.Pass.Alone

/-!
# What the `Ready` condition tells of past checks

A language model is checked by one pass after another, and each check is recorded in the `Ready`
condition.  The condition does not list the checks, and is not written anew while the outcome stays
the same.  Still it is a function of all of them (`Checks.ready?`): it says what the last one came
to, when that began to be so, and when the last series of identical successes began.

`Pass.Llm.ready_tells_history` says so of every sequence of passes over an active language model,
whatever others do in between as long as they leave its status alone.
-/

namespace ModelKeeper

/-! ### Histories -/

/-- A check of a language model: what it came to, and when it was. -/
structure Check where
  outcome : Except String String
  time : Instant

namespace Check

/-- The status that the `Ready` condition gets. -/
def status (x : Check) : ConditionStatus :=
  match x.outcome with
  | .ok _ => .isTrue
  | .error _ => .isFalse

/-- What the language model, or the failure, had to say. -/
def message (x : Check) : String :=
  match x.outcome with
  | .ok message => message
  | .error message => message

/-- Whether the check failed. -/
def failed (x : Check) : Bool :=
  match x.outcome with
  | .ok _ => false
  | .error _ => true

/-- The `Ready` condition after a check. -/
def next (x : Check) (c : Condition) : Condition :=
  match x.outcome with
  | .ok message => c.succeeded message x.time
  | .error message => c.failed message x.time

theorem next_type (x : Check) (c : Condition) : (x.next c).type = .ready := by
  unfold next
  split
  · exact c.succeeded_type _ _
  · exact c.failed_type _ _

end Check

/-- Checks, the last one first. -/
abbrev Checks : Type := List Check

namespace Checks

/-- The first check of the last series of checks with identical outcomes. -/
def seriesStart? : Checks → Option Check
  | [] => none
  | x :: past => ((x :: past).takeWhile (fun y => y.outcome = x.outcome)).getLast?

/-- The first check of the last series of identical successes. -/
def successStart? (past : Checks) : Option Check :=
  seriesStart? (past.dropWhile Check.failed)

/-- The `Ready` condition that tells of these checks. -/
def ready? : Checks → Option Condition
  | [] => none
  | x :: past => some
    { type := .ready
      status := x.status
      reason := Reason.available
      message := x.message
      lastTransition := (seriesStart? (x :: past)).map (·.time.timestamp)
      lastSuccess := (successStart? (x :: past)).map (·.time.timestamp) }

/-- A check continues the last series, or it begins another one. -/
theorem seriesStart?_cons (x y : Check) (past : Checks) :
    seriesStart? (x :: y :: past) =
      if y.outcome = x.outcome then seriesStart? (y :: past) else some x := by
  simp only [seriesStart?]
  by_cases hsame : y.outcome = x.outcome
  · simp [hsame]
  · simp [hsame]

theorem seriesStart?_singleton (x : Check) : seriesStart? [x] = some x := by
  simp [seriesStart?]

theorem successStart?_cons (x : Check) (past : Checks) :
    successStart? (x :: past) =
      if x.failed then successStart? past else seriesStart? (x :: past) := by
  unfold successStart?
  cases hfailed : x.failed <;> simp [hfailed]

theorem ready?_type {past : Checks} {c : Condition} (h : past.ready? = some c) :
    c.type = .ready := by
  cases past with
  | nil => cases h
  | cons x past => rw [← Option.some.inj h]

/-- The condition is brought up to date by the last check alone. -/
theorem ready?_cons (x : Check) (past : Checks) :
    ready? (x :: past) = some (x.next ((ready? past).getD {})) := by
  obtain ⟨outcome, time⟩ := x
  cases past with
  | nil =>
    -- a blank condition records nothing
    have hnil : successStart? [] = none := rfl
    cases outcome <;>
      simp [ready?, seriesStart?_singleton, successStart?_cons, hnil, Check.next, Check.status,
        Check.message, Check.failed, Condition.succeeded, Condition.failed]
  | cons y past =>
    obtain ⟨outcome', time'⟩ := y
    by_cases hsame : outcome' = outcome
    · -- the present condition records the same outcome
      subst hsame
      cases outcome' <;>
        simp [ready?, seriesStart?_cons, successStart?_cons, Check.next, Check.status,
          Check.message, Check.failed, Condition.succeeded, Condition.failed]
    · -- it records another one
      cases outcome <;> cases outcome' <;>
        simp_all [ready?, seriesStart?_cons, successStart?_cons, Check.next, Check.status,
          Check.message, Check.failed, Condition.succeeded, Condition.failed]

end Checks

/-! ### Conditions of other types -/

namespace Conditions

/-- A condition comes after the others, or in the place of the one of its type after the others. -/
theorem set_append {cs : Conditions} {new : Condition} {present : Option Condition}
    (hnone : cs.has new.type = false) (hpresent : ∀ c, present = some c → c.type = new.type) :
    set new (cs ++ present.toList) = cs ++ [new] := by
  induction cs with
  | nil =>
    cases present with
    | none => rfl
    | some c => simp [set, hpresent c rfl]
  | cons c cs ih =>
    have hc : c.type ≠ new.type := fun heq => by simp [has, find?, heq] at hnone
    have hcs : has cs new.type = false := by simpa [has, find?, hc] using hnone
    rw [List.cons_append, set, if_neg hc, ih hcs, List.cons_append]

theorem get_append {cs : Conditions} {type : ConditionType} {present : Option Condition}
    (hnone : cs.has type = false) (hpresent : ∀ c, present = some c → c.type = type) :
    get (cs ++ present.toList) type = present.getD {} := by
  have hfind : List.find? (fun c => c.type = type) cs = none := by
    simpa [has, find?] using hnone
  unfold get find?
  rw [List.find?_append, hfind, Option.none_or]
  cases present with
  | none => rfl
  | some c => simp [hpresent c rfl]

end Conditions

namespace Pass.Llm

variable {σ : Type} {v : Vendors σ} {key : Key} {w₀ w : World σ}

/-- What the check of a language model comes to. -/
def checked (v : Vendors σ) (w : World σ) (o : Object .llm) : Except Failure String :=
  ((check o.settled).outcome.run (World.handler v) w).1

/-- What a language model that is stored under a key can have come to by passes that check it, each
under settings and at a time of its own, and by others who leave its status alone.  If the outcome
of a check is news then there are enough attempts to write it. -/
inductive History (v : Vendors σ) (key : Key) (w₀ : World σ) : Checks → World σ → Prop
  | start : History v key w₀ [] w₀
  | pass {past : Checks} {w : World σ} {o : Object .llm} {settings : Settings} :
    History v key w₀ past w → w.cluster.stored? .llm key = some o → o.IsAt key →
    Lifecycle.of o Kind.llm.finalizer = .active → Labelled o →
    (¬ Settled (checked v w o) o →
      w.cluster.injectedConflicts < max settings.writeAttempts 1) →
    History v key w₀ (⟨(checked v w o).mapError Failure.conditionMessage, w.clock⟩ :: past)
      ((reconcile .llm settings key).run (World.handler v) w).2
  | others {past : Checks} {w w' : World σ} :
    History v key w₀ past w →
    (w'.cluster.stored? .llm key).map Object.status =
      (w.cluster.stored? .llm key).map Object.status →
    History v key w₀ past w'

theorem next_eq (outcome : Except Failure String) (now : Instant) (c : Condition) :
    next outcome now c = (Check.mk (outcome.mapError Failure.conditionMessage) now).next c := by
  cases outcome <;> rfl

/-- The status after checks: the conditions that were there before, and then the `Ready` condition.
-/
def statusAfter (before : Option LlmStatus) : Checks → Option LlmStatus
  | [] => before
  | x :: past =>
    some { conditions := (before.getD {}).conditions ++ (Checks.ready? (x :: past)).toList }

variable {before : Option LlmStatus} {past : Checks} {o : Object .llm}

theorem conditions_statusAfter (before : Option LlmStatus) (past : Checks) :
    ((statusAfter before past).getD {}).conditions =
      (before.getD {}).conditions ++ past.ready?.toList := by
  cases past with
  | nil => simp [statusAfter, Checks.ready?]
  | cons x past => rfl

section Step

variable (hnone : (before.getD {}).conditions.has .ready = false)
  (hstatus : o.status = statusAfter before past)
include hnone hstatus

theorem get_ready : (o.status.getD {}).conditions.get .ready = past.ready?.getD {} := by
  rw [hstatus, conditions_statusAfter]
  exact Conditions.get_append hnone fun _ => Checks.ready?_type

/-- An outcome that is recorded already is that of the last check too. -/
theorem statusAfter_of_settled {outcome : Except Failure String} (hsettled : Settled outcome o)
    (now : Instant) :
    o.status = statusAfter before (⟨outcome.mapError Failure.conditionMessage, now⟩ :: past) := by
  have hsame := hsettled now
  rw [get_ready hnone hstatus, next_eq] at hsame
  cases past with
  | nil =>
    -- a blank condition records nothing
    have htype := congrArg Condition.type hsame
    rw [Check.next_type] at htype
    cases htype
  | cons x past =>
    have hready : Checks.ready? (⟨outcome.mapError Failure.conditionMessage, now⟩ :: x :: past) =
        Checks.ready? (x :: past) := by
      rw [Checks.ready?_cons, hsame]
      rfl
    rw [hstatus, statusAfter, statusAfter, hready]

/-- Any other outcome is recorded in the `Ready` condition. -/
theorem statusAfter_of_recorded {outcome : Except Failure String} {now : Instant}
    (hflag : (recordReady (next outcome now) o).2 = true) :
    (recordReady (next outcome now) o).1.status =
      statusAfter before (⟨outcome.mapError Failure.conditionMessage, now⟩ :: past) := by
  have hready := get_ready hnone hstatus
  have hrecord : (recordReady (next outcome now) o).1.status =
      some ⟨(o.status.getD {}).conditions.set
        (next outcome now ((o.status.getD {}).conditions.get .ready))⟩ := by
    unfold recordReady at hflag ⊢
    simp only at hflag ⊢
    split at hflag
    · cases hflag
    · next hne => rw [if_neg hne]
  have htype := Check.next_type ⟨outcome.mapError Failure.conditionMessage, now⟩
    (past.ready?.getD {})
  rw [hrecord, hready, next_eq, hstatus, conditions_statusAfter, statusAfter, Checks.ready?_cons,
    Conditions.set_append (htype ▸ hnone) fun c hc => (Checks.ready?_type hc).trans htype.symm]
  rfl

/-- A pass that checks the language model records the check. -/
theorem status_pass {w : World σ} {settings : Settings}
    (hs : w.cluster.stored? .llm key = some o) (hplace : o.IsAt key)
    (hactive : Lifecycle.of o Kind.llm.finalizer = .active) (hlabel : Labelled o)
    (henough : ¬ Settled (checked v w o) o →
      w.cluster.injectedConflicts < max settings.writeAttempts 1) :
    ∃ o', ((reconcile .llm settings key).run (World.handler v) w).2.cluster.stored? .llm key =
        some o' ∧
      o'.status = statusAfter before
        (⟨(checked v w o).mapError Failure.conditionMessage, w.clock⟩ :: past) := by
  have hcluster := (check_alone v o.settled w).1
  have hflag : ¬ Settled (checked v w o) o →
      (recordReady (next (checked v w o) w.clock) o).2 = true := by
    intro hnot
    rw [← Bool.not_eq_false]
    exact fun hflag => hnot (recordReady_eq_false.1 hflag)
  refine reconcile_of_run (w := .llm)
    (fun _ (w' : World σ) => ∃ o', w'.cluster.stored? .llm key = some o' ∧
      o'.status = statusAfter before
        (⟨(checked v w o).mapError Failure.conditionMessage, w.clock⟩ :: past)) ?_
  -- the outcome is shown already, or recorded after fewer conflicts than attempts
  refine wp_run_alone hs hplace hactive hlabel (Prod.ext rfl rfl) (fun hsettled => ?_)
    (fun hnot hlt => ?_) fun hnot hle => ?_
  · exact ⟨o, by rw [hcluster, hs], statusAfter_of_settled hnone hstatus hsettled w.clock⟩
  · exact ⟨_, Cluster.stored?_withStatus .., statusAfter_of_recorded hnone hstatus (hflag hnot)⟩
  · have hlt := henough hnot
    rw [hcluster] at hle
    omega

end Step

/-- The `Ready` condition tells the history of the checks.  A language model without such a
condition is checked any number of times, by passes in a world of their own, and meanwhile others
leave its status alone.  After the first check the conditions are those that were there before, as
they were, and one `Ready` condition after them:

* its status and message are those of the last check, and its reason is `Available`;
* its last transition was at the first check of the last series of identical outcomes;
* its last success was at the first check of the last series of identical successes, if any check
  succeeded. -/
theorem ready_tells_history (v : Vendors σ) (key : Key) {past : Checks} {o₀ : Object .llm}
    (hs : w₀.cluster.stored? .llm key = some o₀)
    (hnone : (o₀.status.getD {}).conditions.has .ready = false)
    (history : History v key w₀ past w) :
    ∃ o, w.cluster.stored? .llm key = some o ∧
      (past = [] → o.status = o₀.status) ∧
      ∀ x earlier, past = x :: earlier →
        ∃ c, o.status = some { conditions := (o₀.status.getD {}).conditions ++ [c] } ∧
          c.type = .ready ∧ c.reason = Reason.available ∧
          c.status = x.status ∧ c.message = x.message ∧
          c.lastTransition = past.seriesStart?.map (·.time.timestamp) ∧
          c.lastSuccess = past.successStart?.map (·.time.timestamp) := by
  have hinvariant : ∃ o, w.cluster.stored? .llm key = some o ∧
      o.status = statusAfter o₀.status past := by
    induction history with
    | start => exact ⟨o₀, hs, rfl⟩
    | pass _ hs' hplace hactive hlabel henough ih =>
      obtain ⟨o, ho, hstatus⟩ := ih
      obtain rfl := Option.some.inj (hs'.symm.trans ho)
      exact status_pass hnone hstatus hs' hplace hactive hlabel henough
    | others _ hsame ih =>
      obtain ⟨o, ho, hstatus⟩ := ih
      rw [ho, Option.map_some] at hsame
      obtain ⟨o', ho', hstatus'⟩ := Option.map_eq_some_iff.1 hsame
      exact ⟨o', ho', hstatus'.trans hstatus⟩
  obtain ⟨o, ho, hstatus⟩ := hinvariant
  refine ⟨o, ho, ?_, ?_⟩
  · rintro rfl
    exact hstatus
  · rintro x earlier rfl
    exact ⟨_, hstatus, rfl, rfl, rfl, rfl, rfl, rfl⟩

instance (o : Object .llm) : Decidable (Labelled o) := inferInstanceAs (Decidable (_ = _))

/-- A language model that is active and labelled, and has no provider. -/
def unprovided (key : Key) : Object .llm where
  metadata :=
    { name := some key.name
      ns := some key.ns
      finalizers := some [Kind.llm.finalizer]
      labels := some (SortedMap.empty.insert providerLabel ProviderType.unknown.name) }
  spec := {}

/-- Two checks with the same failure, of which the second one writes nothing. -/
theorem ready_tells_history_unprovided :
    let key : Key := ⟨"default", "m"⟩
    let w₀ : World Unit := { cluster := Cluster.empty.store key (unprovided key), vendors := () }
    let w₁ := ((reconcile .llm {} key).run (World.handler .unreachable) w₀).2
    let w₂ : World Unit := { w₁ with clock := ⟨1700000060, 0⟩ }
    let w := ((reconcile .llm {} key).run (World.handler .unreachable) w₂).2
    ((unprovided key).status.getD {}).conditions.has .ready = false ∧
      ∃ o c, w.cluster.stored? .llm key = some o ∧ o.status = some { conditions := [c] } ∧
        c.status = .isFalse ∧ c.message = ProviderError.missing.message ∧
        c.lastTransition = some (w₀.clock.timestamp) ∧ c.lastSuccess = none := by
  intro key w₀ w₁ w₂ w
  have hs : w₀.cluster.stored? .llm key = some (unprovided key) := Cluster.stored?_store_self ..
  have hnone : ((unprovided key).status.getD {}).conditions.has .ready = false := rfl
  have hfirst : History .unreachable key w₀ [⟨.error ProviderError.missing.message, w₀.clock⟩] w₁ :=
    .pass .start hs ⟨rfl, rfl⟩ (by decide) (by decide +kernel) fun _ => by decide
  have hclock : History .unreachable key w₀ [⟨.error ProviderError.missing.message, w₀.clock⟩] w₂ :=
    .others hfirst rfl
  -- the language model as the first pass left it
  have hstored : (w₂.cluster.stored? .llm key).any (fun o : Object .llm =>
      decide (o.metadata.ns = some key.ns) && decide (o.metadata.name = some key.name) &&
        decide (Lifecycle.of o Kind.llm.finalizer = .active) && decide (Labelled o) &&
        decide (checked .unreachable w₂ o = .error (.provider .missing))) = true := by
    decide +kernel
  obtain ⟨o₂, hs₂, hall⟩ := (Option.any_eq_true ..).1 hstored
  simp only [Bool.and_eq_true, decide_eq_true_eq] at hall
  obtain ⟨⟨⟨⟨hns, hname⟩, hactive⟩, hlabel⟩, hchecked⟩ := hall
  have hsecond : History .unreachable key w₀ _ w :=
    .pass hclock hs₂ ⟨hns, hname⟩ hactive hlabel fun _ => by decide +kernel
  obtain ⟨o, ho, -, htells⟩ := ready_tells_history .unreachable key hs hnone hsecond
  obtain ⟨c, hstatus, -, -, hfalse, hmessage, htransition, hsuccess⟩ := htells _ _ rfl
  rw [hchecked] at hfalse hmessage htransition hsuccess
  refine ⟨hnone, o, c, ho, hstatus, hfalse, hmessage, ?_, ?_⟩
  · rw [htransition]
    rfl
  · rw [hsuccess]
    rfl

end Pass.Llm

end ModelKeeper

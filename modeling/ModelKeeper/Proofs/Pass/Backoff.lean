import ModelKeeper.Proofs.Operator.Settings
import ModelKeeper.Proofs.Pass.Failures

/-!
# How long a failing pass waits

Whatever a pass fails with, it waits for the medium interval or is no more than a wish
(`Failure.BacksOff`): an access that fails has no delay of its own, and every other failure is given
this interval.  So says `Pass.run_patient` of the passes over all kinds, whoever answers.

The interval is what a variable sets, and zero is as good a number of seconds as others.  So a
failing pass waits at all exactly if the variable does not spell zero
(`Pass.backoff_positive_iff`).
-/

namespace ModelKeeper

/-! ### What attempts fail with

To be tried again after some time is no property that programs have if their parts do: the parts
fail with errors of their own, which are given their delay on the way out.
-/

/-- The result of a program after which nothing more is asked. -/
theorem Program.run_bind_done {σ α β : Type} (h : Handler σ) (p : Program α) (f : α → β) (s : σ) :
    ((p.bind fun a => .done (f a)).run h s).1 = f (p.run h s).1 :=
  congrArg Prod.fst (run_bind h p (fun a => .done (f a)) s)

/-- Whether a failing attempt fails only so, under a handler. -/
def Attempt.FailsOnly {σ δ α : Type} (h : Handler σ) (q : δ → Prop) (p : Attempt δ α) : Prop :=
  ∀ s err, (p.outcome.run h s).1 = .error err → q err

namespace Attempt.FailsOnly

variable {σ δ δ' α β : Type} {h : Handler σ} {q : δ → Prop}

theorem pure (a : α) : (Pure.pure a : Attempt δ α).FailsOnly h q := fun _ _ heq => nomatch heq

theorem throw {err : δ} (herr : q err) : (MonadExcept.throw err : Attempt δ α).FailsOnly h q :=
  fun _ _ heq => Except.error.inj heq ▸ herr

theorem bind {p : Attempt δ α} {f : α → Attempt δ β} (hp : p.FailsOnly h q)
    (hf : ∀ a, (f a).FailsOnly h q) : (p >>= f).FailsOnly h q := by
  intro s err heq
  have hrun := Program.run_bind h p.outcome (ExceptT.bindCont f) s
  have heq' := (congrArg Prod.fst hrun).symm.trans heq
  cases hfirst : (p.outcome.run h s).1 with
  | ok a =>
    rw [hfirst] at heq'
    exact hf a _ err heq'
  | error err' =>
    rw [hfirst] at heq'
    exact Except.error.inj heq' ▸ hp s err' hfirst

theorem always (p : Program α) : (Attempt.always p : Attempt δ α).FailsOnly h q := by
  intro s err heq
  cases (Program.run_bind_done h p Except.ok s).symm.trans heq

theorem mapError {f : δ' → δ} (hf : ∀ e, q (f e)) (p : Attempt δ' α) :
    (p.mapError f).FailsOnly h q := by
  intro s err heq
  have heq' := (Program.run_bind_done h p.outcome (Except.mapError f) s).symm.trans heq
  cases hfirst : (p.outcome.run h s).1 with
  | ok a =>
    rw [hfirst] at heq'
    cases heq'
  | error e =>
    rw [hfirst] at heq'
    exact Except.error.inj heq' ▸ hf e

theorem ite {c : Prop} [Decidable c] {p p' : Attempt δ α} (hp : p.FailsOnly h q)
    (hp' : p'.FailsOnly h q) : (if c then p else p').FailsOnly h q := by
  split
  · exact hp
  · exact hp'

end Attempt.FailsOnly

/-! ### Failures that wait -/

/-- Whether a failure is no more than a wish, or is due again after the medium interval. -/
def Failure.BacksOff (intervals : Intervals) (e : Failure) : Prop :=
  e.IsWish ∨ e.delay intervals = intervals.medium

theorem Failure.backsOff_withRequeue (intervals : Intervals) (e : Failure) :
    (e.withRequeue intervals.medium).BacksOff intervals :=
  .inr (e.delay_withRequeue ..)

/-- What is left of a failure when wishes are resolved is no wish. -/
theorem resolve_eq_error {intervals : Intervals} {r : Except Failure (Option Directive)}
    {e : Failure} (h : resolve intervals r = .error e) : r = .error e ∧ ¬ e.IsWish := by
  match r with
  | .ok (some d) => cases h
  | .ok none => cases h
  | .error e' =>
    cases e' with
    | requeueAfter d => cases h
    | _ =>
      cases h
      exact ⟨rfl, id⟩

namespace Pass

variable {σ : Type} {h : Handler σ} {settings : Settings} {key : Key}

/-- A program whose failures wait. -/
abbrev Patient {α : Type} (h : Handler σ) (settings : Settings) (p : Attempt Failure α) : Prop :=
  p.FailsOnly h (Failure.BacksOff settings.intervals)

theorem access_patient {α : Type} (p : Attempt AccessError α) : Patient h settings (access p) :=
  .mapError (fun _ => .inr rfl) p

theorem frame_patient {k : Kind} {work : Object k → Attempt Failure (Option Directive)}
    (hwork : ∀ o, Patient h settings (work o)) : Patient h settings (frame settings key work) := by
  refine (access_patient _).bind fun found => ?_
  cases found with
  | none => exact .pure _
  | some o =>
    refine (access_patient _).bind fun directive => ?_
    cases directive with
    | none => exact hwork o
    | some d => exact .pure _

theorem Llm.work_patient (o : Object .llm) : Patient h settings (work settings key o) := by
  refine (access_patient _).bind fun labelled => .ite (.pure _) ?_
  refine .bind (.always _) fun outcome => ?_
  cases outcome with
  | ok message => exact .bind (.always _) fun now => (access_patient _).bind fun _ => .pure _
  | error e =>
    exact .bind (.always _) fun now => .bind (.always _) fun _ =>
      .throw (e.backsOff_withRequeue settings.intervals)

theorem Prompt.work_patient (o : Object .prompt) : Patient h settings (work settings key o) := by
  refine .ite (.pure _) (.bind (.always _) fun outcome => ?_)
  cases outcome with
  | ok bytes => exact (access_patient _).bind fun _ => .pure _
  | error e => exact .bind (.always _) fun _ => .throw (e.backsOff_withRequeue settings.intervals)

theorem Model.work_patient (o : Object .model) : Patient h settings (work settings key o) := by
  refine .ite ?_ (.bind (.always _) fun outcome => ?_)
  · exact (access_patient _).bind fun _ => .bind (.always _) fun _ => .throw (.inl trivial)
  · split
    · exact .pure _
    · exact .throw (.inl trivial)
    · next e _ =>
      exact .bind (.always _) fun _ => .throw (e.backsOff_withRequeue settings.intervals)

/-- A pass that fails waits for the medium interval, or just wishes to be called again. -/
theorem run_patient (h : Handler σ) (w : Worked) (settings : Settings) (key : Key) :
    Patient h settings (run w settings key) := by
  cases w with
  | llm => exact frame_patient Llm.work_patient
  | model => exact frame_patient Model.work_patient
  | prompt => exact frame_patient Prompt.work_patient

variable {w : Worked} {s : σ} {e : Failure}

theorem delay_of_reconcile (hfailed : ((reconcile w settings key).run h s).1 = .error e) :
    e.delay settings.intervals = settings.intervals.medium := by
  have hrun := Program.run_bind_done h (run w settings key).outcome (resolve settings.intervals) s
  obtain ⟨herror, hwish⟩ := resolve_eq_error (hrun.symm.trans hfailed)
  exact (run_patient h w settings key s e herror).resolve_left hwish

/-- The scheduler sees the failures of passes as they are. -/
theorem reconcile_of_enter (hfailed : ((enter w settings key).run h s).1 = .error e) :
    ∃ s, ((reconcile w settings key).run h s).1 = .error e := by
  have henter : (enter w settings key).wp h.meaning
      (fun r _ => r = .error e → ∃ s, ((reconcile w settings key).run h s).1 = .error e) s := by
    unfold enter
    simp only [Program.wp_bind', Program.ask, Program.wp_step, Program.wp_done, Handler.meaning]
    rw [Program.wp_meaning]
    -- entering counts, and passes the failure of the pass on
    cases hresult : ((reconcile w settings key).run h _).1 with
    | error e' => exact fun heq => ⟨_, hresult.trans (congrArg _ (Except.error.inj heq))⟩
    | ok d =>
      simp only
      cases requeueReason? d <;> exact nofun
  rw [Program.wp_meaning] at henter
  exact henter hfailed

/-- When a pass that has failed is tried again.  Let a pass over an object of any kind fail, with
the settings that an environment makes, whoever answers its requests.

* It is tried again after a number of seconds: the one that `REQUEUE_MEDIUM_SECS` sets, or sixty if
  this variable sets none.
* So some time goes by before it is tried again exactly if the variable does not spell zero. -/
theorem backoff_positive_iff (env : Dict (List UInt8)) (h : Handler σ) (w : Worked) (key : Key)
    {s : σ} {e : Failure}
    (hfailed : ((enter w (.ofEnvironment env) key).run h s).1 = .error e) :
    ∃ seconds,
      (∀ s', ((afterFailure w (.ofEnvironment env) e).run h s').1 = .requeue ⟨seconds, 0⟩) ∧
      (Settings.Sets env "REQUEUE_MEDIUM_SECS" 64 seconds ∨
        (∀ n, ¬ Settings.Sets env "REQUEUE_MEDIUM_SECS" 64 n) ∧ seconds = 60) ∧
      (0 < seconds ↔
        ∀ bytes, env.get? "REQUEUE_MEDIUM_SECS" = some bytes → ¬ Settings.Spells bytes 0) := by
  obtain ⟨s₁, hreconcile⟩ := reconcile_of_enter hfailed
  have hdelay := (delay_of_reconcile hreconcile).trans (Settings.medium_ofEnvironment env)
  refine ⟨_, fun s' => congrArg Action.requeue hdelay, Settings.number_eq_iff.1 rfl, ?_⟩
  rw [Nat.pos_iff_ne_zero, Ne, Settings.number_eq_iff]
  constructor
  -- zero is of the right size, and it is not the default
  · intro hnot bytes hbytes hspells
    exact hnot (.inl ⟨bytes, hbytes, hspells, by decide⟩)
  · rintro hnot (⟨bytes, hbytes, hspells, -⟩ | ⟨-, hzero⟩)
    · exact hnot bytes hbytes hspells
    · cases hzero

/-- A number of zero seconds is taken as it is: a prompt that names no language model is tried again
without any delay. -/
theorem backoff_positive_iff_zero :
    let env : Dict (List UInt8) := SortedMap.empty.insert "REQUEUE_MEDIUM_SECS" [0x30]
    let settings := Settings.ofEnvironment env
    let key : Key := ⟨"default", "p"⟩
    let h := World.handler .unreachable
    let s : World Unit :=
      { cluster := Cluster.empty.store key (undirectedPrompt key), vendors := () }
    let e : Failure := .delayed .zero (.configuration "no llm configuration provider")
    ((enter .prompt settings key).run h s).1 = .error e ∧
      ∀ s', ((afterFailure .prompt settings e).run h s').1 = .requeue .zero := by
  intro env settings key h s e
  have hfailed : ((enter .prompt settings key).run h s).1 = .error e := by decide +kernel
  have hvariable : env.get? "REQUEUE_MEDIUM_SECS" = some [0x30] := by
    rw [SortedMap.get?_insert, if_pos rfl]
  have hdigits : Numeral.Digits [0] := ⟨List.cons_ne_nil 0 [], by decide⟩
  obtain ⟨seconds, hagain, -, hpositive⟩ := backoff_positive_iff env h .prompt key hfailed
  -- a wait of one second or more would need another text in the variable
  have hzero : seconds = 0 := by
    by_contra hne
    exact hpositive.1 (Nat.pos_of_ne_zero hne) _ hvariable (.unsigned hdigits)
  subst hzero
  exact ⟨hfailed, hagain⟩

end Pass

end ModelKeeper

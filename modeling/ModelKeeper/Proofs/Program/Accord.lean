import ModelKeeper.Proofs.Program.Closed

/-!
# Programs in accord

Two programs are in accord (`Program.Accord`) if under one handler they have the same result
whenever they start from states that are related, and then end in states that are related again.
The programs and the states may differ in whatever must not show in the result.

There is one rule for each construct of programs.  To be in accord with itself is a property that
passes from the parts of a program to the whole (`Program.closed_accord`).
-/

namespace ModelKeeper

variable {σ α β δ δ' : Type} {h : Handler σ} {I : σ → σ → Prop}

/-- Whether two programs have the same result in related states, and lead to related states. -/
def Program.Accord (h : Handler σ) (I : σ → σ → Prop) (p q : Program α) : Prop :=
  ∀ s t, I s t → (q.run h t).1 = (p.run h s).1 ∧ I (p.run h s).2 (q.run h t).2

namespace Program.Accord

theorem done (a : α) : Accord h I (.done a) (.done a) := fun _ _ hst => ⟨rfl, hst⟩

theorem bind {p q : Program α} {f g : α → Program β} (hpq : p.Accord h I q)
    (hnext : ∀ a, (f a).Accord h I (g a)) : (p.bind f).Accord h I (q.bind g) := by
  intro s t hst
  obtain ⟨hresult, hstates⟩ := hpq s t hst
  rw [run_bind, run_bind, hresult]
  exact hnext _ _ _ hstates

end Program.Accord

/-- What is in accord with itself in its parts is so as a whole. -/
theorem Program.closed_accord (h : Handler σ) (I : σ → σ → Prop) :
    Closed fun _ p => p.Accord h I p where
  done := Accord.done
  bind := Accord.bind

/-- The same for programs that may fail. -/
def Attempt.Accord (h : Handler σ) (I : σ → σ → Prop) (p q : Attempt δ α) : Prop :=
  p.outcome.Accord h I q.outcome

namespace Attempt.Accord

theorem pure (a : α) : Accord h I (Pure.pure a : Attempt δ α) (Pure.pure a) := .done _

theorem throw (err : δ) : Accord h I (MonadExcept.throw err : Attempt δ α)
    (MonadExcept.throw err) := .done _

theorem bind {p q : Attempt δ α} {f g : α → Attempt δ β} (hpq : p.Accord h I q)
    (hnext : ∀ a, (f a).Accord h I (g a)) : (p >>= f).Accord h I (q >>= g) :=
  Program.Accord.bind hpq fun r => by
    cases r with
    | ok a => exact hnext a
    | error err => exact .done _

theorem mapError {p q : Attempt δ α} (hpq : p.Accord h I q) (f : δ → δ') :
    (p.mapError f).Accord h I (q.mapError f) :=
  Program.Accord.bind hpq fun _ => .done _

theorem ite {c : Prop} [Decidable c] {p p' q q' : Attempt δ α} (hp : p.Accord h I p')
    (hq : q.Accord h I q') : (if c then p else q).Accord h I (if c then p' else q') := by
  split
  · exact hp
  · exact hq

end Attempt.Accord

end ModelKeeper

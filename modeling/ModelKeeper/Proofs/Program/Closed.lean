import ModelKeeper.Operator.Amend
import ModelKeeper.Proofs.Program.Wp

/-!
# Properties of programs that pass from parts to the whole

A property of programs is closed (`Program.Closed`) if a program has it whose parts have it: it is
had by programs that make no request, and by two programs in a row if both have it.  Then it is
enough to know it of the requests of a program, and a walk over the program does the rest.  There
are rules for attempts, for reads and for amendments (`Program.Closed.amend`).

To keep an invariant is such a property (`Program.closed_keeps`).
-/

namespace ModelKeeper

/-- Whether programs have a property if their parts do. -/
structure Program.Closed (P : (α : Type) → Program α → Prop) : Prop where
  done : ∀ {α : Type} (a : α), P α (.done a)
  bind : ∀ {α β : Type} {p : Program α} {f : α → Program β}, P α p → (∀ a, P β (f a)) →
    P β (p.bind f)

theorem Program.closed_keeps {ε : Type} {m : Meaning ε} (hm : m.Monotone) (I : ε → Prop) :
    Closed fun _ p => p.Keeps m I where
  done _ _ he := he
  bind := Keeps.bind hm

namespace Program.Closed

variable {δ δ' α β : Type} {P : (α : Type) → Program α → Prop} (h : Closed P)
include h

protected theorem pure (a : α) : P _ (Pure.pure a : Attempt δ α).outcome := h.done (Except.ok a)

protected theorem throw (err : δ) : P _ (MonadExcept.throw err : Attempt δ α).outcome :=
  h.done (Except.error err)

/-- One attempt, then another. -/
theorem seq {p : Attempt δ α} {f : α → Attempt δ β} (hp : P _ p.outcome)
    (hf : ∀ a, P _ (f a).outcome) : P _ (p >>= f).outcome :=
  h.bind hp fun r => by
    cases r with
    | ok a => exact hf a
    | error err => exact h.done (Except.error err)

theorem mapError {p : Attempt δ α} (hp : P _ p.outcome) (f : δ → δ') :
    P _ (p.mapError f).outcome :=
  h.bind hp fun _ => h.done _

theorem always {p : Program α} (hp : P _ p) : P _ (Attempt.always p : Attempt δ α).outcome :=
  h.bind hp fun _ => h.done _

omit h in
protected theorem ite {c : Prop} [Decidable c] {p q : Attempt δ α} (hp : P _ p.outcome)
    (hq : P _ q.outcome) : P _ (if c then p else q).outcome := by
  split
  · exact hp
  · exact hq

/-! ### Objects -/

variable {k : Kind} {key : Key}

theorem find? (hget : P _ (ask (.get k key))) : P _ (Objects.find? k key).outcome :=
  h.bind hget fun answer => by
    cases answer <;> exact h.done _

section

variable {half : Half} {change : Change k} (hget : P _ (ask (.get k key))) (hnow : P _ (ask .now))
  (hwrite : ∀ o : Object k, P _ (half.write o).outcome)
include hget hnow hwrite

theorem amend_attempt {onConflict : AccessError → Program (Except AccessError (Object k))}
    (hconflict : ∀ e, P _ (onConflict e)) :
    P _ (amend.attempt half k key change onConflict) := by
  refine h.bind hget fun answer => ?_
  cases answer with
  | error e => exact h.done _
  | ok o =>
    refine h.bind hnow fun now => ?_
    simp only
    split
    · exact h.done _
    · refine h.bind (hwrite _) fun written => ?_
      cases written with
      | ok o => exact h.done _
      | error e =>
        simp only
        split
        · exact hconflict e
        · exact h.done _

theorem amend (attempts : Nat) : P _ (ModelKeeper.amend half k key attempts change).outcome := by
  have hgo : ∀ retries, P _ (amend.go half k key change retries) := by
    intro retries
    induction retries with
    | zero => exact h.amend_attempt hget hnow hwrite fun e => h.done _
    | succ retries ih => exact h.amend_attempt hget hnow hwrite fun _ => ih
  exact hgo (attempts - 1)

end

end Program.Closed

/-! ### Requests on the side -/

/-- Whether a request looks at the clock, or reports something. -/
def Request.IsAside : Request → Prop
  | .now | .emit _ | .count _ => True
  | _ => False

/-- Whether a closed property is had by all requests that look at the clock or report something. -/
structure Program.Reporting (P : (α : Type) → Program α → Prop) : Prop extends Closed P where
  ask : ∀ r : Request, r.IsAside → P r.Answer (.ask r)

theorem Program.Reporting.report {P : (α : Type) → Program α → Prop} (h : Reporting P)
    (subject : Subject) (reason message : String) : P _ (report subject reason message) :=
  h.ask (.emit _) trivial

end ModelKeeper

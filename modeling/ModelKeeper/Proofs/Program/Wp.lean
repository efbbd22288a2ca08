import ModelKeeper.Operator.Program

/-!
# What a program guarantees

A `Meaning` says of every request what is known when it has been answered: a predicate on answers
and points of a run becomes one on the points before.  `Program.wp` carries a meaning over to whole
programs.  The same rules (`wp_bind`, `Attempt.wp_bind`, …) then serve all ways to run a program:

* `Handler.meaning`: a handler answers, and nobody else acts (`Program.wp_meaning`);
* `Meaning.noting`: any answers at all, with the exchanges written down.  What holds then holds of
  the exchanges under every handler (`Program.of_wp_noting`).

Of some programs it matters only that they keep an invariant (`Program.Keeps`).
-/

namespace ModelKeeper

/-- What is known about requests: `m r post e` if `r`, made at the point `e`, leads to an answer and
a point at which `post` holds. -/
abbrev Meaning (ε : Type) : Type := (r : Request) → (r.Answer → ε → Prop) → ε → Prop

/-- A meaning that gives no less when less is asked for. -/
def Meaning.Monotone {ε : Type} (m : Meaning ε) : Prop :=
  ∀ r (post post' : r.Answer → ε → Prop) e, (∀ a e, post a e → post' a e) → m r post e →
    m r post' e

/-- Whether the program, started at a point, ends with `post` whatever its requests lead to. -/
def Program.wp {ε α : Type} (m : Meaning ε) (post : α → ε → Prop) : Program α → ε → Prop
  | .done a, e => post a e
  | .step r next, e => m r (fun answer e => (next answer).wp m post e) e

/-- The same for a program that may fail. -/
def Attempt.wp {δ ε α : Type} (m : Meaning ε) (post : Except δ α → ε → Prop) (p : Attempt δ α)
    (e : ε) : Prop :=
  p.outcome.wp m post e

/-- What holds after the first of two programs, if the second is run unless the first fails. -/
def Attempt.unlessFailed {δ ε α β : Type} (post : Except δ β → ε → Prop) (next : α → ε → Prop) :
    Except δ α → ε → Prop
  | .ok a, e => next a e
  | .error err, e => post (.error err) e

namespace Program

variable {ε α β : Type} {m : Meaning ε}

@[simp]
theorem wp_done (post : α → ε → Prop) (a : α) (e : ε) : (Program.done a).wp m post e = post a e :=
  rfl

@[simp]
theorem wp_pure (post : α → ε → Prop) (a : α) (e : ε) :
    (pure a : Program α).wp m post e = post a e := rfl

attribute [simp] ask

@[simp]
theorem wp_step (post : α → ε → Prop) (r : Request) (next : r.Answer → Program α) (e : ε) :
    (step r next).wp m post e = m r (fun answer e => (next answer).wp m post e) e := rfl

@[simp]
theorem wp_bind (post : β → ε → Prop) (p : Program α) (f : α → Program β) (e : ε) :
    (p.bind f).wp m post e = p.wp m (fun a e => (f a).wp m post e) e := by
  induction p generalizing e with
  | done a => rfl
  | step r next ih =>
    exact congrArg (fun q => m r q e) (funext fun a => funext fun e => ih a e)

@[simp]
theorem wp_bind' (post : β → ε → Prop) (p : Program α) (f : α → Program β) (e : ε) :
    (p >>= f).wp m post e = p.wp m (fun a e => (f a).wp m post e) e :=
  wp_bind post p f e

theorem wp_mono (hm : m.Monotone) {post post' : α → ε → Prop}
    (h : ∀ a e, post a e → post' a e) (p : Program α) {e : ε} (hp : p.wp m post e) :
    p.wp m post' e := by
  induction p generalizing e with
  | done a => exact h a e hp
  | step r next ih => exact hm r _ _ e (fun a e => ih a) hp

end Program

namespace Attempt

variable {δ δ' ε α β : Type} {m : Meaning ε}

@[simp]
theorem wp_outcome (post : Except δ α → ε → Prop) (p : Attempt δ α) (e : ε) :
    p.outcome.wp m post e = p.wp m post e := rfl

@[simp]
theorem wp_run (post : Except δ α → ε → Prop) (p : Attempt δ α) (e : ε) :
    Program.wp m post (ExceptT.run p) e = p.wp m post e := rfl

@[simp]
theorem wp_of (post : Except δ α → ε → Prop) (p : Program (Except δ α)) (e : ε) :
    (Attempt.of p).wp m post e = p.wp m post e := rfl

@[simp]
theorem wp_pure (post : Except δ α → ε → Prop) (a : α) (e : ε) :
    (pure a : Attempt δ α).wp m post e = post (.ok a) e := rfl

@[simp]
theorem wp_throw (post : Except δ α → ε → Prop) (err : δ) (e : ε) :
    (throw err : Attempt δ α).wp m post e = post (.error err) e := rfl

/-- Only errors are mapped. -/
theorem mapError_ok (f : δ → δ') (a : α) : Except.mapError f (.ok a) = .ok a := rfl

theorem mapError_error (f : δ → δ') (err : δ) :
    Except.mapError f (.error err : Except δ α) = .error (f err) := rfl

@[simp]
theorem unlessFailed_ok (post : Except δ β → ε → Prop) (next : α → ε → Prop) (a : α) (e : ε) :
    unlessFailed post next (.ok a) e = next a e := rfl

@[simp]
theorem unlessFailed_error (post : Except δ β → ε → Prop) (next : α → ε → Prop) (err : δ) (e : ε) :
    unlessFailed post next (.error err) e = post (.error err) e := rfl

/-- Nothing is done after the first of two programs. -/
theorem unlessFailed_nothing (post : Except δ Unit → ε → Prop) :
    unlessFailed post (fun _ e => post (.ok ()) e) = post :=
  funext fun r => by cases r <;> rfl

@[simp]
theorem wp_always (post : Except δ α → ε → Prop) (p : Program α) (e : ε) :
    (Attempt.always p : Attempt δ α).wp m post e = p.wp m (fun a e => post (.ok a) e) e :=
  Program.wp_bind post p (fun a => .done (.ok a)) e

@[simp]
theorem wp_mapError (post : Except δ' α → ε → Prop) (f : δ → δ') (p : Attempt δ α) (e : ε) :
    (p.mapError f).wp m post e = p.wp m (fun r e => post (r.mapError f) e) e :=
  Program.wp_bind post p.outcome (fun r => .done (r.mapError f)) e

@[simp]
theorem wp_bind (post : Except δ β → ε → Prop) (p : Attempt δ α) (f : α → Attempt δ β) (e : ε) :
    (p >>= f).wp m post e = p.wp m (unlessFailed post (fun a e => (f a).wp m post e)) e := by
  have h : (p >>= f).wp m post e =
      Program.wp m post (p.outcome.bind (ExceptT.bindCont f)) e := rfl
  rw [h, Program.wp_bind]
  refine congrArg (fun q => Program.wp m q p.outcome e) (funext fun r => funext fun e => ?_)
  cases r <;> rfl

@[simp]
theorem wp_ite (post : Except δ α → ε → Prop) (c : Prop) [Decidable c] (p q : Attempt δ α) (e : ε) :
    (if c then p else q).wp m post e = if c then p.wp m post e else q.wp m post e := by
  split <;> rfl

theorem wp_mono (hm : m.Monotone) {post post' : Except δ α → ε → Prop}
    (h : ∀ r e, post r e → post' r e) (p : Attempt δ α) {e : ε} (hp : p.wp m post e) :
    p.wp m post' e :=
  Program.wp_mono hm h p.outcome hp

end Attempt

/-! ### Running under a handler -/

namespace Handler

variable {σ : Type}

/-- What is known when a handler answers. -/
def meaning (h : Handler σ) : Meaning σ := fun r post s =>
  post (h.answer r s).1 (h.answer r s).2

theorem meaning_monotone (h : Handler σ) : h.meaning.Monotone :=
  fun r _ _ s hpost => hpost (h.answer r s).1 (h.answer r s).2

end Handler

/-- A request with its answer. -/
structure Exchange where
  request : Request
  answer : request.Answer

/-- What is known of answers that may be anything: the exchanges, the last one first. -/
def Meaning.noting : Meaning (List Exchange) := fun r post past =>
  ∀ answer, post answer (⟨r, answer⟩ :: past)

theorem Meaning.noting_monotone : noting.Monotone :=
  fun r _ _ past hpost h answer => hpost answer (⟨r, answer⟩ :: past) (h answer)

namespace Program

variable {σ α β : Type}

theorem run_bind (h : Handler σ) (p : Program α) (f : α → Program β) (s : σ) :
    (p.bind f).run h s = (f (p.run h s).1).run h (p.run h s).2 := by
  induction p generalizing s with
  | done a => rfl
  | step r next ih => exact ih (h.answer r s).1 (h.answer r s).2

theorem wp_meaning (h : Handler σ) (post : α → σ → Prop) (p : Program α) (s : σ) :
    p.wp h.meaning post s = post (p.run h s).1 (p.run h s).2 := by
  induction p generalizing s with
  | done a => rfl
  | step r next ih => exact ih (h.answer r s).1 (h.answer r s).2

/-- The exchanges of a program that runs under a handler, in order. -/
def exchanges (h : Handler σ) : Program α → σ → List Exchange
  | .done _, _ => []
  | .step r next, s =>
    ⟨r, (h.answer r s).1⟩ :: (next (h.answer r s).1).exchanges h (h.answer r s).2

theorem of_wp_noting (h : Handler σ) {post : α → List Exchange → Prop} (p : Program α) (s : σ)
    {past : List Exchange} (hp : p.wp .noting post past) :
    post (p.run h s).1 ((p.exchanges h s).reverse ++ past) := by
  induction p generalizing s past with
  | done a => exact hp
  | step r next ih =>
    have hnext := ih (h.answer r s).1 (h.answer r s).2 (hp (h.answer r s).1)
    rwa [exchanges, List.reverse_cons, List.append_assoc, List.singleton_append]

end Program

/-! ### What programs keep -/

/-- Whether a program keeps an invariant, whatever its requests lead to. -/
def Program.Keeps {ε α : Type} (m : Meaning ε) (I : ε → Prop) (p : Program α) : Prop :=
  ∀ e, I e → p.wp m (fun _ e => I e) e

/-- The same for a program that may fail. -/
def Attempt.Keeps {δ ε α : Type} (m : Meaning ε) (I : ε → Prop) (p : Attempt δ α) : Prop :=
  p.outcome.Keeps m I

theorem Program.Keeps.bind {ε α β : Type} {m : Meaning ε} {I : ε → Prop} (hm : m.Monotone)
    {p : Program α} {f : α → Program β} (h : p.Keeps m I) (hf : ∀ a, (f a).Keeps m I) :
    (p.bind f).Keeps m I := by
  intro e he
  rw [wp_bind]
  exact wp_mono hm (fun a e => hf a e) p (h e he)

namespace Attempt.Keeps

variable {δ δ' ε α β : Type} {m : Meaning ε} {I : ε → Prop}

theorem pure (a : α) : (Pure.pure a : Attempt δ α).Keeps m I := fun _ he => he

theorem throw (err : δ) : (throw err : Attempt δ α).Keeps m I := fun _ he => he

theorem bind (hm : m.Monotone) {p : Attempt δ α} {f : α → Attempt δ β} (h : p.Keeps m I)
    (hf : ∀ a, (f a).Keeps m I) : (p >>= f).Keeps m I :=
  Program.Keeps.bind hm h fun r => by
    cases r with
    | ok a => exact hf a
    | error err => exact fun _ he => he

/-- What the first of two programs establishes is there at the end if the second one keeps it. -/
theorem after (hm : m.Monotone) {p : Attempt δ α} {f : α → Attempt δ β} {e : ε}
    (h : p.wp m (fun _ e => I e) e) (hf : ∀ a, (f a).Keeps m I) :
    (p >>= f).wp m (fun _ e => I e) e := by
  rw [wp_bind]
  refine wp_mono hm (fun r e he => ?_) p h
  cases r with
  | ok a => exact hf a e he
  | error err => exact he

theorem mapError (hm : m.Monotone) {p : Attempt δ α} (h : p.Keeps m I) (f : δ → δ') :
    (p.mapError f).Keeps m I :=
  Program.Keeps.bind hm h fun _ _ he => he

theorem always (hm : m.Monotone) {p : Program α} (h : p.Keeps m I) :
    (Attempt.always p : Attempt δ α).Keeps m I :=
  Program.Keeps.bind hm h fun _ _ he => he

end Attempt.Keeps

end ModelKeeper

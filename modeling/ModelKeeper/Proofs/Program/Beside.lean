import ModelKeeper.Proofs.Program.Wp

/-!
# Programs beside each other

Two programs run under one handler, each from a state of its own.  They go beside each other
(`Program.Beside`) if to the outside they do the same, that is, if they make the same outward
requests with the same answers, and if what is said of both ends is true.  What they read and write
may differ, so there is one rule for each construct of programs.

If all answers are the same on both sides then one program is enough, and it goes beside itself by
the rules for a single run (`Program.beside_of_wp`).
-/

namespace ModelKeeper

/-- Whether a request goes to a vendor, or to those who watch the operator. -/
def Request.isOutward : Request → Bool
  | .emit _ | .count _ | .connect _ | .validate _ _ | .call _ _ => true
  | _ => false

/-- What two results are together: two values, of which `R` holds, or one error on both sides, and
then `E` holds. -/
inductive Attempt.Both {σ δ α β : Type} (R : α → β → σ → σ → Prop) (E : σ → σ → Prop) :
    Except δ α → Except δ β → σ → σ → Prop
  | ok {a : α} {b : β} {s t : σ} : R a b s t → Both R E (.ok a) (.ok b) s t
  | error (e : δ) {s t : σ} : E s t → Both R E (.error e) (.error e) s t

namespace Program

variable {σ α α' β β' : Type}

theorem exchanges_bind (h : Handler σ) (p : Program α) (f : α → Program β) (s : σ) :
    (p.bind f).exchanges h s =
      p.exchanges h s ++ (f (p.run h s).1).exchanges h (p.run h s).2 := by
  induction p generalizing s with
  | done a => rfl
  | step r next ih => exact congrArg (_ :: ·) (ih (h.answer r s).1 (h.answer r s).2)

/-- The outward exchanges of a program that runs under a handler, in order. -/
def outward (h : Handler σ) (p : Program α) (s : σ) : List Exchange :=
  (p.exchanges h s).filter (·.request.isOutward)

theorem outward_bind (h : Handler σ) (p : Program α) (f : α → Program β) (s : σ) :
    (p.bind f).outward h s = p.outward h s ++ (f (p.run h s).1).outward h (p.run h s).2 := by
  unfold outward
  rw [exchanges_bind, List.filter_append]

theorem outward_ask (h : Handler σ) (r : Request) (s : σ) :
    (ask r).outward h s = if r.isOutward then [⟨r, (h.answer r s).1⟩] else [] := by
  simp only [outward, ask, exchanges, List.filter_cons, List.filter_nil]

/-- Whether two programs, run from two states, do the same to the outside and end with `post`. -/
structure Beside (h : Handler σ) (post : α → β → σ → σ → Prop) (p : Program α) (q : Program β)
    (s t : σ) : Prop where
  outward : p.outward h s = q.outward h t
  ends : post (p.run h s).1 (q.run h t).1 (p.run h s).2 (q.run h t).2

/-- Both results are the same. -/
def Even (I : σ → σ → Prop) (a b : α) (s t : σ) : Prop := b = a ∧ I s t

namespace Beside

variable {h : Handler σ} {post : α → β → σ → σ → Prop} {p : Program α} {q : Program β} {s t : σ}

theorem done {a : α} {b : β} (hpost : post a b s t) :
    Beside h post (.done a) (.done b) s t := ⟨rfl, hpost⟩

theorem bind {mid : α → β → σ → σ → Prop} {post : α' → β' → σ → σ → Prop}
    {f : α → Program α'} {g : β → Program β'} (hp : Beside h mid p q s t)
    (hnext : ∀ a b s t, mid a b s t → Beside h post (f a) (g b) s t) :
    Beside h post (p.bind f) (q.bind g) s t := by
  have hrest := hnext _ _ _ _ hp.ends
  constructor
  · rw [outward_bind, outward_bind, hp.outward, hrest.outward]
  · rw [run_bind, run_bind]
    exact hrest.ends

theorem mono {post' : α → β → σ → σ → Prop} (hp : Beside h post p q s t)
    (hpost : ∀ a b s t, post a b s t → post' a b s t) : Beside h post' p q s t :=
  ⟨hp.outward, hpost _ _ _ _ hp.ends⟩

/-- What is not seen outside may differ. -/
theorem ask_inward (r r' : Request) {post : r.Answer → r'.Answer → σ → σ → Prop}
    (hr : r.isOutward = false) (hr' : r'.isOutward = false)
    (hpost : post (h.answer r s).1 (h.answer r' t).1 (h.answer r s).2 (h.answer r' t).2) :
    Beside h post (ask r) (ask r') s t where
  outward := by simp only [outward_ask, hr, hr', Bool.false_eq_true, if_false]
  ends := hpost

theorem ask_outward (r : Request) {post : r.Answer → r.Answer → σ → σ → Prop}
    (hanswer : (h.answer r t).1 = (h.answer r s).1)
    (hpost : post (h.answer r s).1 (h.answer r t).1 (h.answer r s).2 (h.answer r t).2) :
    Beside h post (ask r) (ask r) s t where
  outward := by rw [outward_ask, outward_ask, hanswer]
  ends := hpost

end Beside

end Program

/-- What is known of requests if two states answer all of them in the same way. -/
def Meaning.beside {σ : Type} (h : Handler σ) : Meaning (σ × σ) := fun r post e =>
  (h.answer r e.2).1 = (h.answer r e.1).1 ∧
    post (h.answer r e.1).1 ((h.answer r e.1).2, (h.answer r e.2).2)

theorem Meaning.beside_monotone {σ : Type} (h : Handler σ) : (beside h).Monotone :=
  fun _ _ _ _ hpost hr => ⟨hr.1, hpost _ _ hr.2⟩

/-- A program goes beside itself as long as all answers are the same. -/
theorem Program.beside_of_wp {σ α : Type} {h : Handler σ} {I : σ → σ → Prop} (p : Program α)
    {s t : σ} (hp : p.wp (.beside h) (fun _ e => I e.1 e.2) (s, t)) :
    Program.Beside h (Even I) p p s t := by
  induction p generalizing s t with
  | done a => exact .done ⟨rfl, hp⟩
  | step r next ih =>
    obtain ⟨hanswer, hnext⟩ := hp
    have hask : Beside h (fun a b s t => b = a ∧
        (next a).wp (.beside h) (fun _ e => I e.1 e.2) (s, t)) (ask r) (ask r) s t :=
      .ask_outward r hanswer ⟨hanswer, hnext⟩
    refine hask.bind fun a b s t hmid => ?_
    obtain ⟨rfl, hwp⟩ := hmid
    exact ih b hwp

/-! ### Programs that may fail -/

namespace Attempt

variable {σ δ δ' α α' β β' : Type} {h : Handler σ}

/-- The same for two programs that may fail: they fail alike. -/
def Beside (h : Handler σ) (R : α → β → σ → σ → Prop) (E : σ → σ → Prop) (p : Attempt δ α)
    (q : Attempt δ β) (s t : σ) : Prop :=
  Program.Beside h (Both R E) p.outcome q.outcome s t

namespace Beside

variable {R : α → β → σ → σ → Prop} {E : σ → σ → Prop} {p : Attempt δ α} {q : Attempt δ β} {s t : σ}

theorem pure {a : α} {b : β} (hR : R a b s t) :
    Beside h R E (Pure.pure a : Attempt δ α) (Pure.pure b) s t := Program.Beside.done (.ok hR)

theorem throw (e : δ) (hE : E s t) : Beside h R E (throw e : Attempt δ α) (throw e) s t :=
  Program.Beside.done (.error e hE)

theorem mono {R' : α → β → σ → σ → Prop} {E' : σ → σ → Prop} (hp : Beside h R E p q s t)
    (hR : ∀ a b s t, R a b s t → R' a b s t) (hE : ∀ s t, E s t → E' s t) :
    Beside h R' E' p q s t :=
  Program.Beside.mono hp fun _ _ _ _ hboth => by
    cases hboth with
    | ok hab => exact .ok (hR _ _ _ _ hab)
    | error e he => exact .error e (hE _ _ he)

theorem bind {R' : α' → β' → σ → σ → Prop} {E' : σ → σ → Prop} {f : α → Attempt δ α'}
    {g : β → Attempt δ β'} (hp : Beside h R E p q s t)
    (hnext : ∀ a b s t, R a b s t → Beside h R' E' (f a) (g b) s t)
    (hE : ∀ s t, E s t → E' s t) : Beside h R' E' (p >>= f) (q >>= g) s t :=
  Program.Beside.bind hp fun _ _ s t hboth => by
    cases hboth with
    | ok hab => exact hnext _ _ s t hab
    | error e he => exact .done (.error e (hE _ _ he))

theorem mapError (hp : Beside h R E p q s t) (f : δ → δ') :
    Beside h R E (p.mapError f) (q.mapError f) s t :=
  Program.Beside.bind hp fun _ _ _ _ hboth => by
    cases hboth with
    | ok hab => exact .done (.ok hab)
    | error e he => exact .done (.error (f e) he)

theorem always {p : Program α} {q : Program β} (hp : p.Beside h R q s t) :
    Beside h R E (Attempt.always p : Attempt δ α) (Attempt.always q) s t :=
  Program.Beside.bind hp fun _ _ _ _ hab => .done (.ok hab)

end Beside

/-- A program that meets the same answers on both sides goes beside itself. -/
theorem beside_of_keeps {I : σ → σ → Prop} {p : Attempt δ α} {s t : σ}
    (hp : p.Keeps (.beside h) fun e => I e.1 e.2) (hst : I s t) :
    p.Beside h (Program.Even I) I p s t :=
  (Program.beside_of_wp p.outcome (hp (s, t) hst)).mono fun r r' _ _ heven => by
    obtain ⟨rfl, hI⟩ := heven
    cases r' with
    | ok a => exact .ok ⟨rfl, hI⟩
    | error e => exact .error e hI

end Attempt

end ModelKeeper

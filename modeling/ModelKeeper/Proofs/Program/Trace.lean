import ModelKeeper.Proofs.Program.Beside

/-!
# What a single run comes to

`Program.Yields` says all there is to say of one run of a program under a handler: its result, its
exchanges and the state that it leads to.  There is one rule for each construct, so the run of a
long program is put together from those of its parts, and the place where it breaks off is told by
the rule for a failure (`Attempt.yields_seq_error`).
-/

namespace ModelKeeper

variable {σ α β δ δ' : Type} {h : Handler σ} {s s₁ s₂ : σ} {xs ys : List Exchange}

/-- Whether a program, run from a state, has this result, has these exchanges in order, and leads to
this state. -/
structure Program.Yields (h : Handler σ) (p : Program α) (s : σ) (a : α) (xs : List Exchange)
    (s' : σ) : Prop where
  run : p.run h s = (a, s')
  exchanges : p.exchanges h s = xs

namespace Program

theorem yields_self (h : Handler σ) (p : Program α) (s : σ) :
    p.Yields h s (p.run h s).1 (p.exchanges h s) (p.run h s).2 := ⟨rfl, rfl⟩

theorem yields_done (a : α) : (done a).Yields h s a [] s := ⟨rfl, rfl⟩

theorem yields_ask (h : Handler σ) (r : Request) (s : σ) :
    (ask r).Yields h s (h.answer r s).1 [⟨r, (h.answer r s).1⟩] (h.answer r s).2 := ⟨rfl, rfl⟩

theorem Yields.bind {p : Program α} {f : α → Program β} {a : α} {b : β}
    (hp : p.Yields h s a xs s₁) (hf : (f a).Yields h s₁ b ys s₂) :
    (p.bind f).Yields h s b (xs ++ ys) s₂ where
  run := by rw [run_bind, hp.run, hf.run]
  exchanges := by rw [exchanges_bind, hp.run, hp.exchanges, hf.exchanges]

/-- What a program guarantees for all answers is true of its run. -/
theorem Yields.of_wp_noting {p : Program α} {a : α} (hp : p.Yields h s a xs s₁)
    {post : α → List Exchange → Prop} {past : List Exchange} (hwp : p.wp .noting post past) :
    post a (xs.reverse ++ past) := by
  have hend := Program.of_wp_noting h p s hwp
  rwa [hp.run, hp.exchanges] at hend

end Program

namespace Attempt

variable {p : Attempt δ α} {f : α → Attempt δ β}

theorem yields_pure (a : α) : (pure a : Attempt δ α).outcome.Yields h s (.ok a) [] s :=
  Program.yields_done _

theorem yields_throw (err : δ) :
    (throw err : Attempt δ α).outcome.Yields h s (.error err) [] s :=
  Program.yields_done _

/-- The second of two programs is run if the first one does not fail. -/
theorem yields_seq {a : α} {r : Except δ β} (hp : p.outcome.Yields h s (.ok a) xs s₁)
    (hf : (f a).outcome.Yields h s₁ r ys s₂) :
    (p >>= f).outcome.Yields h s r (xs ++ ys) s₂ :=
  Program.Yields.bind (f := ExceptT.bindCont f) hp hf

/-- The second of two programs makes no requests. -/
theorem yields_seq_nil {a : α} {r : Except δ β} (hp : p.outcome.Yields h s (.ok a) xs s₁)
    (hf : (f a).outcome.Yields h s₁ r [] s₁) : (p >>= f).outcome.Yields h s r xs s₁ := by
  have hend := yields_seq hp hf
  rwa [List.append_nil] at hend

/-- The first of two programs makes no requests. -/
theorem yields_nil_seq {a : α} {r : Except δ β} (hp : p.outcome.Yields h s (.ok a) [] s₁)
    (hf : (f a).outcome.Yields h s₁ r xs s₂) : (p >>= f).outcome.Yields h s r xs s₂ :=
  yields_seq hp hf

theorem yields_seq_error {err : δ} (hp : p.outcome.Yields h s (.error err) xs s₁) :
    (p >>= f).outcome.Yields h s (.error err) xs s₁ := by
  have hend := Program.Yields.bind (f := ExceptT.bindCont f) hp (Program.yields_done _)
  rwa [List.append_nil] at hend

theorem yields_mapError {r : Except δ α} (hp : p.outcome.Yields h s r xs s₁) (g : δ → δ') :
    (p.mapError g).outcome.Yields h s (r.mapError g) xs s₁ := by
  have hend := Program.Yields.bind (f := fun r => .done (r.mapError g)) hp (Program.yields_done _)
  rwa [List.append_nil] at hend

theorem yields_always (δ : Type) {q : Program α} {a : α} (hq : q.Yields h s a xs s₁) :
    (Attempt.always q : Attempt δ α).outcome.Yields h s (.ok a) xs s₁ := by
  have hend := Program.Yields.bind (f := fun a => .done (Except.ok a : Except δ α)) hq
    (Program.yields_done _)
  rwa [List.append_nil] at hend

/-- A request, and a program that depends on the answer. -/
theorem yields_ask_seq {r : Request} {f : r.Answer → Attempt δ β} {b : Except δ β}
    (hf : (f (h.answer r s).1).outcome.Yields h (h.answer r s).2 b xs s₁) :
    (Attempt.always (.ask r) >>= f).outcome.Yields h s b (⟨r, (h.answer r s).1⟩ :: xs) s₁ :=
  yields_seq (yields_always δ (Program.yields_ask h r s)) hf

end Attempt

end ModelKeeper

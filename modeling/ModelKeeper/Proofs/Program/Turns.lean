import Mathlib.Logic.Function.Basic
import ModelKeeper.Proofs.Program.Wp

/-!
# Programs in turns

Several programs run against one state, a request at a time and in any order, and between any two
requests others may act on the state too.  `Turns` is the relation between the start of such a run
and what it can come to.

What a program guarantees in such company is again a meaning, `Meaning.amid`: at each request the
state is any that is possible after the program's own exchanges so far, and the program has to keep
to what it promises.  `Turns.keeps` says that this is sound if what others do, and what the other
programs do as long as they keep their promises, leads from possible states to possible ones
(`Terms`).
-/

namespace ModelKeeper

/-- An exchange and the state in which the request was made. -/
structure Moment (σ : Type) extends Exchange where
  before : σ

/-- The moment at which a handler answers a request. -/
def Handler.moment {σ : Type} (h : Handler σ) (r : Request) (s : σ) : Moment σ :=
  ⟨⟨r, (h.answer r s).1⟩, s⟩

section

variable {ι σ α : Type} [DecidableEq ι]

/-- What programs that start as `start` in the state `s₀` can come to in turns, with `others` acting
in between: the moments so far, the last one first and each with the program that it belongs to, the
state, and what is left of the programs. -/
inductive Turns (h : Handler σ) (others : σ → σ → Prop) (start : ι → Program α) (s₀ : σ) :
    List (ι × Moment σ) → σ → (ι → Program α) → Prop
  | start : Turns h others start s₀ [] s₀ start
  | own {past : List (ι × Moment σ)} {s : σ} {programs : ι → Program α} (i : ι) {r : Request}
      {next : r.Answer → Program α} :
      Turns h others start s₀ past s programs → programs i = .step r next →
      Turns h others start s₀ ((i, h.moment r s) :: past) (h.answer r s).2
        (Function.update programs i (next (h.answer r s).1))
  | others {past : List (ι × Moment σ)} {s s' : σ} {programs : ι → Program α} :
      Turns h others start s₀ past s programs → others s s' →
      Turns h others start s₀ past s' programs

/-- The moments of one program. -/
def Turns.of (i : ι) (past : List (ι × Moment σ)) : List (Moment σ) :=
  (past.filter (fun e => e.1 = i)).map (·.2)

theorem Turns.of_cons_self (i : ι) (m : Moment σ) (past : List (ι × Moment σ)) :
    of i ((i, m) :: past) = m :: of i past := by
  simp [of]

theorem Turns.of_cons_ne {i j : ι} (hij : j ≠ i) (m : Moment σ) (past : List (ι × Moment σ)) :
    of i ((j, m) :: past) = of i past := by
  simp [of, hij]

/-- A program may run to its end without anybody else acting, with the exchanges that it has by
itself and no others. -/
theorem Turns.finish_exchanges {h : Handler σ} {others : σ → σ → Prop} {start : ι → Program α}
    {s₀ s : σ} {past : List (ι × Moment σ)} {programs : ι → Program α}
    (run : Turns h others start s₀ past s programs) (i : ι) :
    ∃ past', (of i past').map Moment.toExchange =
        ((programs i).exchanges h s).reverse ++ (of i past).map Moment.toExchange ∧
      (∀ j, j ≠ i → of j past' = of j past) ∧
      Turns h others start s₀ past' ((programs i).run h s).2
        (Function.update programs i (.done ((programs i).run h s).1)) := by
  generalize hp : programs i = p
  -- the requests of the program are answered one by one with nobody in between
  induction p generalizing past s programs with
  | done a =>
    refine ⟨past, rfl, fun _ _ => rfl, ?_⟩
    rw [Program.run, ← hp, Function.update_eq_self]
    exact run
  | step r next ih =>
    obtain ⟨past', hpast, hothers, run'⟩ :=
      ih (h.answer r s).1 (run.own i hp) (Function.update_self ..)
    rw [Function.update_idem] at run'
    refine ⟨past', ?_, fun j hj => (hothers j hj).trans (of_cons_ne hj.symm _ _), run'⟩
    rw [hpast, of_cons_self, Program.exchanges, List.reverse_cons, List.append_assoc]
    rfl

/-- A program may run to its end without anybody else acting. -/
theorem Turns.finish {h : Handler σ} {others : σ → σ → Prop} {start : ι → Program α} {s₀ s : σ}
    {past : List (ι × Moment σ)} {programs : ι → Program α}
    (run : Turns h others start s₀ past s programs) (i : ι) :
    ∃ past', Turns h others start s₀ past' ((programs i).run h s).2
      (Function.update programs i (.done ((programs i).run h s).1)) := by
  obtain ⟨past', -, -, run'⟩ := run.finish_exchanges i
  exact ⟨past', run'⟩

end

/-- What a program guarantees whatever the answers are, it guarantees in turns with others. -/
theorem Turns.of_wp_noting {ι σ α : Type} [DecidableEq ι] {h : Handler σ} {others : σ → σ → Prop}
    {start : ι → Program α} {s₀ s : σ} {past : List (ι × Moment σ)} {programs : ι → Program α}
    {post : ι → α → List Exchange → Prop} (hstart : ∀ i, (start i).wp .noting (post i) [])
    (run : Turns h others start s₀ past s programs) (i : ι) :
    (programs i).wp .noting (post i) ((of i past).map Moment.toExchange) := by
  induction run generalizing i with
  | start => exact hstart i
  | @own past s programs j r next _ hj ih =>
    -- a turn of this program is one step of its conditions; others leave its log alone
    by_cases hij : j = i
    · subst hij
      have hwp := ih j
      rw [hj] at hwp
      rw [of_cons_self, Function.update_self, List.map_cons]
      exact hwp (h.answer r s).1
    · rw [of_cons_ne hij, Function.update_of_ne (Ne.symm hij)]
      exact ih i
  | others _ _ ih => exact ih i

/-! ### Programs amid others -/

/-- What a program knows and owes: the states that are possible after its own moments, and what
its moments have to be like. -/
structure Terms (σ : Type) where
  possible : List (Moment σ) → σ → Prop
  promise : List (Moment σ) → Prop

/-- What is known of a request in a state that is merely possible, provided that the promise is
kept. -/
def Meaning.amid {σ : Type} (h : Handler σ) (t : Terms σ) : Meaning (List (Moment σ)) :=
  fun r post past => ∀ s, t.possible past s →
    t.promise (h.moment r s :: past) ∧ post (h.answer r s).1 (h.moment r s :: past)

theorem Meaning.amid_monotone {σ : Type} (h : Handler σ) (t : Terms σ) : (amid h t).Monotone :=
  fun _ _ _ _ hpost hr s hs => ⟨(hr s hs).1, hpost _ _ (hr s hs).2⟩

/-- Whether possible states lead to possible ones, whoever acts: others, a program itself, or one of
the programs beside it. -/
structure Terms.Stable {ι σ : Type} (t : ι → Terms σ) (h : Handler σ) (others : σ → σ → Prop) :
    Prop where
  others : ∀ i past s s', (t i).possible past s → others s s' → (t i).possible past s'
  own : ∀ i past r s, (t i).possible past s → (t i).promise (h.moment r s :: past) →
    (t i).possible (h.moment r s :: past) (h.answer r s).2
  beside : ∀ i j, i ≠ j → ∀ past past' r s, (t i).possible past s → (t j).possible past' s →
    (t j).promise (h.moment r s :: past') → (t i).possible past (h.answer r s).2

/-- Programs that guarantee something amid others do so in every run: at any time the state is
possible for each of them, the promises are kept, and what is left of a program guarantees what the
whole of it did. -/
theorem Turns.keeps {ι σ α : Type} [DecidableEq ι] {t : ι → Terms σ} {h : Handler σ}
    {others : σ → σ → Prop} {start : ι → Program α} {s₀ s : σ}
    {post : ι → α → List (Moment σ) → Prop} {past : List (ι × Moment σ)}
    {programs : ι → Program α} (hstable : Terms.Stable t h others)
    (hpossible : ∀ i, (t i).possible [] s₀) (hpromise : ∀ i, (t i).promise [])
    (hstart : ∀ i, (start i).wp (.amid h (t i)) (post i) [])
    (run : Turns h others start s₀ past s programs) (i : ι) :
    (t i).possible (of i past) s ∧ (t i).promise (of i past) ∧
      (programs i).wp (.amid h (t i)) (post i) (of i past) := by
  induction run generalizing i with
  | start => exact ⟨hpossible i, hpromise i, hstart i⟩
  | @own past s programs j r next _ hj ih =>
    obtain ⟨hs, _, hwp⟩ := ih j
    rw [hj] at hwp
    obtain ⟨hkept, hnext⟩ := hwp s hs
    by_cases hij : j = i
    · -- the program itself
      subst hij
      rw [of_cons_self, Function.update_self]
      exact ⟨hstable.own j _ r s hs hkept, hkept, hnext⟩
    · -- a program beside it, which has made no request
      obtain ⟨hs', hpromise', hwp'⟩ := ih i
      rw [of_cons_ne hij, Function.update_of_ne (Ne.symm hij)]
      exact ⟨hstable.beside i j (Ne.symm hij) _ _ r s hs' hs hkept, hpromise', hwp'⟩
  | others _ hothers ih =>
    obtain ⟨hs, hpromise', hwp⟩ := ih i
    exact ⟨hstable.others i _ _ _ hs hothers, hpromise', hwp⟩

end ModelKeeper

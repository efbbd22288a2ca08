import ModelKeeper.Proofs.Operator.Change

/-!
# Amendments where nobody else writes

An amendment of an object in a cluster that nobody else writes (`Meaning.Owns`) loses to injected
conflicts only.  Each of its attempts but the last uses up one of them, so all that matters is
whether there are fewer conflicts than attempts: `Change.wp_amend_owned`.  If a change has something
to write at any time or at none, then there is nothing to write and nothing lost, or the amendment
goes through, or all attempts are used up: `Change.wp_amend_steady`.
-/

namespace ModelKeeper

variable {ε : Type} {k : Kind} {half : Half} {key : Key} {change : Change k} {c : Cluster}
  {o : Object k} {e : ε}

/-- Whether what is under a key is read and written in a cluster that nobody else writes.

At the point `e` the cluster is `c` if `within c e`.  `wrote o answer c e` says so of a point behind
a write of `o` and the answer to it, and `shows` says what the clock may show. -/
structure Meaning.Owns (m : Meaning ε) (half : Half) (k : Kind) (key : Key)
    (shows : Instant → Prop) (within : Cluster → ε → Prop)
    (wrote : Object k → Except AccessError (Object k) → Cluster → ε → Prop) : Prop where
  get (c : Cluster) (e : ε) (post : Except AccessError (Object k) → ε → Prop) :
    within c e → (∀ e', within c e' → post (c.get k key) e') → m (.get k key) post e
  now (c : Cluster) (e : ε) (post : Instant → ε → Prop) :
    within c e → (∀ now e', shows now → within c e' → post now e') → m .now post e
  write (o : Object k) (c : Cluster) (e : ε) (post : Except AccessError (Object k) → ε → Prop) :
    within c e →
    (∀ e', wrote o (half.put c o).1 (half.put c o).2 e' → post (half.put c o).1 e') →
    (half.write o).outcome.wp m post e
  refused (o : Object k) (err : AccessError) (c : Cluster) (e : ε) :
    wrote o (.error err) c e → within c e

namespace Change

/-- The object that an undisturbed amendment stores. -/
def result (change : Change k) (half : Half) (c : Cluster) (stored : Object k) (now : Instant) :
    Object k :=
  half.replaced stored (change now stored.settled).1 c.nextVersion.versionText

variable {m : Meaning ε} {shows : Instant → Prop} {within : Cluster → ε → Prop}
  {wrote : Object k → Except AccessError (Object k) → Cluster → ε → Prop}
  {post : Except AccessError (Object k) → ε → Prop}
  (howns : m.Owns half k key shows within wrote) (hproper : change.Proper) (hplace : o.IsAt key)
include howns hproper hplace

theorem wp_attempt_owned (hs : c.stored? k key = some o) (he : within c e)
    {onConflict : AccessError → Program (Except AccessError (Object k))}
    (hsame : ∀ now e', shows now → (change now o.settled).2 = false → within c e' →
      post (.ok (change now o.settled).1) e')
    (hput : ∀ now e', shows now → (change now o.settled).2 = true → c.injectedConflicts = 0 →
      wrote (change now o.settled).1 (.ok (change.result half c o now).settled)
        (({ c with injectedConflicts := 0 } : Cluster).nextVersion.putBack half key
          (change.result half c o now)) e' →
      post (.ok (change.result half c o now).settled) e')
    (hconflict : ∀ now e', shows now → (change now o.settled).2 = true →
      c.injectedConflicts ≠ 0 →
      within { c with injectedConflicts := c.injectedConflicts - 1 } e' →
      (onConflict (.conflict k.name key "injected conflict")).wp m post e') :
    (amend.attempt half k key change onConflict).wp m post e := by
  rw [amend.wp_attempt]
  refine howns.get c e _ he fun e' he' => ?_
  rw [Cluster.get_of_stored hs, Attempt.unlessFailed_ok]
  refine howns.now c e' _ he' fun now e' hnow he' => ?_
  cases hchange : (change now o.settled).2 with
  | false =>
    rw [if_neg Bool.false_ne_true]
    exact hsame now e' hnow hchange he'
  | true =>
    have hplace' := hproper.isAt hplace.settled now
    have hversion := hproper.version now o.settled
    rw [if_pos rfl]
    refine howns.write _ c e' _ he' fun e' hwrote => ?_
    -- with no injected conflict the write is accepted: nobody else has the cluster
    by_cases hc : c.injectedConflicts = 0
    · have hnone : ({ c with injectedConflicts := 0 } : Cluster) = c := by rw [← hc]
      rw [Half.put_fresh hplace' hs hc (.inr hversion)] at hwrote ⊢
      exact hput now e' hnow hchange hc (by rwa [hnone])
    · rw [Half.put_injected hplace' hs hc] at hwrote ⊢
      exact hconflict now e' hnow hchange hc (howns.refused _ _ _ _ hwrote)

theorem wp_go_owned (retries : Nat) {c : Cluster} {e : ε} (hs : c.stored? k key = some o)
    (he : within c e)
    (hsame : ∀ now lost e', shows now → (change now o.settled).2 = false →
      lost ≤ c.injectedConflicts →
      (lost = 0 ∨ ∃ now, shows now ∧ (change now o.settled).2 = true) →
      within { c with injectedConflicts := c.injectedConflicts - lost } e' →
      post (.ok (change now o.settled).1) e')
    (hput : ∀ now e', shows now → (change now o.settled).2 = true →
      c.injectedConflicts ≤ retries →
      wrote (change now o.settled).1 (.ok (change.result half c o now).settled)
        (({ c with injectedConflicts := 0 } : Cluster).nextVersion.putBack half key
          (change.result half c o now)) e' →
      post (.ok (change.result half c o now).settled) e')
    (hconflict : ∀ now e', shows now → (change now o.settled).2 = true →
      retries < c.injectedConflicts →
      within { c with injectedConflicts := c.injectedConflicts - (retries + 1) } e' →
      post (.error (.conflict k.name key "injected conflict")) e') :
    (amend.go half k key change retries).wp m post e := by
  induction retries generalizing c e with
  | zero =>
    exact wp_attempt_owned howns hproper hplace hs he
      (fun now e' hnow hfalse => hsame now 0 e' hnow hfalse (Nat.zero_le _) (.inl rfl))
      (fun now e' hnow htrue hc => hput now e' hnow htrue (Nat.le_of_eq hc))
      fun now e' hnow htrue hc => hconflict now e' hnow htrue (Nat.pos_of_ne_zero hc)
  | succ retries ih =>
    refine wp_attempt_owned howns hproper hplace hs he
      (fun now e' hnow hfalse => hsame now 0 e' hnow hfalse (Nat.zero_le _) (.inl rfl))
      (fun now e' hnow htrue hc => hput now e' hnow htrue (hc ▸ Nat.zero_le _))
      fun now e' hnow htrue hc he' => ?_
    -- one of the conflicts is used up
    have hs' : ({ c with injectedConflicts := c.injectedConflicts - 1 } : Cluster).stored? k key =
        some o := hs
    refine ih hs' he' (fun now' lost e'' hnow' hfalse hle _ he'' => ?_)
      (fun now' e'' hnow' htrue' hle => hput now' e'' hnow' htrue' (Nat.le_add_of_sub_le hle))
      fun now' e'' hnow' htrue' hlt he'' => ?_
    · refine hsame now' (lost + 1) e'' hnow' hfalse ?_ (.inr ⟨now, hnow, htrue⟩) ?_
      · exact Nat.add_le_of_le_sub (Nat.one_le_iff_ne_zero.2 hc) hle
      · rwa [Nat.add_comm lost, ← Nat.sub_sub]
    · refine hconflict now' e'' hnow' htrue' (Nat.add_lt_of_lt_sub hlt) ?_
      rwa [Nat.add_comm (retries + 1), ← Nat.sub_sub]

/-- What becomes of an object that is amended: there was nothing to write at the time of one of the
attempts; or it is written, after the injected conflicts; or they use up all attempts. -/
theorem wp_amend_owned (attempts : Nat) (hs : c.stored? k key = some o) (he : within c e)
    (hsame : ∀ now lost e', shows now → (change now o.settled).2 = false →
      lost ≤ c.injectedConflicts →
      (lost = 0 ∨ ∃ now, shows now ∧ (change now o.settled).2 = true) →
      within { c with injectedConflicts := c.injectedConflicts - lost } e' →
      post (.ok (change now o.settled).1) e')
    (hput : ∀ now e', shows now → (change now o.settled).2 = true →
      c.injectedConflicts < max attempts 1 →
      wrote (change now o.settled).1 (.ok (change.result half c o now).settled)
        (({ c with injectedConflicts := 0 } : Cluster).nextVersion.putBack half key
          (change.result half c o now)) e' →
      post (.ok (change.result half c o now).settled) e')
    (hconflict : ∀ now e', shows now → (change now o.settled).2 = true →
      max attempts 1 ≤ c.injectedConflicts →
      within { c with injectedConflicts := c.injectedConflicts - max attempts 1 } e' →
      post (.error (.conflict k.name key "injected conflict")) e') :
    (amend half k key attempts change).wp m post e := by
  have htries : max attempts 1 = attempts - 1 + 1 := by omega
  rw [htries] at hput hconflict
  unfold amend
  rw [Attempt.wp_of]
  exact wp_go_owned howns hproper hplace _ hs he hsame
    (fun now e' hnow htrue hle => hput now e' hnow htrue (Nat.lt_succ_of_le hle)) hconflict

/-- The same for a change that has something to write at any time or at none. -/
theorem wp_amend_steady {changed : Bool}
    (hflag : ∀ now, shows now → (change now o.settled).2 = changed) (attempts : Nat)
    (hs : c.stored? k key = some o) (he : within c e)
    (hsame : ∀ now e', shows now → changed = false → within c e' →
      post (.ok (change now o.settled).1) e')
    (hput : ∀ now e', shows now → changed = true → c.injectedConflicts < max attempts 1 →
      wrote (change now o.settled).1 (.ok (change.result half c o now).settled)
        (({ c with injectedConflicts := 0 } : Cluster).nextVersion.putBack half key
          (change.result half c o now)) e' →
      post (.ok (change.result half c o now).settled) e')
    (hconflict : ∀ e', changed = true → max attempts 1 ≤ c.injectedConflicts →
      within { c with injectedConflicts := c.injectedConflicts - max attempts 1 } e' →
      post (.error (.conflict k.name key "injected conflict")) e') :
    (amend half k key attempts change).wp m post e := by
  refine wp_amend_owned howns hproper hplace attempts hs he
    (fun now lost e' hnow hfalse _ hlost he' => ?_)
    (fun now e' hnow htrue => hput now e' hnow ((hflag now hnow).symm.trans htrue))
    fun now e' hnow htrue => hconflict e' ((hflag now hnow).symm.trans htrue)
  have hfalse : changed = false := (hflag now hnow).symm.trans hfalse
  obtain rfl | ⟨now', hnow', htrue⟩ := hlost
  · exact hsame now e' hnow hfalse he'
  · rw [hflag now' hnow', hfalse] at htrue
    cases htrue

end Change

end ModelKeeper

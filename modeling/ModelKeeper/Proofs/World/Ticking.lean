import ModelKeeper.Proofs.Operator.Amend
import ModelKeeper.Proofs.World.Alone

/-!
# A world of its own whose clock runs

In a world that nobody else acts on, everything is known of a run but what the clock shows.
`Meaning.ofWorld` says what is known of a request then, and `Meaning.noted` adds the exchanges of
the run to what is known.  Both hold for runs under `World.ticking`, whatever its clock shows
(`Program.ticking_of_wp`).

A change that is one at any time or at none comes to exactly this when an object is amended with it
(`Change.wp_amend_noted`): nothing; or one write, after all the injected conflicts, which is the
last exchange; or as many conflicts as there are attempts, and then no object has changed.
-/

namespace ModelKeeper

variable {σ α δ ε : Type} {v : Vendors σ} {k : Kind} {key : Key} {w : World σ} {o : Object k}

namespace Meaning

/-- What is known of requests in a world that nobody else acts on. -/
def ofWorld (v : Vendors σ) : Meaning (World σ)
  | .now, post, w => ∀ now, post now w
  | r, post, w => post (World.answer v r w).1 (World.answer v r w).2

/-- What is known of requests, and the exchanges, the last one first. -/
def noted (m : Meaning ε) : Meaning (ε × List Exchange) := fun r post s =>
  m r (fun answer e => post answer (e, ⟨r, answer⟩ :: s.2)) s.1

theorem ofWorld_monotone (v : Vendors σ) : (ofWorld v).Monotone := by
  intro r post post' w hpost h
  cases r with
  | now => exact fun now => hpost _ _ (h now)
  | _ => exact hpost _ _ h

section OfWorld

variable (v : Vendors σ) (w : World σ)

@[simp]
theorem ofWorld_get (k : Kind) (key : Key) (post) :
    ofWorld v (.get k key) post w = post (w.cluster.get k key) w := rfl

@[simp]
theorem ofWorld_create {k : Kind} (o : Object k) (post) :
    ofWorld v (.create k o) post w =
      post (w.cluster.create o).1 { w with cluster := (w.cluster.create o).2 } := rfl

@[simp]
theorem ofWorld_now (post) : ofWorld v .now post w = ∀ now, post now w := rfl

@[simp]
theorem ofWorld_emit (e : Event) (post) :
    ofWorld v (.emit e) post w = post () { w with events := e :: w.events } := rfl

@[simp]
theorem ofWorld_count (m : Metric) (post) :
    ofWorld v (.count m) post w = post () { w with counters := w.counters.increment m } := rfl

theorem noted_ofWorld_get (k : Kind) (key : Key) (past : List Exchange) (post) :
    (ofWorld v).noted (.get k key) post (w, past) =
      post (w.cluster.get k key) (w, ⟨.get k key, w.cluster.get k key⟩ :: past) := rfl

end OfWorld

end Meaning

namespace Program

/-- What is known without the exchanges is known with them. -/
theorem wp_noted (m : Meaning ε) (post : α → ε → Prop) (p : Program α) (e : ε)
    (past : List Exchange) : p.wp m.noted (fun a s => post a s.1) (e, past) = p.wp m post e := by
  induction p generalizing e past with
  | done a => rfl
  | step r next ih =>
    exact congrArg (fun q => m r q e) (funext fun answer => funext fun e => ih answer e _)

/-- What is known of a program in a world of its own is true of its run, whatever the clock
shows. -/
theorem ticking_of_wp (clock : Nat → Instant) (looks : Nat)
    {post : α → World σ × List Exchange → Prop} (p : Program α) {past : List Exchange}
    (hp : p.wp (Meaning.ofWorld v).noted post (w, past)) :
    post (p.run (World.ticking v clock) (w, looks)).1
      ((p.run (World.ticking v clock) (w, looks)).2.1,
        (p.exchanges (World.ticking v clock) (w, looks)).reverse ++ past) := by
  induction p generalizing w looks past with
  | done a => exact hp
  | step r next ih =>
    have hanswer : ((next ((World.ticking v clock).answer r (w, looks)).1).wp
        (Meaning.ofWorld v).noted post
        (((World.ticking v clock).answer r (w, looks)).2.1,
          ⟨r, ((World.ticking v clock).answer r (w, looks)).1⟩ :: past)) := by
      cases r with
      | now => exact hp (clock looks)
      | _ => exact hp
    have hnext := ih _ ((World.ticking v clock).answer r (w, looks)).2.2 hanswer
    rwa [exchanges, List.reverse_cons, List.append_assoc, List.singleton_append]

/-- The same for what is known without the exchanges. -/
theorem ticking_run_of_wp (clock : Nat → Instant) (looks : Nat) {post : α → World σ → Prop}
    (p : Program α) (hp : p.wp (.ofWorld v) post w) :
    post (p.run (World.ticking v clock) (w, looks)).1
      (p.run (World.ticking v clock) (w, looks)).2.1 := by
  rw [← wp_noted (.ofWorld v) post p w []] at hp
  exact ticking_of_wp clock looks p hp

end Program

@[simp]
theorem Objects.wp_find?_ofWorld (post : Except AccessError (Option (Object k)) → World σ → Prop) :
    (find? k key).wp (.ofWorld v) post w =
      post (.ok ((w.cluster.stored? k key).map Object.settled)) w := by
  unfold find?
  simp only [Attempt.wp_of, Program.wp_bind', Program.ask, Program.wp_step, Program.wp_done,
    Meaning.ofWorld_get, Cluster.get]
  cases w.cluster.stored? k key <;> rfl

/-! ### Amending an object -/

/-- Whether none of these exchanges is a write that went through. -/
def Exchange.NoCommit (xs : List Exchange) : Prop := ∀ x ∈ xs, ¬ x.IsCommit

theorem Exchange.NoCommit.cons {x : Exchange} {xs : List Exchange} (h : NoCommit xs)
    (hx : ¬ x.IsCommit) : NoCommit (x :: xs) := List.forall_mem_cons.2 ⟨hx, h⟩

namespace Meaning

/-- In a world that nobody else acts on. -/
theorem owns_ofWorld (v : Vendors σ) (w : World σ) (half : Half) (k : Kind) (key : Key) :
    (ofWorld v).Owns half k key (fun _ => True) (fun c w' => w' = { w with cluster := c })
      fun _ _ c w' => w' = { w with cluster := c } where
  get _ _ _ hw h := hw ▸ h _ rfl
  now _ _ _ hw h now := hw ▸ h now _ trivial rfl
  write o c w' post hw h := by
    subst hw
    have hpost := h _ rfl
    cases half <;> exact hpost
  refused _ _ _ _ hw := hw

/-- With the exchanges after those of the past: none of them is a write that went through but,
behind a write, that one. -/
theorem Owns.noted {m : Meaning ε} {half : Half} {shows : Instant → Prop}
    {within : Cluster → ε → Prop}
    {wrote : Object k → Except AccessError (Object k) → Cluster → ε → Prop}
    (howns : m.Owns half k key shows within wrote) (past : List Exchange) :
    m.noted.Owns half k key shows
      (fun c s => within c s.1 ∧ ∃ earlier, Exchange.NoCommit earlier ∧ s.2 = earlier ++ past)
      fun o answer c s => wrote o answer c s.1 ∧ ∃ earlier x, Exchange.NoCommit earlier ∧
        x.Writes o answer half ∧ s.2 = x :: earlier ++ past where
  get c s post hs h := by
    obtain ⟨hs, earlier, hearlier, hpast⟩ := hs
    refine howns.get c s.1 _ hs fun e he => h _ ⟨he, _ :: earlier, ?_, congrArg _ hpast⟩
    exact hearlier.cons fun hcommit => by cases hcommit
  now c s post hs h := by
    obtain ⟨hs, earlier, hearlier, hpast⟩ := hs
    refine howns.now c s.1 _ hs fun now e hnow he =>
      h now _ hnow ⟨he, _ :: earlier, ?_, congrArg _ hpast⟩
    exact hearlier.cons fun hcommit => by cases hcommit
  write o c s post hs h := by
    obtain ⟨hs, earlier, hearlier, hpast⟩ := hs
    -- the write is the newest exchange, and none before it has committed
    cases half with
    | body =>
      exact howns.write o c s.1 (fun answer e => post answer (e, ⟨.update k o, answer⟩ :: s.2)) hs
        fun e he => h _ ⟨he, earlier, _, hearlier, .body, congrArg _ hpast⟩
    | status =>
      exact howns.write o c s.1
        (fun answer e => post answer (e, ⟨.updateStatus k o, answer⟩ :: s.2)) hs
        fun e he => h _ ⟨he, earlier, _, hearlier, .status, congrArg _ hpast⟩
  refused o err c s hs := by
    obtain ⟨hs, earlier, x, hearlier, hx, hpast⟩ := hs
    refine ⟨howns.refused o err c s.1 hs, x :: earlier, hearlier.cons fun hcommit => ?_, hpast⟩
    obtain ⟨written, hwritten⟩ := hx.isCommit.1 hcommit
    cases hwritten

end Meaning

namespace Change

variable {half : Half} {change : Change k} {past : List Exchange}
  {post : Except AccessError (Object k) → World σ × List Exchange → Prop}

theorem wp_amend_absent_noted (hs : w.cluster.stored? k key = none) (attempts : Nat)
    (hpost : post (.error (.notFound k.name key))
      (w, ⟨.get k key, .error (.notFound k.name key)⟩ :: past)) :
    (amend half k key attempts change).wp (Meaning.ofWorld v).noted post (w, past) := by
  have hget : w.cluster.get k key = .error (.notFound k.name key) := by simp [Cluster.get, hs]
  have hattempt : ∀ onConflict, (amend.attempt half k key change onConflict).wp
      (Meaning.ofWorld v).noted post (w, past) := by
    intro onConflict
    rw [amend.wp_attempt, Meaning.noted_ofWorld_get, hget]
    exact hpost
  unfold amend
  rw [Attempt.wp_of]
  cases attempts - 1 <;> exact hattempt _

variable {changed : Bool}

/-- What becomes of an object that is amended, of the world around it, and what was done. -/
theorem wp_amend_noted (hproper : change.Proper) (hs : w.cluster.stored? k key = some o)
    (hplace : o.IsAt key) (hflag : ∀ now, (change now o.settled).2 = changed) (attempts : Nat)
    (hsame : ∀ now earlier, changed = false → Exchange.NoCommit earlier →
      post (.ok (change now o.settled).1) (w, earlier ++ past))
    (hput : ∀ now earlier x, changed = true → w.cluster.injectedConflicts < max attempts 1 →
      Exchange.NoCommit earlier →
      x.Writes (change now o.settled).1 (.ok (change.result half w.cluster o now).settled) half →
      post (.ok (change.result half w.cluster o now).settled)
        ({ w with
          cluster := ({ w.cluster with injectedConflicts := 0 } : Cluster).nextVersion.putBack half
            key (change.result half w.cluster o now) }, x :: earlier ++ past))
    (hconflict : ∀ earlier, changed = true → max attempts 1 ≤ w.cluster.injectedConflicts →
      Exchange.NoCommit earlier →
      post (.error (.conflict k.name key "injected conflict"))
        ({ w with
          cluster := { w.cluster with
            injectedConflicts := w.cluster.injectedConflicts - max attempts 1 } },
        earlier ++ past)) :
    (amend half k key attempts change).wp (Meaning.ofWorld v).noted post (w, past) := by
  refine wp_amend_steady ((Meaning.owns_ofWorld v w half k key).noted past) hproper hplace
    (fun now _ => hflag now) attempts hs ⟨rfl, [], List.forall_mem_nil _, rfl⟩
    (fun now ⟨_, _⟩ _ hfalse hpoint => ?_) (fun now ⟨_, _⟩ _ htrue hlt hpoint => ?_)
    fun ⟨_, _⟩ htrue hle hpoint => ?_
  · obtain ⟨rfl, earlier, hearlier, rfl⟩ := hpoint
    exact hsame now earlier hfalse hearlier
  · obtain ⟨rfl, earlier, x, hearlier, hx, rfl⟩ := hpoint
    exact hput now earlier x htrue hlt hearlier hx
  · obtain ⟨rfl, earlier, hearlier, rfl⟩ := hpoint
    exact hconflict earlier htrue hle hearlier

/-- What becomes of an object that is amended, and of the world around it. -/
theorem wp_amend_ofWorld {post : Except AccessError (Object k) → World σ → Prop}
    (hproper : change.Proper) (hs : w.cluster.stored? k key = some o) (hplace : o.IsAt key)
    (hflag : ∀ now, (change now o.settled).2 = changed) (attempts : Nat)
    (hsame : ∀ now, changed = false → post (.ok (change now o.settled).1) w)
    (hput : ∀ now, changed = true → w.cluster.injectedConflicts < max attempts 1 →
      post (.ok (change.result half w.cluster o now).settled)
        { w with
          cluster := ({ w.cluster with injectedConflicts := 0 } : Cluster).nextVersion.putBack half
            key (change.result half w.cluster o now) })
    (hconflict : changed = true → max attempts 1 ≤ w.cluster.injectedConflicts →
      post (.error (.conflict k.name key "injected conflict"))
        { w with
          cluster := { w.cluster with
            injectedConflicts := w.cluster.injectedConflicts - max attempts 1 } }) :
    (amend half k key attempts change).wp (.ofWorld v) post w :=
  wp_amend_steady (Meaning.owns_ofWorld v w half k key) hproper hplace (fun now _ => hflag now)
    attempts hs rfl (fun now _ _ hfalse hw => hw ▸ hsame now hfalse)
    (fun now _ _ htrue hlt hw => hw ▸ hput now htrue hlt) fun _ htrue hle hw =>
      hw ▸ hconflict htrue hle

/-- What a change of the status comes to. -/
theorem wp_record_ofWorld {post : Except AccessError (Object k) → World σ → Prop}
    (hstatus : change.OfStatus) (hs : w.cluster.stored? k key = some o) (hplace : o.IsAt key)
    (hflag : ∀ now, (change now o.settled).2 = changed) (attempts : Nat)
    (hsame : changed = false → ∀ a, post (.ok a) w)
    (hput : ∀ now, changed = true → w.cluster.injectedConflicts < max attempts 1 →
      ∀ a, post (.ok a)
        { w with cluster := w.cluster.withStatus key o (change now o.settled).1.status })
    (hconflict : changed = true → max attempts 1 ≤ w.cluster.injectedConflicts →
      post (.error (.conflict k.name key "injected conflict"))
        { w with
          cluster := { w.cluster with
            injectedConflicts := w.cluster.injectedConflicts - max attempts 1 } }) :
    (amend .status k key attempts change).wp (.ofWorld v) post w := by
  refine wp_amend_ofWorld hstatus.proper hs hplace hflag attempts (fun _ hfalse => hsame hfalse _)
    (fun now htrue hlt => ?_) hconflict
  have hput := hput now htrue hlt (change.result .status w.cluster o now).settled
  rw [Cluster.putBack_status]
  exact hput

end Change

end ModelKeeper

import ModelKeeper.Proofs.Pass.Quiet
import ModelKeeper.Proofs.Program.Beside
import ModelKeeper.Proofs.Program.Settling
import ModelKeeper.Proofs.World.Alone

/-!
# Worlds beside each other

Programs that run in two worlds, each of which nobody else acts on, with one time on both clocks
(`World.At`).  What goes out of the worlds is answered in the same way if the vendors are steady
(`World.beside_outward`), and so are inquiries if secrets and workers are the same
(`World.inquires_beside`).

Reads and amendments do not show outside (`Objects.beside_find?`, `Change.beside_amend`).
-/

namespace ModelKeeper

variable {σ : Type} {v : Vendors σ} {k : Kind} {key : Key} {time : Instant}
  {I J : Cluster → Cluster → Prop} {s t : World σ}

/-- Whether both clocks show this time, and what is said of the clusters is true. -/
structure World.At (time : Instant) (I : Cluster → Cluster → Prop) (s t : World σ) : Prop where
  clock : s.clock = time
  clock' : t.clock = time
  clusters : I s.cluster t.cluster

namespace World

theorem At.mono (h : At time I s t) (hI : ∀ c d, I c d → J c d) : At time J s t :=
  ⟨h.clock, h.clock', hI _ _ h.clusters⟩

/-- What goes out has the same answer, and leaves the clusters alone. -/
theorem beside_outward (hv : v.Steady) (r : Request) (hr : r.isOutward = true)
    (h : At time I s t) :
    (Program.ask r).Beside (handler v) (Program.Even (At time I)) (Program.ask r) s t := by
  -- steady vendors answer by the request alone
  have hanswer : (answer v r t).1 = (answer v r s).1 := by
    cases r with
    | validate c options =>
      obtain ⟨reply, hreply⟩ := hv.validate c options
      exact (hreply t.vendors).trans (hreply s.vendors).symm
    | call c payload =>
      obtain ⟨reply, hreply⟩ := hv.call c payload
      exact (hreply t.vendors).trans (hreply s.vendors).symm
    | emit | count | connect => rfl
    | get | create | update | updateStatus | delete | now => cases hr
  have hquiet : r.IsQuiet := by
    cases r with
    | create | update | updateStatus | delete => cases hr
    | _ => trivial
  have hcluster : ∀ w : World σ, (answer v r w).2.cluster = w.cluster :=
    cluster_answer_of_isQuiet v hquiet
  refine .ask_outward r hanswer ⟨hanswer, ?_⟩
  exact ⟨(clock_answer v r s).trans h.clock, (clock_answer v r t).trans h.clock', by
    show I (answer v r s).2.cluster (answer v r t).2.cluster
    rw [hcluster, hcluster]
    exact h.clusters⟩

theorem beside_report (hv : v.Steady) (subject : Subject) (reason message : String)
    (h : At time I s t) : (report subject reason message).Beside (handler v)
      (Program.Even (At time I)) (report subject reason message) s t :=
  beside_outward hv (.emit _) rfl h

/-- Inquiries have the same answers. -/
theorem inquires_beside (hv : v.Steady) (time : Instant)
    (hsame : ∀ c d, I c d → ∀ k key, k = .secret ∨ k = .worker →
      d.stored? k key = c.stored? k key) :
    (Meaning.beside (handler v)).Inquires fun e => At time I e.1 e.2 where
  monotone := Meaning.beside_monotone _
  ask r hr e he := by
    -- inquiries read secrets and workers only, and on these the clusters agree
    cases hout : r.isOutward with
    | true =>
      have hask := beside_outward hv r hout he
      exact ⟨hask.ends.1, hask.ends.2⟩
    | false =>
      cases r with
      | get k key =>
        refine ⟨?_, he⟩
        show e.2.cluster.get k key = e.1.cluster.get k key
        unfold Cluster.get
        rw [hsame _ _ he.clusters k key hr]
      | now => exact ⟨he.clock'.trans he.clock.symm, he⟩
      | create | update | updateStatus | delete => exact hr.elim
      | emit | count | connect | validate | call => cases hout

/-- Both clocks show the same time. -/
theorem beside_now (h : At time I s t) :
    (Program.ask .now).Beside (handler v) (fun x y s t => x = time ∧ y = time ∧ At time I s t)
      (Program.ask .now) s t :=
  .ask_inward .now .now rfl rfl ⟨h.clock, h.clock', h⟩

end World

/-! ### Reading and amending -/

/-- Programs of which nothing is seen outside go beside each other, wherever they lead. -/
theorem Program.Beside.of_silent {τ α β : Type} {h : Handler τ} {post : α → β → τ → τ → Prop}
    {p : Program α} {q : Program β} {s t : τ}
    (hp : p.Keeps .noting fun past => past.filter (·.request.isOutward) = [])
    (hq : q.Keeps .noting fun past => past.filter (·.request.isOutward) = [])
    (hpost : post (p.run h s).1 (q.run h t).1 (p.run h s).2 (q.run h t).2) :
    Program.Beside h post p q s t where
  outward := by
    have hsilent : ∀ {γ : Type} (p : Program γ) (s : τ),
        p.Keeps .noting (fun past => past.filter (·.request.isOutward) = []) →
        p.outward h s = [] := by
      intro γ p s hp
      have hrun := Program.of_wp_noting h p s (hp [] rfl)
      rwa [List.append_nil, List.filter_reverse, List.reverse_eq_nil_iff] at hrun
    rw [hsilent p s hp, hsilent q t hq]
  ends := hpost

/-- Nothing but a request that is not outward. -/
theorem Program.keeps_silent_ask {r : Request} (hr : r.isOutward = false) :
    (Program.ask r).Keeps .noting fun past => past.filter (·.request.isOutward) = [] := by
  intro past hpast answer
  exact (List.filter_cons_of_neg (by simp [hr])).trans hpast

/-- Both sides find what there is. -/
theorem Objects.beside_find? (v : Vendors σ) (k : Kind) (key : Key) (s t : World σ) :
    (Objects.find? k key).Beside (World.handler v)
      (fun x y s' t' => x = (s.cluster.stored? k key).map Object.settled ∧
        y = (t.cluster.stored? k key).map Object.settled ∧ s = s' ∧ t = t')
      (fun _ _ => False) (Objects.find? k key) s t := by
  -- only the cluster is asked, so nothing of it is seen from outside
  have hkeeps : (Objects.find? k key).Keeps .noting
      fun past => past.filter (·.request.isOutward) = [] :=
    Program.Keeps.bind Meaning.noting_monotone (Program.keeps_silent_ask rfl) fun answer => by
      cases answer <;> exact fun _ hpast => hpast
  have hrun : ∀ w : World σ, (Objects.find? k key).outcome.run (World.handler v) w =
      (.ok ((w.cluster.stored? k key).map Object.settled), w) := by
    intro w
    have hwp : (Objects.find? k key).outcome.wp (World.handler v).meaning
        (fun r w' => r = .ok ((w.cluster.stored? k key).map Object.settled) ∧ w' = w) w := by
      rw [Attempt.wp_outcome, Objects.wp_find?_alone]
      exact ⟨rfl, rfl⟩
    rw [Program.wp_meaning] at hwp
    exact Prod.ext hwp.1 hwp.2
  refine .of_silent hkeeps hkeeps ?_
  rw [hrun, hrun]
  exact .ok ⟨rfl, rfl, rfl, rfl⟩

namespace Change

variable {half : Half} {change : Change k} {o : Object k}

theorem isDeleted_result (hproper : change.Proper) (half : Half) (c : Cluster) (o : Object k)
    (now : Instant) : (change.result half c o now).isDeleted = o.isDeleted := by
  obtain ⟨labels, annotations, finalizers, hmeta⟩ := hproper now o.settled
  cases half with
  | status => rfl
  | body =>
    simp only [result, Half.replaced, Cluster.merged, Object.isDeleted, hmeta,
      Object.settled_metadata]
    cases o.metadata.deletion <;> rfl

/-- The run of an amendment that nothing is in the way of. -/
theorem run_amend (v : Vendors σ) (hproper : change.Proper) (hclock : s.clock = time)
    (hs : s.cluster.stored? k key = some o) (hplace : o.IsAt key) (hdeleted : o.isDeleted = false)
    (hc : s.cluster.injectedConflicts = 0) (attempts : Nat) :
    ∃ x, (amend half k key attempts change).outcome.run (World.handler v) s =
      (.ok x, if (change time o.settled).2 then
        { s with
          cluster := s.cluster.nextVersion.store key (change.result half s.cluster o time) }
        else s) := by
  subst hclock
  have hnone : ({ s.cluster with injectedConflicts := 0 } : Cluster) = s.cluster := by rw [← hc]
  have hwp : (amend half k key attempts change).wp (World.handler v).meaning
      (fun r w => ∃ x, r = .ok x ∧ w = if (change s.clock o.settled).2 then
        { s with
          cluster := s.cluster.nextVersion.store key (change.result half s.cluster o s.clock) }
        else s) s := by
    -- without conflicts the first attempt is the last one
    refine wp_amend_alone hproper hs hplace attempts (fun hsame => ?_) (fun hput _ => ?_)
      fun _ hle => ?_
    · exact ⟨_, rfl, by rw [hsame]; rfl⟩
    · refine ⟨_, rfl, ?_⟩
      rw [if_pos hput, hnone, Cluster.putBack, isDeleted_result hproper, hdeleted,
        if_neg (by simp)]
    · omega
  rw [← Attempt.wp_outcome, Program.wp_meaning] at hwp
  obtain ⟨x, hresult, hworld⟩ := hwp
  exact ⟨x, Prod.ext hresult hworld⟩

/-- An amendment of an object that is the same on both sides: it is written on both, or not. -/
theorem beside_amend (v : Vendors σ) (hproper : change.Proper)
    (hs : s.cluster.stored? k key = some o) (ht : t.cluster.stored? k key = some o)
    (hplace : o.IsAt key) (hdeleted : o.isDeleted = false)
    (hc : s.cluster.injectedConflicts = 0) (hd : t.cluster.injectedConflicts = 0) (attempts : Nat)
    (h : World.At time I s t) (hsame : ∀ c d, I c d → J c d)
    (hput : J (s.cluster.nextVersion.store key (change.result half s.cluster o time))
      (t.cluster.nextVersion.store key (change.result half t.cluster o time))) :
    (amend half k key attempts change).Beside (World.handler v) (fun _ _ => World.At time J)
      (fun _ _ => False) (amend half k key attempts change) s t := by
  -- reads, looks at the clock and writes are no requests to the outside
  have hkeeps : (amend half k key attempts change).Keeps .noting
      fun past => past.filter (·.request.isOutward) = [] := by
    refine amend.keeps Meaning.noting_monotone (fun past hpast answer => ?_) attempts
    have hread : (⟨.get k key, answer⟩ :: past : List Exchange).filter
        (·.request.isOutward) = [] := hpast
    cases answer with
    | error e => exact hread
    | ok copy =>
      intro now
      split
      · cases half <;> exact fun answer => hpast
      · exact hpast
  obtain ⟨x, hrun⟩ := run_amend v hproper h.clock hs hplace hdeleted hc attempts
  obtain ⟨y, hrun'⟩ := run_amend v hproper h.clock' ht hplace hdeleted hd attempts
  refine .of_silent hkeeps hkeeps ?_
  rw [hrun, hrun']
  refine .ok ?_
  split
  · exact ⟨h.clock, h.clock', hput⟩
  · exact h.mono hsame

end Change

end ModelKeeper

import ModelKeeper.Proofs.Pass.Memo
import ModelKeeper.Proofs.Pass.Scheduling
import ModelKeeper.Proofs.Pass.Sendings.Ages
import ModelKeeper.Proofs.Pass.Sendings.Calls

/-!
# How often a prompt is sent

Passes run over one prompt, and between them users edit it, request its deletion and do anything at
all elsewhere (`Pass.Prompt.Course`).  All that the passes remember is the status of the prompt, so
an answer that could not be recorded is asked for again; but apart from that there is one answer to
a generation (`Pass.Prompt.sent_once`).

The invariant is `Pass.Prompt.Tallied`: while a prompt is not processed, all answers to its
generation have been lost.
-/

namespace ModelKeeper.Pass.Prompt

variable {σ : Type} {v : Vendors σ} {key : Key} {settings : Settings}

/-! ### What a pass does to the prompt -/

/-- What becomes of the prompt in a pass with this result: an active one is processed when the pass
is done, and an access is refused only after too many conflicts. -/
structure Conducts (key : Key) (settings : Settings) (c c' : Cluster)
    (r : Except Failure Directive) : Prop where
  proceeds : c.Proceeds key c'
  processed : r = .ok .done → ∀ o, Holds .prompt key .active c o →
    ∃ o' : Object .prompt, c'.stored? .prompt key = some o' ∧ o'.isProcessed = true
  refused : ∀ e, r = .error (.access e) → max settings.writeAttempts 1 ≤ c.injectedConflicts

namespace Conducts

variable {c c' : Cluster}

/-- A pass that is done has nothing more to say about a prompt that is not active. -/
theorem of_proceeds {d : Directive} (h : c.Proceeds key c')
    (hnot : ∀ o, ¬ Holds .prompt key .active c o) : Conducts key settings c c' (.ok d) :=
  ⟨h, fun _ o ho => absurd ho (hnot o), nofun⟩

theorem of_refused {e : Failure} (h : c.Proceeds key c')
    (hle : max settings.writeAttempts 1 ≤ c.injectedConflicts) :
    Conducts key settings c c' (.error e) :=
  ⟨h, nofun, fun _ _ => hle⟩

theorem of_failed {e : Failure} {d : Duration} (h : c.Proceeds key c') :
    Conducts key settings c c' (.error (e.withRequeue d)) :=
  ⟨h, nofun, fun _ he => by cases e <;> cases he⟩

end Conducts

theorem wp_run_active {s : World σ} {o : Object .prompt} (hplace : o.IsAt key)
    (hsome : o.metadata.generation.isSome) (h : Holds .prompt key .active s.cluster o) :
    (run settings key).wp (World.handler v).meaning
      (fun r s' => Conducts key settings s.cluster s'.cluster (resolve settings.intervals r))
      s := by
  obtain ⟨hs, hactive⟩ := h
  cases hprocessed : o.isProcessed with
  | true =>
    refine wp_run_processed hs hactive hprocessed ⟨.of_same rfl, fun _ o' h => ?_, nofun⟩
    obtain ⟨rfl, -⟩ := Holds.unique ⟨hs, hactive⟩ h
    exact ⟨o', hs, hprocessed⟩
  | false =>
    cases hsend : (send o.settled).outcome.run (World.handler v) s with
    | mk outcome s₁ =>
      have halone : s₁.cluster = s.cluster := by
        have halone := send_alone v o.settled s
        rwa [hsend] at halone
      have hsame : s₁.cluster.stored? .prompt key = s.cluster.stored? .prompt key := by
        rw [halone]
      -- what is recorded keeps the generation
      have hrecorded : ∀ status,
          s.cluster.Proceeds key (s₁.cluster.withStatus key o status) := fun status =>
        .kept hs (Cluster.stored?_withStatus ..) rfl fun h => by
          rw [hprocessed] at h
          cases h
      cases outcome with
      | ok bytes =>
        refine wp_run_answered hs hplace hactive hprocessed hsend (fun _ => ?_) fun hle _ =>
          .of_refused (.of_same hsame) (halone ▸ hle)
        refine ⟨hrecorded _, fun _ o' h => ⟨_, Cluster.stored?_withStatus .., ?_⟩, nofun⟩
        exact isProcessed_of_recorded (o := o) hsome rfl rfl
      | error e =>
        have hdeals : Worked.prompt.Deals e.conditionMessage settings key o s₁
            fun s' => s.cluster.Proceeds key s'.cluster :=
          ⟨fun _ => .of_same hsame, fun _ _ => hrecorded _, fun _ _ => .of_same hsame⟩
        refine Attempt.wp_mono (World.handler v).meaning_monotone ?_ _
          (wp_run_failing hs hplace hactive hprocessed hsend hdeals)
        rintro r s' ⟨rfl, hproceeds⟩
        rw [e.resolve_withRequeue]
        exact .of_failed hproceeds

theorem reconcile_conducts (v : Vendors σ) (settings : Settings) {s : World σ}
    (hplaced : s.cluster.Placed)
    (hsome : ∀ o : Object .prompt, s.cluster.stored? .prompt key = some o →
      o.metadata.generation.isSome) :
    Conducts key settings s.cluster
      ((reconcile .prompt settings key).run (World.handler v) s).2.cluster
      ((reconcile .prompt settings key).run (World.handler v) s).1 := by
  have hrun : (run settings key).wp (World.handler v).meaning
      (fun r s' => Conducts key settings s.cluster s'.cluster (resolve settings.intervals r))
      s := by
    cases hs : s.cluster.stored? .prompt key with
    | none =>
      refine wp_frame_absent_alone hs (.of_proceeds (.of_same rfl) fun o ho => ?_)
      cases hs.symm.trans ho.1
    | some o =>
      have hplace := hplaced _ _ o hs
      -- only an active prompt is sent; another one changes its finalizers at most
      by_cases hactive : Lifecycle.of o Kind.prompt.finalizer = .active
      · exact wp_run_active hplace (hsome o hs) ⟨hs, hactive⟩
      · have hnot : ∀ o', ¬ Holds .prompt key .active s.cluster o' := fun o' h => by
          obtain rfl := Option.some.inj (hs.symm.trans h.1)
          exact hactive h.2
        obtain ⟨g, hg⟩ := Option.isSome_iff_exists.1 (hsome o hs)
        have hbody : ∀ incoming : Object .prompt,
            incoming.metadata.deletion = o.metadata.deletion →
            s.cluster.Proceeds key (s.cluster.withBody key o incoming) := fun incoming hdeletion =>
          .of_merged hs hg (Cluster.stored?_withBody hdeletion ..)
            (by rw [Cluster.version_withBody]; exact Nat.lt_succ_self _)
        exact wp_frame_stored_alone hs hplace (fun h => absurd h hactive)
          (fun _ => .of_proceeds (.of_same rfl) hnot) (fun _ _ => .of_proceeds (hbody _ rfl) hnot)
          (fun _ _ => .of_proceeds (hbody _ rfl) hnot)
          fun hle _ => .of_refused (.of_same rfl) hle
  exact reconcile_of_run (w := .prompt)
    (fun r (s' : World σ) => Conducts key settings s.cluster s'.cluster r) hrun

/-! ### Passages -/

/-- A pass over a prompt that has run: with what settings, and in which world. -/
structure Passage (σ : Type) where
  settings : Settings
  before : World σ

namespace Passage

variable (v : Vendors σ) (key : Key) (p : Passage σ)

def result : Except Failure Directive :=
  ((reconcile .prompt p.settings key).run (World.handler v) p.before).1

def after : World σ := ((reconcile .prompt p.settings key).run (World.handler v) p.before).2

/-- What the vendors have answered. -/
def replies : List (Except ChatError Reply) :=
  ((reconcile .prompt p.settings key).exchanges (World.handler v) p.before).filterMap
    Exchange.reply?

/-- The generation of the prompt. -/
def generation? : Option Int :=
  (p.before.cluster.stored? .prompt key).bind (·.metadata.generation)

/-- Whether there was an answer and yet the pass failed. -/
def isLost : Bool := (p.replies v key).any Except.isOk && !(p.result v key).isOk

theorem asks : Asks (p.before.cluster.get .prompt key) (p.result v key) (p.replies v key) := by
  obtain ⟨read, replies, hbegun, hasks⟩ :=
    Program.of_wp_noting (World.handler v) _ p.before (wp_reconcile p.settings key)
  have hfirst : p.before.cluster.get .prompt key = read := by
    have h := hbegun.first
    rw [List.append_nil, List.getLast?_reverse] at h
    obtain ⟨rest, hrest⟩ := exchanges_eq_cons (World.handler v) .prompt p.settings key p.before
    rw [hrest] at h
    exact eq_of_heq (Exchange.mk.inj (Option.some.inj h)).2
  have hreplies : p.replies v key = replies.reverse := by
    have h := hbegun.replies
    rw [List.append_nil, List.filterMap_reverse] at h
    rw [← h, List.reverse_reverse]
    rfl
  rw [hfirst, hreplies]
  cases hasks with
  | silent => exact .silent
  | failed e hread hawaits => exact .failed e hread hawaits
  | answered reply hread hawaits hr => exact .answered reply hread hawaits hr

variable {v key p}

/-- What is read is the prompt as it is stored. -/
theorem awaits_of_read {o : Object .prompt} (hread : p.before.cluster.get .prompt key = .ok o)
    (h : Awaits o) : ∃ o, Holds .prompt key .active p.before.cluster o ∧ o.isProcessed = false := by
  obtain ⟨o, hs, rfl⟩ := Cluster.stored_of_get hread
  exact ⟨o, ⟨hs, h.active⟩, h.unprocessed⟩

/-- A pass calls a vendor once at most, and only for a prompt that is active and not processed. -/
theorem calls : (p.replies v key).length ≤ 1 ∧
    (p.replies v key ≠ [] →
      ∃ o, Holds .prompt key .active p.before.cluster o ∧ o.isProcessed = false) := by
  have hasks := p.asks v key
  generalize p.replies v key = replies at hasks ⊢
  cases hasks with
  | silent => exact ⟨by decide, fun h => absurd rfl h⟩
  | failed e hread hawaits => exact ⟨by simp, fun _ => awaits_of_read hread hawaits⟩
  | answered reply hread hawaits => exact ⟨by simp, fun _ => awaits_of_read hread hawaits⟩

theorem conducts (hplaced : p.before.cluster.Placed)
    (hsome : ∀ o : Object .prompt, p.before.cluster.stored? .prompt key = some o →
      o.metadata.generation.isSome) :
    Conducts key p.settings p.before.cluster (p.after v key).cluster (p.result v key) :=
  reconcile_conducts v p.settings hplaced hsome

/-- A pass with an answer has either recorded it, so that the prompt is processed, or it has lost it
to conflicts. -/
theorem of_answer (hconducts :
      Conducts key p.settings p.before.cluster (p.after v key).cluster (p.result v key))
    (h : (p.replies v key).any Except.isOk = true) :
    p.isLost v key = true ∧
        max p.settings.writeAttempts 1 ≤ p.before.cluster.injectedConflicts ∨
      p.isLost v key = false ∧ ∃ o' : Object .prompt,
        (p.after v key).cluster.stored? .prompt key = some o' ∧ o'.isProcessed = true := by
  have hasks := p.asks v key
  unfold isLost
  rw [h]
  generalize p.replies v key = replies at hasks h
  generalize p.result v key = r at hasks hconducts
  cases hasks with
  | silent => cases h
  | failed e => cases h
  | answered reply hread hawaits hr =>
    rcases hr with rfl | ⟨e, rfl⟩
    · obtain ⟨o, hholds, -⟩ := awaits_of_read hread hawaits
      exact .inr ⟨rfl, hconducts.processed rfl o hholds⟩
    · exact .inl ⟨rfl, hconducts.refused e rfl⟩

end Passage

/-! ### Runs -/

/-- What can come of a world when passes run over the prompt under a key, and others act between
them: the passes so far, the last one first, and the world. -/
inductive Course (v : Vendors σ) (key : Key) (w₀ : World σ) : List (Passage σ) → World σ → Prop
  | start : Course v key w₀ [] w₀
  | pass {past : List (Passage σ)} {w : World σ} (settings : Settings) :
    Course v key w₀ past w →
    Course v key w₀ (⟨settings, w⟩ :: past) (Passage.after v key ⟨settings, w⟩)
  | between {past : List (Passage σ)} {w w' : World σ} :
    Course v key w₀ past w → w.cluster.Tended key w'.cluster → Course v key w₀ past w'

/-- Whether a prompt has just been put under a key, by its users or as it was elsewhere. -/
inductive Seeded (key : Key) : Cluster → Prop
  | insert {c : Cluster} {o : Object .prompt} :
    c.Placed → o.IsAt key → Seeded key (c.insert o).2
  | create {c : Cluster} {o : Object .prompt} :
    c.Placed → o.IsAt key → c.stored? .prompt key = none → Seeded key (c.create o).2

section Counting

variable (v : Vendors σ) (key : Key) (g : Int)

/-- How many answers passes have had for a generation. -/
def answersTo (past : List (Passage σ)) : Nat :=
  ((past.filter (·.generation? key = some g)).flatMap (·.replies v key)).countP Except.isOk

/-- How many passes have lost an answer for a generation. -/
def lossesOf (past : List (Passage σ)) : Nat :=
  past.countP fun p => p.generation? key = some g && p.isLost v key

variable {v key g} {p : Passage σ} {past : List (Passage σ)}

theorem answersTo_cons_self (h : p.generation? key = some g) :
    answersTo v key g (p :: past) =
      (p.replies v key).countP Except.isOk + answersTo v key g past := by
  simp [answersTo, h]

theorem answersTo_cons_ne (h : p.generation? key ≠ some g) :
    answersTo v key g (p :: past) = answersTo v key g past := by
  simp [answersTo, h]

theorem answersTo_eq_zero (h : ∀ p ∈ past, p.generation? key ≠ some g) :
    answersTo v key g past = 0 := by
  have hnone : past.filter (·.generation? key = some g) = [] := by simpa using h
  rw [answersTo, hnone]
  rfl

theorem lossesOf_cons (p : Passage σ) (past : List (Passage σ)) :
    lossesOf v key g (p :: past) = lossesOf v key g past +
      if p.generation? key = some g ∧ p.isLost v key = true then 1 else 0 := by
  simp [lossesOf, List.countP_cons]

end Counting

/-- What the answers of a run come to, when the prompt has been renewed `n` times: those to one
generation are at most one more than the losses, and while the prompt is not processed they are no
more than these. -/
structure Tallied (v : Vendors σ) (key : Key) (g : Int) (first n : Nat) (past : List (Passage σ))
    (w : World σ) : Prop extends w.cluster.Aged key g first n where
  turns : ∀ p ∈ past, ∀ g', p.generation? key = some g' →
    ∃ m ≤ n, g' = Cluster.generationAfter g m
  bound : ∀ g', answersTo v key g' past ≤ lossesOf v key g' past + 1
  waiting : ∀ o : Object .prompt, w.cluster.stored? .prompt key = some o → o.isProcessed = false →
    answersTo v key (Cluster.generationAfter g n) past ≤
      lossesOf v key (Cluster.generationAfter g n) past

namespace Seeded

variable {c : Cluster}

theorem aged (h : Seeded key c) : ∃ g, c.Aged key g c.version 0 := by
  cases h with
  | @insert c o hplaced hplace =>
    have hinsert : (c.insert o).2.stored? .prompt key = some
        { o with
          metadata := { o.metadata with
            version := some c.nextVersion.versionText
            generation := some (o.metadata.generation.getD 1)
            uid := some (o.metadata.uid.getD c.nextVersion.uidText) } } := by
      unfold Cluster.insert
      rw [hplace.requireKey]
      exact Cluster.stored?_store_self ..
    exact ⟨_, .start ((Cluster.grows_insert c o).placed hplaced) hinsert rfl⟩
  | @create c o hplaced hplace hnone =>
    have hcreate : (c.create o).2.stored? .prompt key = some (c.created o) := by
      rw [Cluster.create_absent hplace hnone]
      exact Cluster.stored?_store_self ..
    exact ⟨1, .start ((Cluster.grows_create c o).placed hplaced) hcreate rfl⟩

end Seeded

namespace Tallied

variable {g : Int} {first n : Nat} {past : List (Passage σ)} {w w' : World σ}

theorem start (h : w.cluster.Aged key g first n) : Tallied v key g first n [] w :=
  ⟨h, nofun, fun _ => Nat.zero_le _, fun _ _ _ => Nat.le_refl _⟩

/-- A generation that is yet to come has had no answers. -/
theorem answersTo_next (hn : n + 1 < 0x10000000000000000)
    (hturns : ∀ p ∈ past, ∀ g', p.generation? key = some g' →
      ∃ m ≤ n, g' = Cluster.generationAfter g m) :
    answersTo v key (Cluster.generationAfter g (n + 1)) past = 0 := by
  refine answersTo_eq_zero fun p hp hg => ?_
  obtain ⟨m, hle, heq⟩ := hturns p hp _ hg
  have := Cluster.generationAfter_inj hn (by omega) heq
  omega

/-- From one world to the next, with the passes that there have been by then. -/
theorem proceed (haged : w.cluster.Aged key g first n) (hgrows : w.cluster.Grows w'.cluster)
    (hproceeds : w.cluster.Proceeds key w'.cluster) (hfits : w'.cluster.VersionFits)
    (hturns : ∀ p ∈ past, ∀ g', p.generation? key = some g' →
      ∃ m ≤ n, g' = Cluster.generationAfter g m)
    (hbound : ∀ g', answersTo v key g' past ≤ lossesOf v key g' past + 1)
    (hwaiting : ∀ o o' : Object .prompt, w.cluster.stored? .prompt key = some o →
      w'.cluster.stored? .prompt key = some o' → (o.isProcessed = true → o'.isProcessed = true) →
      o'.isProcessed = false → answersTo v key (Cluster.generationAfter g n) past ≤
        lossesOf v key (Cluster.generationAfter g n) past) :
    ∃ n, Tallied v key g first n past w' := by
  rcases haged.proceed hgrows hproceeds with ⟨haged', hkept⟩ | haged'
  · refine ⟨n, haged', hturns, hbound, fun o' ho' hopen => ?_⟩
    obtain ⟨o, ho, hprocessed⟩ := hkept o' ho'
    exact hwaiting o o' ho ho' hprocessed hopen
  · -- all passes so far were over earlier generations
    refine ⟨n + 1, haged', fun p hp g' hg' => ?_, hbound, fun _ _ _ => ?_⟩
    · obtain ⟨m, hle, heq⟩ := hturns p hp g' hg'
      exact ⟨m, Nat.le_succ_of_le hle, heq⟩
    · rw [answersTo_next (haged'.lt hfits) hturns]
      exact Nat.zero_le _

/-- A prompt that is not processed now has not been so in the world before. -/
theorem waited (h : Tallied v key g first n past w) {o o' : Object .prompt}
    (ho : w.cluster.stored? .prompt key = some o)
    (hprocessed : o.isProcessed = true → o'.isProcessed = true) (hopen : o'.isProcessed = false) :
    answersTo v key (Cluster.generationAfter g n) past ≤
      lossesOf v key (Cluster.generationAfter g n) past := by
  refine h.waiting o ho ?_
  rw [← Bool.not_eq_true]
  exact fun hclosed => Bool.false_ne_true (hopen.symm.trans (hprocessed hclosed))

theorem between (h : Tallied v key g first n past w) (htended : w.cluster.Tended key w'.cluster)
    (hfits : w'.cluster.VersionFits) : ∃ n, Tallied v key g first n past w' :=
  proceed h.toAged (htended.grows h.placed) (htended.proceeds h.isSome) hfits h.turns h.bound
    fun _ _ ho _ hprocessed hopen => h.waited ho hprocessed hopen

theorem pass (h : Tallied v key g first n past w) (settings : Settings)
    (hfits : (Passage.after v key ⟨settings, w⟩).cluster.VersionFits) :
    ∃ n, Tallied v key g first n (⟨settings, w⟩ :: past) (Passage.after v key ⟨settings, w⟩) := by
  let p : Passage σ := ⟨settings, w⟩
  have hconducts := Passage.conducts (v := v) (p := p) h.placed h.isSome
  have hgrows : w.cluster.Grows (p.after v key).cluster := World.grows_run v _ h.placed
  have hturns : ∀ q ∈ p :: past, ∀ g', q.generation? key = some g' →
      ∃ m ≤ n, g' = Cluster.generationAfter g m := by
    intro q hq g' hg'
    rcases List.mem_cons.1 hq with rfl | hq
    · obtain ⟨o, ho, hg'⟩ := Option.bind_eq_some_iff.1 hg'
      exact ⟨n, Nat.le_refl n, Option.some.inj (hg'.symm.trans (h.generation o ho))⟩
    · exact h.turns q hq g' hg'
  cases hanswer : (p.replies v key).any Except.isOk with
  | false =>
    -- without an answer both counts stay as they were
    have hnone : (p.replies v key).countP Except.isOk = 0 := by
      rw [List.countP_eq_zero]
      exact List.any_eq_false.1 hanswer
    have hanswers : ∀ g', answersTo v key g' (p :: past) = answersTo v key g' past := by
      intro g'
      by_cases hg : p.generation? key = some g'
      · rw [answersTo_cons_self hg, hnone, Nat.zero_add]
      · exact answersTo_cons_ne hg
    have hlosses : ∀ g', lossesOf v key g' (p :: past) = lossesOf v key g' past := by
      intro g'
      have hlost : p.isLost v key = false := by rw [Passage.isLost, hanswer, Bool.false_and]
      rw [lossesOf_cons, hlost, if_neg (by simp), Nat.add_zero]
    refine proceed h.toAged hgrows hconducts.proceeds hfits hturns (fun g' => ?_)
      fun _ _ ho _ hprocessed hopen => ?_
    · rw [hanswers, hlosses]
      exact h.bound g'
    · rw [hanswers, hlosses]
      exact h.waited ho hprocessed hopen
  | true =>
    obtain ⟨hone, hawaits⟩ := (p.calls : (p.replies v key).length ≤ 1 ∧ _)
    obtain ⟨o, hholds, hopen⟩ := hawaits fun hnil => by
      rw [hnil] at hanswer
      cases hanswer
    have hgeneration : p.generation? key = some (Cluster.generationAfter g n) :=
      Option.bind_eq_some_iff.2 ⟨o, hholds.1, h.generation o hholds.1⟩
    have hcount : (p.replies v key).countP Except.isOk ≤ 1 :=
      Nat.le_trans List.countP_le_length hone
    -- the prompt was sent, so it was not processed, and so far all answers were lost
    have hbefore := h.waiting o hholds.1 hopen
    refine proceed h.toAged hgrows hconducts.proceeds hfits hturns (fun g' => ?_)
      fun _ o' _ ho' _ hopen' => ?_
    · by_cases hg : p.generation? key = some g'
      · obtain rfl := Option.some.inj (hgeneration.symm.trans hg)
        rw [answersTo_cons_self hg, lossesOf_cons]
        omega
      · rw [answersTo_cons_ne hg, lossesOf_cons, if_neg fun h => hg h.1]
        exact h.bound g'
    · -- the answer was recorded or lost
      rcases Passage.of_answer hconducts hanswer with ⟨hlost, -⟩ | ⟨-, o'', ho'', hprocessed⟩
      · rw [answersTo_cons_self hgeneration, lossesOf_cons, if_pos ⟨hgeneration, hlost⟩]
        omega
      · obtain rfl := Option.some.inj (ho''.symm.trans ho')
        cases hopen'.symm.trans hprocessed

end Tallied

namespace Course

variable {w₀ w w' : World σ} {past later : List (Passage σ)}

theorem grows (run : Course v key w₀ past w) (hplaced : w₀.cluster.Placed) :
    w₀.cluster.Grows w.cluster := by
  induction run with
  | start => exact .refl _
  | pass settings _ ih => exact ih.trans (World.grows_run v _ (ih.placed hplaced))
  | between _ htended ih => exact ih.trans (htended.grows (ih.placed hplaced))

theorem tallied {g : Int} (run : Course v key w₀ past w)
    (haged : w₀.cluster.Aged key g w₀.cluster.version 0) (hfits : w.cluster.VersionFits) :
    ∃ n, Tallied v key g w₀.cluster.version n past w := by
  induction run with
  | start => exact ⟨0, .start haged⟩
  | pass settings run ih =>
    have hgrows := World.grows_run v (reconcile .prompt settings key)
      ((run.grows haged.placed).placed haged.placed)
    obtain ⟨n, h⟩ := ih (hgrows.versionFits hfits)
    exact h.pass settings hfits
  | between run htended ih =>
    have hgrows := htended.grows ((run.grows haged.placed).placed haged.placed)
    obtain ⟨n, h⟩ := ih (hgrows.versionFits hfits)
    exact h.between htended hfits

theorem before_aged {g : Int} (run : Course v key w₀ past w)
    (haged : w₀.cluster.Aged key g w₀.cluster.version 0) (hfits : w.cluster.VersionFits)
    {p : Passage σ} (hp : p ∈ past) : ∃ n, p.before.cluster.Aged key g w₀.cluster.version n := by
  induction run with
  | start => cases hp
  | pass settings run ih =>
    have hgrows := World.grows_run v (reconcile .prompt settings key)
      ((run.grows haged.placed).placed haged.placed)
    have hlt := hgrows.versionFits hfits
    rcases List.mem_cons.1 hp with rfl | hp
    · obtain ⟨n, h⟩ := run.tallied haged hlt
      exact ⟨n, h.toAged⟩
    · exact ih hlt hp
  | between run htended ih =>
    have hgrows := htended.grows ((run.grows haged.placed).placed haged.placed)
    exact ih (hgrows.versionFits hfits) hp

/-- A prompt that is processed stays so until it is renewed, and is not sent with the generation
that it has. -/
theorem processed {o : Object .prompt} {g : Int} (run : Course v key w later w')
    (hplaced : w.cluster.Placed) (hs : w.cluster.stored? .prompt key = some o)
    (hg : o.metadata.generation = some g) (hprocessed : o.isProcessed = true)
    (hfits : w'.cluster.VersionFits) :
    (∃ n, w'.cluster.Closed key g w.cluster.version n) ∧
      ∀ p ∈ later, p.generation? key = some g → p.replies v key = [] := by
  induction run with
  | start =>
    refine ⟨⟨0, .start hplaced hs hg, fun _ o' ho' => ?_⟩, nofun⟩
    obtain rfl := Option.some.inj (hs.symm.trans ho')
    exact hprocessed
  | @pass later w' settings run ih =>
    have hgrows := World.grows_run v (reconcile .prompt settings key)
      ((run.grows hplaced).placed hplaced)
    have hlt := hgrows.versionFits hfits
    obtain ⟨⟨n, hclosed⟩, hquiet⟩ := ih hlt
    refine ⟨hclosed.proceed hgrows
      (Passage.conducts (v := v) (p := ⟨settings, w'⟩) hclosed.placed hclosed.isSome).proceeds,
      fun p hp hgeneration => ?_⟩
    rcases List.mem_cons.1 hp with rfl | hp
    · by_contra hcalls
      obtain ⟨o', hholds, hopen⟩ := Passage.calls.2 hcalls
      -- with the same generation, the prompt has not been renewed
      obtain ⟨o'', ho'', hg''⟩ := Option.bind_eq_some_iff.1 hgeneration
      have hsame : Cluster.generationAfter g 0 = Cluster.generationAfter g n :=
        Option.some.inj (hg''.symm.trans (hclosed.generation o'' ho''))
      have hn : 0 = n := Cluster.generationAfter_inj (by decide) (hclosed.lt hlt) hsame
      cases hopen.symm.trans (hclosed.processed hn.symm o' hholds.1)
    · exact hquiet p hp hgeneration
  | between run htended ih =>
    have hgrows := htended.grows ((run.grows hplaced).placed hplaced)
    obtain ⟨⟨n, hclosed⟩, hquiet⟩ := ih (hgrows.versionFits hfits)
    exact ⟨hclosed.proceed hgrows (htended.proceeds hclosed.isSome), hquiet⟩

end Course

/-- How often a prompt is sent.  Let a prompt be put under a key, and let passes over it run, while
users act between them, until the counter of versions would run over in 64 bits.

* A pass calls a vendor once at most, and only for a prompt that is active and not processed.  After
  an answer either all attempts to record it are lost to conflicts and the pass fails, or the prompt
  is processed.
* From any time on at which the prompt is processed, passes call no vendor while the generation is
  the same.
* The answers to one generation are at most one more than those that were lost. -/
theorem sent_once (v : Vendors σ) (key : Key) {w₀ w w' : World σ} {past later : List (Passage σ)}
    (hseeded : Seeded key w₀.cluster) (run : Course v key w₀ past w)
    (run' : Course v key w later w') (hfits : w'.cluster.VersionFits) :
    (∀ p ∈ past,
      (p.replies v key).length ≤ 1 ∧
      (p.replies v key ≠ [] →
        ∃ o, Holds .prompt key .active p.before.cluster o ∧ o.isProcessed = false) ∧
      ((p.replies v key).any Except.isOk = true →
        p.isLost v key = true ∧
            max p.settings.writeAttempts 1 ≤ p.before.cluster.injectedConflicts ∨
          p.isLost v key = false ∧ ∃ o' : Object .prompt,
            (p.after v key).cluster.stored? .prompt key = some o' ∧ o'.isProcessed = true)) ∧
    (∀ o : Object .prompt, w.cluster.stored? .prompt key = some o → o.isProcessed = true →
      ∀ p ∈ later, p.generation? key = o.metadata.generation → p.replies v key = []) ∧
    ∀ g, answersTo v key g past ≤ lossesOf v key g past + 1 := by
  obtain ⟨g, haged⟩ := hseeded.aged
  have hplaced := (run.grows haged.placed).placed haged.placed
  have hfits' := (run'.grows hplaced).versionFits hfits
  obtain ⟨n, htallied⟩ := run.tallied haged hfits'
  refine ⟨fun p hp => ?_, fun o hs hprocessed p hp hgeneration => ?_, htallied.bound⟩
  · obtain ⟨m, hbefore⟩ := run.before_aged haged hfits' hp
    obtain ⟨hone, hcalled⟩ := p.calls (v := v)
    exact ⟨hone, hcalled, Passage.of_answer (Passage.conducts hbefore.placed hbefore.isSome)⟩
  · have hg := htallied.generation o hs
    exact (run'.processed hplaced hs hg hprocessed hfits).2 p hp (hgeneration.trans hg)

/-- The first answer is lost to conflicts and the second one recorded, and then there are no more.
-/
theorem sent_once_conflicts :
    let key : Key := ⟨"default", "p"⟩
    let v := repeating ⟨"hi", [104, 105]⟩
    let c := ((Cluster.empty.insert answeringLlm).2.insert llmSecret).2
    let w₀ : World Unit := { cluster := (c.insert newPrompt).2, vendors := () }
    Seeded key w₀.cluster ∧ ∃ past w later w', Course v key w₀ past w ∧ Course v key w later w' ∧
      w'.cluster.VersionFits ∧ answersTo v key 1 past = 2 ∧ lossesOf v key 1 past = 1 ∧
      answersTo v key 1 past ≤ lossesOf v key 1 past + 1 ∧
      ∃ o : Object .prompt, w.cluster.stored? .prompt key = some o ∧ o.isProcessed = true ∧
        later ≠ [] ∧
        ∀ p ∈ later, p.generation? key = o.metadata.generation → p.replies v key = [] := by
  intro key v c w₀
  have hplaced : c.Placed :=
    (Cluster.grows_insert _ _).placed ((Cluster.grows_insert _ _).placed Cluster.placed_empty)
  have hseeded : Seeded key w₀.cluster := .insert hplaced ⟨rfl, rfl⟩
  -- the prompt gets the finalizer, and then all attempts of the next write are going to fail
  let p₁ : Passage Unit := ⟨{}, w₀⟩
  let w₁ := p₁.after v key
  let w₂ : World Unit := { w₁ with cluster := w₁.cluster.injectConflicts 5 }
  let p₂ : Passage Unit := ⟨{}, w₂⟩
  let p₃ : Passage Unit := ⟨{}, p₂.after v key⟩
  let w := p₃.after v key
  let p₄ : Passage Unit := ⟨{}, w⟩
  have hconflicts : w₁.cluster.Tended key w₂.cluster := .injectConflicts _ 5
  have run : Course v key w₀ [p₃, p₂, p₁] w :=
    .pass {} (.pass {} (.between (.pass {} .start) hconflicts))
  have run' : Course v key w [p₄] (p₄.after v key) := .pass {} .start
  have hfits : (p₄.after v key).cluster.VersionFits := by
    unfold Cluster.VersionFits
    decide +kernel
  obtain ⟨o, ho, hprocessed⟩ : ∃ o, w.cluster.stored? .prompt key = some o ∧ o.isProcessed = true :=
    (Option.any_eq_true _ _).1 (by decide +kernel)
  obtain ⟨-, hquiet, hcount⟩ := sent_once v key hseeded run run' hfits
  exact ⟨hseeded, _, w, _, _, run, run', hfits, by decide +kernel, by decide +kernel, hcount 1,
    o, ho, hprocessed, by simp, hquiet o ho hprocessed⟩

end ModelKeeper.Pass.Prompt

import ModelKeeper.Proofs.Cluster.Versions
import ModelKeeper.Proofs.Operator.Change
import ModelKeeper.Proofs.Program.Turns
import ModelKeeper.Proofs.World.Undisturbed

/-!
# Amendments in turns do not lose updates

Any number of amendments of one object run in turns, request by request, while others do to the
cluster whatever they like.  What an amendment has done at any time is one of a few things
(`Amendment.Log`): a number of attempts that were lost to other writers (`Amendment.Lost`), and then
maybe a read, a look at the clock and a write.

A write goes through only if the object is as it was read: the version that the write carries tells
(`Cluster.Fresh`).  So whatever is written is the change of the object as it stands at that moment
(`Amendment.Committed`), and no update is lost (`Amendment.no_lost_update`).
-/

namespace ModelKeeper

variable {σ : Type} {k : Kind}

/-! ### What is written -/

/-- A read-modify-write of an object: a change of half of it, in at most so many attempts. -/
structure Amendment (k : Kind) where
  half : Half
  attempts : Nat
  change : Change k
  proper : change.Proper

/-- Whether `o` is the stored object with this half of it as it was changed.  The store gives out
the version, and the generation with the body. -/
def Half.Takes (half : Half) (stored changed o : Object k) : Prop :=
  match half with
  | .body => ∃ version generation, o =
      { changed with
        status := stored.status
        metadata := { changed.metadata with version, generation } }
  | .status => ∃ version, o =
      { stored with
        status := changed.status
        metadata := { stored.metadata with version } }

theorem Half.takes_replaced (half : Half) {change : Change k} (hproper : change.Proper)
    (now : Instant) (stored : Object k) (version : String) :
    half.Takes stored (change now stored.settled).1
      (half.replaced stored (change now stored.settled).1 version) := by
  cases half with
  | body =>
    obtain ⟨labels, annotations, finalizers, hmeta⟩ := hproper now stored.settled
    refine ⟨some version, (Cluster.merged stored (change now stored.settled).1
      version).metadata.generation, ?_⟩
    simp [Half.replaced, Cluster.merged, hmeta]
  | status => exact ⟨some version, rfl⟩

namespace Amendment

/-- The amendment as a program. -/
def program (a : Amendment k) (key : Key) : Program (Except AccessError (Object k)) :=
  amend a.half k key a.attempts a.change

/-- How often the amendment is tried at most. -/
def tries (a : Amendment k) : Nat := max a.attempts 1

/-- Whether the object `o` that follows `stored` under a key is its change: the amendment was
applied to the object as it stood, and nothing else was touched.  An object goes away if its body
was written, it is marked for deletion and no finalizers are left. -/
structure Committed (a : Amendment k) (key : Key) (now : Instant) (c c' : Cluster)
    (stored o : Object k) : Prop where
  stood : c.stored? k key = some stored
  changed : (a.change now stored.settled).2 = true
  takes : a.half.Takes stored (a.change now stored.settled).1 o
  written : c'.stored? k key =
    if a.half = .body ∧ o.isDeleted ∧ o.finalizers = [] then none else some o
  sameBut : c.SameBut k key c'

/-- A write that carries the version of a fresh copy, and goes through, is a commit. -/
theorem committed_of_put {a : Amendment k} {key : Key} {now : Instant} {c c' : Cluster}
    {copy answer : Object k} (hfresh : c.Fresh key copy) (hchanged : (a.change now copy).2 = true)
    (hput : a.half.put c (a.change now copy).1 = (.ok answer, c')) :
    ∃ stored o, stored.settled = copy ∧ answer = o.settled ∧
      a.Committed key now c c' stored o := by
  obtain ⟨stored, hs, hversion, rfl, rfl⟩ := Half.put_ok (a.proper.isAt hfresh.isAt now) hput
  -- the write carries the version of the copy, which no other object has
  have hsettled : stored.settled = copy := by
    rw [a.proper.version] at hversion
    refine hfresh.same stored hs ?_
    rcases hversion with hnone | hsame
    · obtain ⟨n, -, hn⟩ := hfresh.version
      simp [hn] at hnone
    · exact hsame.symm
  obtain rfl := hsettled
  exact ⟨stored, _, rfl, rfl,
    { stood := hs
      changed := hchanged
      takes := a.half.takes_replaced a.proper now stored _
      written := Cluster.stored?_putBack_self ..
      sameBut := Cluster.sameBut_putBack c.nextVersion a.half key _ }⟩

end Amendment

/-! ### What an amendment has done -/

/-- Whether an exchange is a write of this half of an object. -/
inductive Exchange.Writes (o : Object k) (answer : Except AccessError (Object k)) :
    Half → Exchange → Prop
  | body : Writes o answer .body ⟨.update k o, answer⟩
  | status : Writes o answer .status ⟨.updateStatus k o, answer⟩

/-- Whether an exchange is a write of an object that was there, and went through. -/
inductive Exchange.IsCommit : Exchange → Prop
  | update (k : Kind) (o answer : Object k) : IsCommit ⟨.update k o, .ok answer⟩
  | updateStatus (k : Kind) (o answer : Object k) : IsCommit ⟨.updateStatus k o, .ok answer⟩

instance : DecidablePred Exchange.IsCommit
  | ⟨.update _ _, .ok _⟩ => isTrue (.update ..)
  | ⟨.updateStatus _ _, .ok _⟩ => isTrue (.updateStatus ..)
  | ⟨.update _ _, .error _⟩ | ⟨.updateStatus _ _, .error _⟩ => isFalse nofun
  | ⟨.get _ _, _⟩ | ⟨.create _ _, _⟩ | ⟨.delete _ _, _⟩ | ⟨.now, _⟩ | ⟨.emit _, _⟩
  | ⟨.count _, _⟩ | ⟨.connect _, _⟩ | ⟨.validate _ _, _⟩ | ⟨.call _ _, _⟩ => isFalse nofun

/-- Whether an exchange is a write of an object that lost to another writer. -/
def Exchange.isRefusedWrite : Exchange → Bool
  | ⟨.update _ _, .error e⟩ | ⟨.updateStatus _ _, .error e⟩ => e.isConflict
  | _ => false

namespace Exchange.Writes

variable {o : Object k} {answer : Except AccessError (Object k)} {x : Exchange}

theorem request_body (h : x.Writes o answer .body) : x.request = .update k o := by
  cases h
  rfl

theorem request_status (h : x.Writes o answer .status) : x.request = .updateStatus k o := by
  cases h
  rfl

theorem isCommit {half : Half} (h : x.Writes o answer half) :
    x.IsCommit ↔ ∃ written, answer = .ok written := by
  cases h with
  | body =>
    constructor
    · rintro ⟨⟩
      exact ⟨_, rfl⟩
    · rintro ⟨written, rfl⟩
      exact .update k o written
  | status =>
    constructor
    · rintro ⟨⟩
      exact ⟨_, rfl⟩
    · rintro ⟨written, rfl⟩
      exact .updateStatus k o written

end Exchange.Writes

/-- What others may do to a world: operations on its cluster, and anything to the rest. -/
def World.Others (w w' : World σ) : Prop :=
  ∃ op : Cluster.Operation, op.Proper ∧ w'.cluster = op.apply w.cluster

/-- The cluster after a moment. -/
def Moment.clusterAfter (v : Vendors σ) (m : Moment (World σ)) : Cluster :=
  ((World.handler v).answer m.request m.before).2.cluster

namespace Amendment

variable {τ : Type} {a : Amendment k} {key : Key} {v : Vendors σ}

/-- Whether the object was read as `copy` after the moments `past`, and then the clock was. -/
inductive Looked (key : Key) (copy : Object k) (now : Instant) (past : List (Moment τ)) :
    List (Moment τ) → Prop
  | intro {m m' : Moment τ} :
    m.toExchange = ⟨.get k key, .ok copy⟩ → m'.toExchange = ⟨.now, now⟩ →
    Looked key copy now past (m' :: m :: past)

/-- Whether so many attempts were made, and all were lost to other writers: each read the object
anew, and its write of the change of what it had read was refused with a conflict. -/
inductive Lost (a : Amendment k) (key : Key) : Nat → List (Moment τ) → Prop
  | none : Lost a key 0 []
  | again {n : Nat} {past looked : List (Moment τ)} {copy : Object k} {now : Instant}
      {m : Moment τ} {e : AccessError} :
    Lost a key n past → Looked key copy now past looked → (a.change now copy).2 = true →
    m.Writes (a.change now copy).1 (.error e) a.half → e.isConflict = true →
    Lost a key (n + 1) (m :: looked)

/-- All that an amendment can have done at some time. -/
inductive Log (a : Amendment k) (key : Key) (v : Vendors σ) : List (Moment (World σ)) → Prop
  | lost {n : Nat} {past : List (Moment (World σ))} : Lost a key n past → Log a key v past
  | got {n : Nat} {past : List (Moment (World σ))} {m : Moment (World σ)}
      (answer : Except AccessError (Object k)) :
    Lost a key n past → m.toExchange = ⟨.get k key, answer⟩ → Log a key v (m :: past)
  | looked {n : Nat} {past looked : List (Moment (World σ))} {copy : Object k} {now : Instant} :
    Lost a key n past → Looked key copy now past looked → Log a key v looked
  | wrote {n : Nat} {past looked : List (Moment (World σ))} {copy : Object k} {now : Instant}
      {m : Moment (World σ)} (answer : Except AccessError (Object k)) :
    n < a.tries → Lost a key n past → Looked key copy now past looked →
    m.Writes (a.change now copy).1 answer a.half →
    (∀ written, answer = .ok written → ∃ stored o, stored.settled = copy ∧ written = o.settled ∧
      a.Committed key now m.before.cluster (m.clusterAfter v) stored o) →
    Log a key v (m :: looked)

theorem Looked.read {copy : Object k} {now : Instant} {past looked : List (Moment τ)}
    (h : Looked key copy now past looked) :
    ∃ m ∈ looked, m.toExchange = ⟨.get k key, .ok copy⟩ := by
  obtain ⟨hget, -⟩ := h
  exact ⟨_, List.mem_cons_of_mem _ (List.mem_cons_self ..), hget⟩

theorem Looked.not_isCommit {copy : Object k} {now : Instant} {past looked : List (Moment τ)}
    (h : Looked key copy now past looked) (hpast : ∀ m ∈ past, ¬ m.IsCommit) :
    ∀ m ∈ looked, ¬ m.IsCommit := by
  obtain ⟨hget, hnow⟩ := h
  intro m hm
  rcases List.mem_cons.1 hm with rfl | hm
  · rw [hnow]
    rintro ⟨⟩
  · rcases List.mem_cons.1 hm with rfl | hm
    · rw [hget]
      rintro ⟨⟩
    · exact hpast m hm

theorem Lost.not_isCommit {n : Nat} {past : List (Moment τ)} (h : Lost a key n past) :
    ∀ m ∈ past, ¬ m.IsCommit := by
  induction h with
  | none => simp
  | again _ hlooked _ hwrites _ ih =>
    intro m hm
    rcases List.mem_cons.1 hm with rfl | hm
    · rw [hwrites.isCommit]
      simp
    · exact hlooked.not_isCommit ih m hm

/-- Whether the last moment is a commit: some attempts were lost, and then the object was read as it
still stands, and the change of it was made. -/
inductive Committing (a : Amendment k) (key : Key) (v : Vendors σ) (m : Moment (World σ)) :
    List (Moment (World σ)) → Prop
  | intro {n : Nat} {past looked : List (Moment (World σ))} {stored o : Object k} {now : Instant} :
    n < a.tries → Lost a key n past → Looked key stored.settled now past looked →
    m.Writes (a.change now stored.settled).1 (.ok o.settled) a.half →
    a.Committed key now m.before.cluster (m.clusterAfter v) stored o →
    Committing a key v m (m :: looked)

theorem Log.committing {past : List (Moment (World σ))} {m : Moment (World σ)}
    (h : a.Log key v past) (hm : m ∈ past) (hcommit : m.IsCommit) : a.Committing key v m past := by
  -- of all points of an amendment only the one behind the write has a commit
  cases h with
  | lost hlost => exact absurd hcommit (hlost.not_isCommit m hm)
  | got answer hlost hget =>
    rcases List.mem_cons.1 hm with rfl | hm
    · rw [hget] at hcommit
      cases hcommit
    · exact absurd hcommit (hlost.not_isCommit m hm)
  | looked hlost hlooked =>
    exact absurd hcommit (hlooked.not_isCommit hlost.not_isCommit m hm)
  | wrote answer hn hlost hlooked hwrites hcommitted =>
    rcases List.mem_cons.1 hm with rfl | hm
    · obtain ⟨written, rfl⟩ := hwrites.isCommit.1 hcommit
      obtain ⟨stored, o, rfl, rfl, hstood⟩ := hcommitted written rfl
      exact .intro hn hlost hlooked hwrites hstood
    · exact absurd hcommit (hlooked.not_isCommit hlost.not_isCommit m hm)

theorem Log.once {past : List (Moment (World σ))} (h : a.Log key v past) :
    past.Pairwise (fun m m' => ¬ (m.IsCommit ∧ m'.IsCommit)) := by
  by_cases hsome : ∃ m ∈ past, m.IsCommit
  · obtain ⟨m, hm, hcommit⟩ := hsome
    obtain ⟨-, hlost, hlooked, -⟩ := h.committing hm hcommit
    have hearlier := hlooked.not_isCommit hlost.not_isCommit
    rw [List.pairwise_cons]
    exact ⟨fun m' hm' hboth => hearlier m' hm' hboth.2,
      List.pairwise_of_forall_mem_list fun m' hm' _ _ hboth => hearlier m' hm' hboth.1⟩
  · refine List.pairwise_of_forall_mem_list fun m hm _ _ hboth => hsome ⟨m, hm, hboth.1⟩

/-! ### What an amendment knows amid others -/

/-- What is known of a world amid others: objects are in their places with versions that were given
out, and what was read of the object is a fresh copy. -/
structure Known (key : Key) (k : Kind) (past : List (Moment (World σ))) (w : World σ) : Prop where
  placed : w.cluster.Placed
  versioned : w.cluster.Versioned
  fresh : ∀ m ∈ past, ∀ copy : Object k, m.toExchange = ⟨.get k key, .ok copy⟩ →
    w.cluster.Fresh key copy

/-- What an amendment knows and owes. -/
def terms (a : Amendment k) (key : Key) (v : Vendors σ) : Terms (World σ) where
  possible := Known key k
  promise := a.Log key v

theorem Known.grows {past : List (Moment (World σ))} {w w' : World σ} (h : Known key k past w)
    (hgrows : w.cluster.Grows w'.cluster) : Known key k past w' where
  placed := hgrows.placed h.placed
  versioned := hgrows.versioned h.versioned
  fresh m hm copy hget := (h.fresh m hm copy hget).grows hgrows

theorem get_of_moment {r : Request} {w : World σ} {copy : Object k}
    (h : ((World.handler v).moment r w).toExchange = ⟨.get k key, .ok copy⟩) :
    w.cluster.get k key = .ok copy := by
  unfold Handler.moment at h
  simp only [Exchange.mk.injEq] at h
  obtain ⟨rfl, h⟩ := h
  exact eq_of_heq h

/-- What is known stays known, whatever is promised. -/
theorem known_stable {ι : Type} (v : Vendors σ) (keys : ι → Key) (kinds : ι → Kind)
    (promise : ι → List (Moment (World σ)) → Prop) :
    Terms.Stable (fun i => ⟨Known (keys i) (kinds i), promise i⟩) (World.handler v)
      World.Others where
  others i past w w' h hothers := by
    obtain ⟨op, hproper, hcluster⟩ := hothers
    exact h.grows (hcluster ▸ Cluster.Operation.grows hproper h.placed)
  own i past r w h _ := by
    have hgrows := World.grows_answer v r h.placed
    have hpast := h.grows hgrows
    refine ⟨hpast.placed, hpast.versioned, fun m hm copy hget => ?_⟩
    -- a copy that is read now is fresh, and fresh copies stay so while the cluster grows
    rcases List.mem_cons.1 hm with rfl | hm
    · have hanswer : w.cluster.get (kinds i) (keys i) = .ok copy := get_of_moment hget
      exact (Cluster.Fresh.of_get h.placed h.versioned hanswer).grows hgrows
    · exact hpast.fresh m hm copy hget
  beside i j _ past past' r w h _ _ := h.grows (World.grows_answer v r h.placed)

theorem terms_stable {ι : Type} (key : Key) (v : Vendors σ) (calls : ι → Amendment k) :
    Terms.Stable (fun i => (calls i).terms key v) (World.handler v) World.Others :=
  known_stable v (fun _ => key) (fun _ => k) fun i => (calls i).Log key v

/-- What an amendment has done when it returns. -/
def Returns (a : Amendment k) (key : Key) :
    Except AccessError (Object k) → List (Moment (World σ)) → Prop
  | .ok o, past =>
    (∃ m ∈ past, ∃ written, m.Writes written (.ok o) a.half) ∨
      ∃ now copy earlier, Looked key copy now earlier past ∧ a.change now copy = (o, false)
  | .error e, past => e.isConflict = true → Lost a key a.tries past

theorem wp_write {half : Half} {o : Object k} {t : Terms (World σ)}
    {post : Except AccessError (Object k) → List (Moment (World σ)) → Prop}
    {past : List (Moment (World σ))}
    (h : ∀ m : Moment (World σ), t.possible past m.before →
      m.Writes o (half.put m.before.cluster o).1 half →
      m.clusterAfter v = (half.put m.before.cluster o).2 →
      t.promise (m :: past) ∧ post (half.put m.before.cluster o).1 (m :: past)) :
    (half.write o).outcome.wp (.amid (World.handler v) t) post past := by
  cases half with
  | body => exact fun w hw => h ((World.handler v).moment (.update k o) w) hw .body rfl
  | status => exact fun w hw => h ((World.handler v).moment (.updateStatus k o) w) hw .status rfl

/-- The write of an attempt: it goes through, it fails, or the attempt is lost. -/
theorem wp_changed {n : Nat} {past looked : List (Moment (World σ))} {copy : Object k}
    {now : Instant} (hn : n < a.tries) (hlost : Lost a key n past)
    (hlooked : Looked key copy now past looked) (hchanged : (a.change now copy).2 = true)
    {again : AccessError → List (Moment (World σ)) → Prop}
    (hagain : ∀ e past', e.isConflict = true → Lost a key (n + 1) past' → again e past') :
    (a.half.write (a.change now copy).1).outcome.wp (.amid (World.handler v) (a.terms key v))
      (amend.unlessConflict (a.Returns key) again) looked := by
  obtain ⟨m₀, hm₀, hread⟩ := hlooked.read
  refine wp_write fun m hm hwrites hafter => ?_
  -- whatever happened since the read, an accepted write means that the copy is current
  have hfresh : m.before.cluster.Fresh key copy := hm.fresh m₀ hm₀ copy hread
  constructor
  · exact .wrote _ hn hlost hlooked hwrites fun written hok =>
      committed_of_put hfresh hchanged (Prod.ext hok hafter.symm)
  · unfold amend.unlessConflict
    cases hanswer : (a.half.put m.before.cluster (a.change now copy).1).1 with
    | ok o =>
      rw [hanswer] at hwrites
      exact .inl ⟨m, List.mem_cons_self .., _, hwrites⟩
    | error e =>
      rw [hanswer] at hwrites
      by_cases hisConflict : e.isConflict = true
      · simp only [if_pos hisConflict]
        exact hagain e _ hisConflict (.again hlost hlooked hchanged hwrites hisConflict)
      · simp only [if_neg hisConflict]
        exact fun h => absurd h hisConflict

theorem wp_attempt {n : Nat} {past : List (Moment (World σ))} (hn : n < a.tries)
    (hlost : Lost a key n past)
    {onConflict : AccessError → Program (Except AccessError (Object k))}
    (hconflict : ∀ e past', e.isConflict = true → Lost a key (n + 1) past' →
      (onConflict e).wp (.amid (World.handler v) (a.terms key v)) (a.Returns key) past') :
    (amend.attempt a.half k key a.change onConflict).wp
      (.amid (World.handler v) (a.terms key v)) (a.Returns key) past := by
  rw [amend.wp_attempt]
  -- the read
  intro w _
  refine ⟨.got (w.cluster.get k key) hlost rfl, ?_⟩
  have hanswer : ((World.handler v).answer (.get k key) w).1 = w.cluster.get k key := rfl
  rw [hanswer]
  cases hget : w.cluster.get k key with
  | error e =>
    intro hisConflict
    unfold Cluster.get at hget
    split at hget
    · cases hget
    · obtain rfl := Except.error.inj hget
      cases hisConflict
  | ok copy =>
    -- the look at the clock
    intro w' _
    have hread : ((World.handler v).moment (.get k key) w).toExchange =
        ⟨.get k key, .ok copy⟩ := by
      rw [← hget]
      rfl
    have hlooked : Looked key copy w'.clock past
        ((World.handler v).moment .now w' :: (World.handler v).moment (.get k key) w :: past) :=
      .intro hread rfl
    refine ⟨.looked hlost hlooked, ?_⟩
    have hclock : ((World.handler v).answer .now w').1 = w'.clock := rfl
    simp only [hclock]
    -- the write, if there is anything to write
    cases hchanged : (a.change w'.clock copy).2 with
    | false =>
      rw [if_neg Bool.false_ne_true]
      exact .inr ⟨w'.clock, copy, past, hlooked, Prod.ext rfl hchanged⟩
    | true =>
      rw [if_pos rfl]
      exact wp_changed hn hlost hlooked hchanged hconflict

theorem wp_go {n retries : Nat} (htries : n + (retries + 1) = a.tries)
    {past : List (Moment (World σ))} (hlost : Lost a key n past) :
    (amend.go a.half k key a.change retries).wp (.amid (World.handler v) (a.terms key v))
      (a.Returns key) past := by
  induction retries generalizing n past with
  | zero =>
    refine wp_attempt (by omega) hlost fun e past' _ hlost' _ => ?_
    exact htries ▸ hlost'
  | succ retries ih =>
    exact wp_attempt (by omega) hlost fun e past' _ hlost' => ih (by omega) hlost'

theorem wp_program (a : Amendment k) (key : Key) (v : Vendors σ) :
    (a.program key).wp (.amid (World.handler v) (a.terms key v)) (a.Returns key) [] :=
  wp_go (n := 0) (by unfold tries; omega) .none

/-- No update is lost.  In every run of any number of amendments of one object in turns, with others
acting in between, for each of them and at any time:

* a write of it that goes through stores the change of the object as it stands at that very moment,
  and as it was read in the same attempt (`Amendment.Committing`);
* at most one write of it goes through;
* if it has returned an object, then this was written or there was nothing to write in the copy that
  had just been read; and if it has returned a conflict, then it has made all its attempts, each
  with a read of its own, and all were refused (`Amendment.Returns`). -/
theorem no_lost_update {ι : Type} [DecidableEq ι] (v : Vendors σ) (key : Key)
    (calls : ι → Amendment k) {w₀ w : World σ} (hplaced : w₀.cluster.Placed)
    (hversioned : w₀.cluster.Versioned) {past : List (ι × Moment (World σ))}
    {programs : ι → Program (Except AccessError (Object k))}
    (run : Turns (World.handler v) World.Others (fun i => (calls i).program key) w₀ past w programs)
    (i : ι) :
    (∀ m ∈ Turns.of i past, m.IsCommit → (calls i).Committing key v m (Turns.of i past)) ∧
      (Turns.of i past).Pairwise (fun m m' => ¬ (m.IsCommit ∧ m'.IsCommit)) ∧
      ∀ r, programs i = .done r → (calls i).Returns key r (Turns.of i past) := by
  obtain ⟨-, hlog, hreturns⟩ := run.keeps (terms_stable key v calls)
    (fun i => ⟨hplaced, hversioned, by simp⟩) (fun i => .lost .none)
    (fun i => (calls i).wp_program key v) i
  refine ⟨fun m hm hcommit => Log.committing hlog hm hcommit, Log.once hlog, fun r hdone => ?_⟩
  rw [hdone] at hreturns
  exact hreturns

/-- Puts a finalizer on a language model. -/
def finalizing (finalizer : String) : Amendment .llm where
  half := .body
  attempts := 2
  change _ := Object.addFinalizer finalizer
  proper := (Object.addFinalizer_ofFinalizers .llm finalizer).proper

/-- A language model that nothing is asked of. -/
def bareLlm (key : Key) : Object .llm where
  metadata := { name := some key.name, ns := some key.ns }
  spec := {}

/-- Two calls have both read the model when the first of them writes it.  The write of the other one
is refused; it reads the model anew and writes it, and both finalizers are there. -/
theorem no_lost_update_finalizing :
    let key : Key := ⟨"default", "m"⟩
    let calls : Bool → Amendment .llm := fun i => finalizing (if i then "a" else "b")
    let w₀ : World Unit := { cluster := (Cluster.empty.insert (bareLlm key)).2, vendors := () }
    w₀.cluster.Placed ∧ w₀.cluster.Versioned ∧
      ∃ past w programs,
        Turns (World.handler .unreachable) World.Others (fun i => (calls i).program key) w₀ past w
          programs ∧
        ((Turns.of false past).map Moment.toExchange).countP Exchange.isRefusedWrite = 1 ∧
        (∀ i, ∃ m ∈ Turns.of i past,
          m.IsCommit ∧ (calls i).Committing key .unreachable m (Turns.of i past)) ∧
        (∀ i, ∃ o, programs i = .done (.ok o) ∧
          (calls i).Returns key (.ok o) (Turns.of i past)) ∧
        (w.cluster.stored? .llm key).map Object.finalizers = some ["a", "b"] := by
  intro key calls w₀
  have hgrows : Cluster.empty.Grows w₀.cluster :=
    Cluster.Operation.grows (show (Cluster.Operation.insert (bareLlm key)).Proper from trivial)
      Cluster.placed_empty
  have hplaced : w₀.cluster.Placed := hgrows.placed Cluster.placed_empty
  have hversioned : w₀.cluster.Versioned := hgrows.versioned Cluster.versioned_empty
  have hstart : Turns (World.handler .unreachable) World.Others (fun i => (calls i).program key) w₀
      [] w₀ (fun i => (calls i).program key) := .start
  -- both read the model, then one comes to its end, and then the other
  have hread := (hstart.own true rfl).own false rfl
  obtain ⟨past₁, htrue, hfalse, hfirst⟩ := hread.finish_exchanges true
  obtain ⟨past, hfalse', htrue', hboth⟩ := hfirst.finish_exchanges false
  rw [hfalse false Bool.false_ne_true] at hfalse'
  have hkept := no_lost_update .unreachable key calls hplaced hversioned hboth
  have hcommits : ∀ i, ∃ x ∈ (Turns.of i past).map Moment.toExchange, x.IsCommit := by
    rintro (_ | _)
    · rw [hfalse']
      decide +kernel
    · rw [htrue' true Bool.false_ne_true.symm, htrue]
      decide +kernel
  refine ⟨hplaced, hversioned, past, _, _, hboth, ?_, fun i => ?_, fun i => ?_, by decide +kernel⟩
  · rw [hfalse']
    decide +kernel
  · obtain ⟨x, hx, hcommit⟩ := hcommits i
    obtain ⟨m, hm, rfl⟩ := List.mem_map.1 hx
    exact ⟨m, hm, hcommit, (hkept i).1 m hm hcommit⟩
  · have hreturned {p : Program (Except AccessError (Object .llm))} {r}
        (hreturns : ∀ r, p = .done r → (calls i).Returns key r (Turns.of i past))
        (hdone : p = .done r) (hok : r.isOk) :
        ∃ o, p = .done (.ok o) ∧ (calls i).Returns key (.ok o) (Turns.of i past) := by
      cases r with
      | error e => cases hok
      | ok o => exact ⟨o, hdone, hreturns _ hdone⟩
    cases i with
    | false => exact hreturned (hkept false).2.2 rfl (by decide +kernel)
    | true => exact hreturned (hkept true).2.2 rfl (by decide +kernel)

end Amendment

end ModelKeeper

import Mathlib.Data.List.Basic
import ModelKeeper.Pass.Entry
import ModelKeeper.Proofs.Operator.Amend
import ModelKeeper.Proofs.Pass.Walk

/-!
# Which objects get the finalizer

A pass puts the finalizer on an object if the object was new when the pass began.  Whether it still
is when the finalizer is written is not looked at again: the object may have been marked for
deletion meanwhile, and be kept by the finalizers of others.  Then an object that was gone
terminates once more.

`Pass.finalizer_added_to_new` says for any number of passes in turns, and whatever others do in
between, that this is the only way: the deletion was not requested when the pass began.
`Pass.finalizer_added_to_gone` is such a run.
-/

namespace ModelKeeper

variable {σ : Type} {v : Vendors σ} {k : Kind} {key home : Key}

/-! ### Requests that leave finalizers alone -/

/-- Whether a request replaces everything but the status of an object of a kind. -/
def Request.Updates (k : Kind) : Request → Prop
  | .update j _ => j = k
  | _ => False

namespace Cluster

variable {c : Cluster} {b a : Object k}

theorem stored?_create (hb : c.stored? k key = some b) {o : Object k}
    (ha : (c.create o).2.stored? k key = some a) : a = b := by
  cases hkey : o.requireKey with
  | error e =>
    simp only [create, hkey] at ha
    exact Option.some.inj (ha.symm.trans hb)
  | ok home =>
    have hplace := Object.IsAt.of_requireKey hkey
    cases hs : c.stored? k home with
    | none =>
      have hhome : ¬ (k = k ∧ key = home) := by
        rintro ⟨-, rfl⟩
        rw [hb] at hs
        cases hs
      rw [create_absent hplace hs, stored?_store_of_ne hhome] at ha
      exact Option.some.inj (ha.symm.trans hb)
    | some stored =>
      rw [create_present hplace hs] at ha
      exact Option.some.inj (ha.symm.trans hb)

theorem finalizers_delete (hb : c.stored? k key = some b) {now : Instant}
    (ha : (c.delete k home now).2.stored? k key = some a) : a.finalizers = b.finalizers := by
  have hsame : c.stored? k key = some a → a.finalizers = b.finalizers := fun h => by
    rw [Option.some.inj (h.symm.trans hb)]
  unfold delete at ha
  cases hs : c.stored? k home with
  | none =>
    rw [hs] at ha
    exact hsame ha
  | some stored =>
    simp only [hs] at ha
    by_cases hhome : key = home
    · subst hhome
      obtain rfl := Option.some.inj (hb.symm.trans hs)
      split at ha
      · simp at ha
      · split at ha
        · exact hsame ha
        · -- the object is marked, and nothing else
          rw [stored?_store_self] at ha
          rw [← Option.some.inj ha]
          rfl
    · have hne : ¬ (k = k ∧ key = home) := fun hboth => hhome hboth.2
      split at ha
      · exact hsame ((stored?_remove_of_ne hne c).symm.trans ha)
      · split at ha
        · exact hsame ha
        · exact hsame ((stored?_store_of_ne hne c.nextVersion _).symm.trans ha)

end Cluster

/-- Only updates change the finalizers of an object that is there. -/
theorem World.finalizers_answer {r : Request} (hr : ¬ r.Updates k) {w : World σ} {b a : Object k}
    (hb : w.cluster.stored? k key = some b)
    (ha : (answer v r w).2.cluster.stored? k key = some a) : a.finalizers = b.finalizers := by
  by_cases hwrites : r.Writes k
  · cases r with
    | create j o =>
      obtain rfl : j = k := hwrites
      rw [Cluster.stored?_create hb ha]
    | update j o => exact absurd hwrites hr
    | updateStatus j o =>
      obtain rfl : j = k := hwrites
      rcases Half.stored?_put .status hb ha with rfl | ⟨-, -, rfl⟩
      · rfl
      · rfl
    | delete j home =>
      obtain rfl : j = k := hwrites
      exact Cluster.finalizers_delete hb ha
    | _ => exact hwrites.elim
  · rw [stored_answer v hwrites w key, hb] at ha
    rw [Option.some.inj ha]

/-! ### What passes owe -/

/-- Whether a moment turns the object `b`, which lacks the finalizer, into `a`, which has it. -/
structure Moment.Adds (v : Vendors σ) (home : Key) (m : Moment (World σ)) (b a : Object k) :
    Prop where
  before : m.before.cluster.stored? k home = some b
  after : (m.clusterAfter v).stored? k home = some a
  lacked : k.finalizer ∉ b.finalizers
  has : k.finalizer ∈ a.finalizers

namespace Pass

/-- Whether the first of these moments was the reading of a new object. -/
def BeganNew (k : Kind) (key : Key) (past : List (Moment (World σ))) : Prop :=
  ∃ read, ∃ first : Object k, [read] <:+ past ∧ read.toExchange = ⟨.get k key, .ok first⟩ ∧
    Lifecycle.of first k.finalizer = .new

/-- What has to be the case if the finalizer is added after these moments: it is put at the end of
the list of the object that the pass is over, and nothing is said about deletion; this object was
read before as it stands, and it was new when the pass began. -/
structure Justified (key home : Key) (past : List (Moment (World σ))) (b a : Object k) : Prop where
  home : home = key
  finalizers : a.finalizers = b.finalizers ++ [k.finalizer]
  deletion : a.metadata.deletion = b.metadata.deletion
  read : ∃ m ∈ past, m.toExchange = ⟨.get k key, .ok b.settled⟩
  new : BeganNew k key past

/-- Whether the finalizer was added only where this was justified. -/
def Careful (v : Vendors σ) (k : Kind) (key : Key) : List (Moment (World σ)) → Prop
  | [] => True
  | m :: past =>
    (∀ home, ∀ b a : Object k, m.Adds v home b a → Justified key home past b a) ∧
      Careful v k key past

/-- What a pass knows and owes. -/
def careful (v : Vendors σ) (k : Kind) (key : Key) : Terms (World σ) where
  possible := Amendment.Known key k
  promise := Careful v k key

variable {past : List (Moment (World σ))} {r : Request} {w : World σ}

theorem BeganNew.cons (h : BeganNew k key past) (m : Moment (World σ)) :
    BeganNew k key (m :: past) := by
  obtain ⟨read, first, hsuffix, hread, hnew⟩ := h
  exact ⟨read, first, hsuffix.trans (List.suffix_cons m past), hread, hnew⟩

theorem Careful.cons (h : Careful v k key past) (hr : ¬ r.Updates k) (w : World σ) :
    Careful v k key ((World.handler v).moment r w :: past) := by
  refine ⟨fun home b a hadds => ?_, h⟩
  have hsame : a.finalizers = b.finalizers :=
    World.finalizers_answer hr hadds.before hadds.after
  exact absurd (hsame ▸ hadds.has) hadds.lacked

theorem Careful.of_suffix {m : Moment (World σ)} {earlier : List (Moment (World σ))}
    (h : Careful v k key past) (hsuffix : m :: earlier <:+ past) {home : Key} {b a : Object k}
    (hadds : m.Adds v home b a) : Justified key home earlier b a := by
  induction past with
  | nil => simp at hsuffix
  | cons m' past ih =>
    rcases List.suffix_cons_iff.1 hsuffix with heq | hsuffix
    · obtain ⟨rfl, rfl⟩ := List.cons.inj heq
      exact h.1 home b a hadds
    · exact ih h.2 hsuffix

/-! ### Passes keep to it -/

/-- Whether a program adds no finalizer without justification. -/
abbrev IsCareful {δ α : Type} (v : Vendors σ) (k : Kind) (key : Key) (p : Attempt δ α) : Prop :=
  p.Keeps (.amid (World.handler v) (careful v k key)) (Careful v k key)

theorem careful_ask (hr : ¬ r.Updates k) :
    (Program.ask r).Keeps (.amid (World.handler v) (careful v k key)) (Careful v k key) :=
  fun _ hpast w _ => ⟨hpast.cons hr w, hpast.cons hr w⟩

theorem careful_hushed (v : Vendors σ) (k : Kind) (key : Key) :
    (Meaning.amid (World.handler v) (careful v k key)).Hushed (Careful v k key) where
  monotone := Meaning.amid_monotone _ _
  ask r hquiet := careful_ask fun hupdates => by
    cases r with
    | update j o => exact hquiet
    | _ => exact hupdates

theorem careful_status (change : Change k) (attempts : Nat) :
    IsCareful v k key (amend .status k home attempts change) :=
  amend.keeps_status (Meaning.amid_monotone _ _) (careful_ask id) (careful_ask id)
    (fun _ => careful_ask id) change attempts

/-- The object that was read last is written back with a change.  Where this adds the finalizer, the
pass has to have begun with a new object. -/
theorem Careful.write (h : Careful v k key past) {change : Change k} (hproper : change.Proper)
    {copy : Object k} (hread : ∃ m ∈ past, m.toExchange = ⟨.get k key, .ok copy⟩)
    (hfresh : w.cluster.Fresh key copy) {now : Instant}
    (hchange : k.finalizer ∉ copy.finalizers → k.finalizer ∈ (change now copy).1.finalizers →
      BeganNew k key past ∧ (change now copy).1.finalizers = copy.finalizers ++ [k.finalizer]) :
    Careful v k key ((World.handler v).moment (.update k (change now copy).1) w :: past) := by
  refine ⟨fun home b a hadds => ?_, h⟩
  rcases Half.stored?_put .body hadds.before hadds.after with rfl | ⟨hplace, hversion, rfl⟩
  · exact absurd hadds.has hadds.lacked
  · have hhome : home = key := hplace.own.symm.trans (hproper.isAt hfresh.isAt now).own
    obtain rfl := hhome
    -- the object is as it was read, since the write went through
    have hsame : b.settled = copy := by
      rw [hproper.version] at hversion
      refine hfresh.same b hadds.before ?_
      rcases hversion with hnone | hversion
      · obtain ⟨n, -, hn⟩ := hfresh.version
        simp [hn] at hnone
      · exact hversion.symm
    obtain rfl := hsame
    obtain ⟨hnew, hfinalizers⟩ := hchange hadds.lacked hadds.has
    -- neither the change nor the store touches the mark of deletion
    have hdeletion : (change now b.settled).1.metadata.deletion = b.metadata.deletion := by
      obtain ⟨labels, annotations, finalizers, hmeta⟩ := hproper now b.settled
      rw [hmeta]
      rfl
    exact ⟨rfl, hfinalizers, by simp [Half.replaced, Cluster.merged, hdeletion], hread, hnew⟩

/-- An amendment of the body.  `adds` says whether the change may add the finalizer; then the pass
has to have begun with a new object. -/
theorem careful_body (adds : Prop) {change : Change k} (hproper : change.Proper)
    (hchange : ∀ now copy, k.finalizer ∉ copy.finalizers →
      k.finalizer ∈ (change now copy).1.finalizers →
      adds ∧ (change now copy).1.finalizers = copy.finalizers ++ [k.finalizer]) (attempts : Nat) :
    (amend .body k key attempts change).Keeps (.amid (World.handler v) (careful v k key))
      (fun past => Careful v k key past ∧ (adds → BeganNew k key past)) := by
  refine amend.keeps (Meaning.amid_monotone _ _) (fun past hpast => ?_) attempts
  obtain ⟨hcareful, hnew⟩ := hpast
  -- the read
  intro w hw
  have hgot := hcareful.cons (r := .get k key) id w
  have hnew := fun h => (hnew h).cons ((World.handler v).moment (.get k key) w)
  refine ⟨hgot, ?_⟩
  have hanswer : ((World.handler v).answer (.get k key) w).1 = w.cluster.get k key := rfl
  rw [hanswer]
  cases hget : w.cluster.get k key with
  | error e => exact ⟨hgot, hnew⟩
  | ok copy =>
    -- the look at the clock
    intro w' _
    have hlooked := hgot.cons (r := .now) id w'
    have hnew := fun h => (hnew h).cons ((World.handler v).moment .now w')
    refine ⟨hlooked, ?_⟩
    generalize ((World.handler v).answer .now w').1 = now
    split
    · -- the write
      intro w'' hw''
      have hread : ((World.handler v).moment (.get k key) w).toExchange =
          ⟨.get k key, .ok copy⟩ := by
        rw [← hget]
        rfl
      have hfresh : w''.cluster.Fresh key copy := hw''.fresh _ (by simp) copy hread
      have hwritten := hlooked.write hproper ⟨_, by simp, hread⟩ hfresh fun hlacked hhas =>
        (hchange now copy hlacked hhas).imp_left hnew
      exact ⟨hwritten, hwritten, fun h => (hnew h).cons _⟩
    · exact ⟨hlooked, hnew⟩

theorem careful_amend {change : Change k} (hproper : change.Proper)
    (hchange : ∀ now copy, (change now copy).1.finalizers ⊆ copy.finalizers) (attempts : Nat) :
    IsCareful v k key (amend .body k key attempts change) := by
  intro past hpast
  exact Program.wp_mono (Meaning.amid_monotone _ _) (fun _ _ h => h.1) _
    (careful_body False hproper
      (fun now copy hlacked hhas => absurd (hchange now copy hhas) hlacked) attempts past
      ⟨hpast, False.elim⟩)

/-- An object is given the finalizer if it is new. -/
theorem wp_advance_careful {o : Object k} (hplace : o.IsAt key) (hpast : Careful v k key past)
    (hnew : Lifecycle.of o k.finalizer = .new → BeganNew k key past) (attempts : Nat) :
    (advance o k.finalizer attempts).wp (.amid (World.handler v) (careful v k key))
      (fun _ past => Careful v k key past) past := by
  have hm := Meaning.amid_monotone (World.handler v) (careful v k key)
  unfold advance
  simp only [hplace.own]
  -- new, terminating, and the two lifecycles that leave the finalizers alone
  split
  · next h =>
    have hadd : ∀ now : Instant, ∀ copy : Object k, k.finalizer ∉ copy.finalizers →
        k.finalizer ∈ (copy.addFinalizer k.finalizer).1.finalizers →
        True ∧ (copy.addFinalizer k.finalizer).1.finalizers =
          copy.finalizers ++ [k.finalizer] := by
      intro _ copy hlacked _
      rw [Object.addFinalizer_of_not_mem hlacked]
      exact ⟨trivial, rfl⟩
    rw [Attempt.wp_bind]
    refine Program.wp_mono hm (fun r past h => ?_) _
      (careful_body True (Object.addFinalizer_ofFinalizers k k.finalizer).proper hadd attempts past
        ⟨hpast, fun _ => hnew h⟩)
    cases r <;> exact h.1
  · have hremove : ∀ now : Instant, ∀ copy : Object k,
        (copy.removeFinalizer k.finalizer).1.finalizers ⊆ copy.finalizers := by
      intro _ copy
      by_cases hmem : k.finalizer ∈ copy.finalizers
      · rw [Object.removeFinalizer_of_mem hmem]
        exact List.filter_subset_self _
      · rw [Object.removeFinalizer_of_not_mem hmem]
        exact List.Subset.refl _
    rw [Attempt.wp_bind]
    unfold removeFinalizer
    rw [Attempt.wp_of, Program.wp_bind']
    refine Program.wp_mono hm (fun r past hpast => ?_) _
      (careful_amend (Object.removeFinalizer_ofFinalizers k k.finalizer).proper hremove attempts
        past hpast)
    cases r with
    | ok o => exact hpast
    | error e => cases e <;> exact hpast
  · exact hpast
  · exact hpast

theorem wp_frame_careful {work : Object k → Attempt Failure (Option Directive)}
    {settings : Settings} (hwork : ∀ o, o.IsAt key → IsCareful v k key (work o)) :
    (frame settings key work).wp (.amid (World.handler v) (careful v k key))
      (fun _ past => Careful v k key past) [] := by
  unfold frame access
  simp only [Attempt.wp_bind, Attempt.wp_mapError, Objects.find?, Attempt.wp_of,
    Program.wp_bind', Program.ask, Program.wp_step, Program.wp_done]
  intro w hw
  have hstart : Careful v k key [] := trivial
  have hread := hstart.cons (r := .get k key) id w
  refine ⟨hread, ?_⟩
  have hanswer : ((World.handler v).answer (.get k key) w).1 = w.cluster.get k key := rfl
  rw [hanswer]
  -- the copy that is read now is the one whose lifecycle is acted on
  cases hget : w.cluster.get k key with
  | error e => cases e <;> exact hread
  | ok o =>
    obtain ⟨stored, hs, rfl⟩ := Cluster.stored_of_get hget
    have hplace : stored.settled.IsAt key := (hw.placed k key stored hs).settled
    simp only [Program.wp_pure, Attempt.mapError_ok, Attempt.unlessFailed_ok, Attempt.wp_bind,
      Attempt.wp_mapError]
    refine Program.wp_mono (Meaning.amid_monotone _ _) (fun r past hpast => ?_) _
      (wp_advance_careful hplace hread (fun hnew => ⟨_, stored.settled, List.suffix_refl _, ?_,
        hnew⟩) settings.writeAttempts)
    · cases r with
      | error e => exact hpast
      | ok directive =>
        cases directive with
        | some d => exact hpast
        | none => exact hwork stored.settled hplace past hpast
    · rw [← hget]
      rfl

theorem careful_works (v : Vendors σ) (w : Worked) (key : Key) :
    w.Works key (· = key) fun _ p =>
      p.Keeps (.amid (World.handler v) (careful v w.kind key)) (Careful v w.kind key) where
  toReporting := (careful_hushed v w.kind key).reporting
  label hllm place hplace type attempts := by
    subst hllm hplace
    refine careful_amend (Llm.label_proper type) (fun now copy => ?_) attempts
    unfold Object.finalizers
    rw [Llm.label_finalizers]
    exact List.Subset.refl _
  record change _ := careful_status change
  look _ p := careful_ask id
  make _ p source := careful_ask id
  check _ := (careful_hushed v w.kind key).check
  send _ := (careful_hushed v w.kind key).send

theorem wp_reconcile_careful (v : Vendors σ) (w : Worked) (settings : Settings) (key : Key) :
    (reconcile w settings key).wp (.amid (World.handler v) (careful v w.kind key))
      (fun _ past => Careful v w.kind key past) [] := by
  unfold reconcile
  rw [Program.wp_bind']
  have h := careful_works v w key
  cases w with
  | llm => exact wp_frame_careful fun o hplace => h.steps.llm_work hplace.own
  | model => exact wp_frame_careful fun o _ => h.steps.model_work o
  | prompt => exact wp_frame_careful fun o _ => h.steps.prompt_work o

/-- The finalizer is added to objects that were new when the pass began.  In every run of any number
of passes in turns, with others acting in between, let a request of a pass turn an object that lacks
the finalizer of the kind into one that has it.  Then this is the object that the pass is over, the
finalizer is put at the end of its list, and its mark of deletion stays as it is; and the pass began
with a look at the object, which was not marked for deletion then.

So if an object that is marked gets the finalizer then it was marked after the pass began.  The pass
has seen the mark: it has read the object since as it stands. -/
theorem finalizer_added_to_new {ι : Type} [DecidableEq ι] (v : Vendors σ) (w : ι → Worked)
    (settings : ι → Settings) (keys : ι → Key) {w₀ s : World σ} (hplaced : w₀.cluster.Placed)
    (hversioned : w₀.cluster.Versioned) {past : List (ι × Moment (World σ))}
    {programs : ι → Program (Except Failure Directive)}
    (run : Turns (World.handler v) World.Others
      (fun i => reconcile (w i) (settings i) (keys i)) w₀ past s programs)
    {i : ι} {m : Moment (World σ)} {earlier : List (Moment (World σ))}
    (hm : m :: earlier <:+ Turns.of i past) {home : Key} {b a : Object (w i).kind}
    (hadds : m.Adds v home b a) :
    Justified (keys i) home earlier b a := by
  obtain ⟨-, hcareful, -⟩ := run.keeps
    (Amendment.known_stable v keys (fun i => (w i).kind) fun i => Careful v (w i).kind (keys i))
    (fun i => ⟨hplaced, hversioned, by simp⟩) (fun i => trivial)
    (fun i => wp_reconcile_careful v (w i) (settings i) (keys i)) i
  exact hcareful.of_suffix hm hadds

/-- Where a language model is kept. -/
def keptKey : Key := ⟨"default", "m"⟩

/-- A language model that a finalizer of somebody else keeps. -/
def keptLlm : Object .llm where
  metadata := { name := some keptKey.name, ns := some keptKey.ns, finalizers := some ["other"] }
  spec := {}

/-- A world with this language model, and after its deletion has been requested. -/
def keptWorld : World Unit where
  cluster := (Cluster.empty.insert keptLlm).2
  vendors := ()

def markedWorld : World Unit :=
  { keptWorld with cluster := (keptWorld.cluster.delete .llm keptKey ⟨0, 0⟩).2 }

/-- The deletion of a language model is requested after the first look of a pass.  Then it is gone,
and terminates once more. -/
theorem finalizer_added_to_gone :
    keptWorld.cluster.Placed ∧ keptWorld.cluster.Versioned ∧
      ∃ past s programs m earlier,
        Turns (World.handler .unreachable) World.Others
          (fun _ : Unit => reconcile .llm {} keptKey) keptWorld past s programs ∧
        m :: earlier <:+ Turns.of () past ∧
        ∃ b a : Object .llm, m.Adds .unreachable keptKey b a ∧
          Lifecycle.of b Kind.llm.finalizer = .gone ∧
          Lifecycle.of a Kind.llm.finalizer = .terminating ∧
          Justified keptKey keptKey earlier b a := by
  have hgrows : Cluster.empty.Grows keptWorld.cluster := Cluster.grows_insert _ _
  have hplaced := hgrows.placed Cluster.placed_empty
  have hversioned := hgrows.versioned Cluster.versioned_empty
  have hstart : Turns (World.handler .unreachable) World.Others
      (fun _ : Unit => reconcile .llm {} keptKey) keptWorld [] keptWorld _ := .start
  have hread := hstart.own () rfl
  have hdelete : World.Others ((World.handler .unreachable).answer (.get .llm keptKey) keptWorld).2
      markedWorld := ⟨.delete .llm keptKey ⟨0, 0⟩, trivial, rfl⟩
  -- the language model is read again, the clock is looked at, and the finalizer is written
  have hreread := (hread.others hdelete).own () rfl
  have hlooked := hreread.own () rfl
  have run := hlooked.own () rfl
  refine ⟨hplaced, hversioned, _, _, _, _, _, run, List.suffix_refl _, _, _,
    ⟨rfl, rfl, by decide, by decide⟩, by decide, by decide, ?_⟩
  exact finalizer_added_to_new .unreachable (fun _ => .llm) (fun _ => {}) (fun _ => keptKey)
    hplaced hversioned run (List.suffix_refl _) ⟨rfl, rfl, by decide, by decide⟩

end Pass

end ModelKeeper

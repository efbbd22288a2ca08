import ModelKeeper.Proofs.Operator.Delays
import ModelKeeper.Proofs.Pass.Accounts.Balance
import ModelKeeper.Proofs.Program.Trace
import ModelKeeper.World.Session

/-!
# Metrics account for every pass

The operator visits one object after the other: it enters a pass, and if the pass fails then this is
dealt with once (`Pass.attend`).  Others may do what they like before, after and in between, as long
as they leave the counts alone (`Pass.Attended`).

Then the counts tell what has happened (`Pass.every_pass_accounted`): how many passes there were
over each kind, how many failed, how many wait for more than a change of their object and how many
only for an edit, what was asked of vendors and what they failed to do, and which parts of image
stores were made.

It does not matter who answers, as long as counting counts and nothing else does
(`Handler.Tallies`).  This is so in a world of its own (`World.tallies_handler`) and with an API
server (`Session.tallies_handler`).
-/

namespace ModelKeeper

/-! ### Failures that only an edit can mend -/

/-- The failures that lie in what the object says. -/
inductive Failure.OfConfiguration : Failure → Prop
  | configuration (text : String) : OfConfiguration (.configuration text)
  | provider (e : ProviderError) : OfConfiguration (.provider e)
  | missingSecretRef : OfConfiguration (.auth .missingSecretRef)
  | emptyKey : OfConfiguration (.chat .emptyKey)
  | unsupportedVendor (name : String) : OfConfiguration (.chat (.unsupportedVendor name))
  | invalidPayload (reason : ReadError) : OfConfiguration (.chat (.invalidPayload reason))

theorem Failure.isConfiguration_iff (e : Failure) :
    e.isConfiguration ↔ e.innermost.OfConfiguration := by
  induction e with
  | configuration text => exact ⟨fun _ => .configuration text, fun _ => rfl⟩
  | provider e => exact ⟨fun _ => .provider e, fun _ => rfl⟩
  | auth e =>
    refine ⟨fun h => ?_, fun h => by cases h; rfl⟩
    rw [of_decide_eq_true h]
    exact .missingSecretRef
  | chat e =>
    constructor
    · intro h
      cases e with
      | emptyKey => exact .emptyKey
      | unsupportedVendor name => exact .unsupportedVendor name
      | invalidPayload reason => exact .invalidPayload reason
      | _ => cases h
    · intro h
      cases h <;> rfl
  | access | notReady | requeueAfter => exact ⟨fun h => (by cases h), fun h => (by cases h)⟩
  | delayed d source ih => exact ih

instance (e : Failure) : Decidable e.innermost.OfConfiguration :=
  decidable_of_iff _ e.isConfiguration_iff

/-! ### Counting -/

/-- Whether it is left to the passes themselves to count something. -/
def Metric.IsOfPass : Metric → Prop
  | .provisioned _ | .llmRequests _ | .llmRequestErrors _ | .llmRequestDuration _ => True
  | _ => False

/-- How often anything was to be done again, for whatever reason. -/
def Counters.requeues (c : Counters) : Nat :=
  c.count (.requeues .immediate) + c.count (.requeues .scheduled) +
    c.count (.requeues .configurationError) + c.count (.requeues .errorBackoff)

variable {σ : Type} {h : Handler σ} {counters : σ → Counters}

/-- Whether requests to count are counted, and nothing else. -/
structure Handler.Tallies (h : Handler σ) (counters : σ → Counters) : Prop where
  count : ∀ m s, counters (h.answer (.count m) s).2 = (counters s).increment m
  other : ∀ r s, (∀ m, r ≠ .count m) → counters (h.answer r s).2 = counters s

theorem World.tallies_handler {τ : Type} (v : Vendors τ) :
    (World.handler v).Tallies World.counters where
  count _ _ := rfl
  other r s hr := by
    cases r with
    | count m => exact absurd rfl (hr m)
    | _ => rfl

theorem Session.tallies_handler {τ : Type} (exchange : Api.Exchange σ) (v : Vendors τ) :
    (Session.handler exchange v).Tallies Session.counters where
  count _ _ := rfl
  other r s hr := by
    have hown : ∀ {α : Type} {k : Kind} (o : Object k) (c : Key → Api.Call α),
        (s.aboutOwn exchange o c).2.counters = s.counters := fun o c => by
      unfold Session.aboutOwn
      cases o.requireKey <;> rfl
    cases r with
    | count m => exact absurd rfl (hr m)
    | create k o | update k o | updateStatus k o => exact hown o _
    | _ => rfl

theorem Handler.Tallies.step (ht : h.Tallies counters) (r : Request) (s : σ) (m : Metric) :
    (counters (h.answer r s).2).count m =
      (counters s).count m + if Exchange.counts m ⟨r, (h.answer r s).1⟩ then 1 else 0 := by
  cases r with
  | count m' => simp [ht.count, Counters.count_increment, Exchange.counts]
  | _ => simp [ht.other, Exchange.counts]

/-- A run adds what its exchanges count. -/
theorem Handler.Tallies.run {α : Type} (ht : h.Tallies counters) (p : Program α) (s : σ)
    (m : Metric) : (counters (p.run h s).2).count m =
      (counters s).count m + (p.exchanges h s).countP (·.counts m) := by
  induction p generalizing s with
  | done a => rfl
  | step r next ih =>
    have hrest := ih (h.answer r s).1 (h.answer r s).2
    have hstep := ht.step r s m
    rw [Program.exchanges, List.countP_cons]
    rw [hstep, Nat.add_assoc, Nat.add_comm (ite _ _ _)] at hrest
    exact hrest

namespace Pass

/-! ### Visits -/

/-- A pass over an object; a failure is dealt with once. -/
def attend (w : Worked) (settings : Settings) (key : Key) : Program (Except Failure Action) := do
  let result ← enter w settings key
  match result with
  | .ok action => pure (.ok action)
  | .error e =>
    let _ ← afterFailure w settings e
    pure (.error e)

/-- What is to be known of a visit to an object. -/
structure Visit where
  worked : Worked
  result : Except Failure Action
  exchanges : List Exchange

namespace Visit

/-- Whether the pass ended in an error. -/
def failed (x : Visit) : Bool := !x.result.isOk

/-- Whether the pass ended so that only a change of the object calls for another one, which is said
by no other directive than `done`. -/
def isDone (x : Visit) : Bool :=
  match x.result with
  | .ok .awaitChange => true
  | _ => false

/-- Whether the pass ended in an error that only an edit of the object can mend. -/
def isBlocked (x : Visit) : Bool :=
  match x.result with
  | .ok _ => false
  | .error e => decide e.innermost.OfConfiguration

end Visit

/-- The visits in the course of events from a state on, the last one first.  Others may do anything
in between, but they count nothing. -/
inductive Attended (h : Handler σ) (counters : σ → Counters) (s₀ : σ) : List Visit → σ → Prop
  | start : Attended h counters s₀ [] s₀
  | visit (w : Worked) (settings : Settings) (key : Key) {visits : List Visit} {s : σ} :
    Attended h counters s₀ visits s →
    Attended h counters s₀
      (⟨w, ((attend w settings key).run h s).1, (attend w settings key).exchanges h s⟩ :: visits)
      ((attend w settings key).run h s).2
  | others {visits : List Visit} {s s' : σ} : Attended h counters s₀ visits s →
    counters s' = counters s → Attended h counters s₀ visits s'

/-- The exchanges of visits. -/
def allExchanges (visits : List Visit) : List Exchange := visits.flatMap (·.exchanges)

theorem allExchanges_cons (x : Visit) (visits : List Visit) :
    allExchanges (x :: visits) = x.exchanges ++ allExchanges visits := List.flatMap_cons

/-! ### What a visit counts by itself -/

/-- What is counted after a pass with this result. -/
def countedAfter (w : Worked) : Except Failure Directive → List Metric
  | .ok d => (requeueReason? d).toList.map .requeues
  | .error e => [.reconciliationErrors w.kind, .requeues e.requeueReason]

/-- What is counted about a pass with this result, besides what the pass counts. -/
def countedAround (w : Worked) (result : Except Failure Directive) : List Metric :=
  .reconciliations w.kind :: .reconciliationDuration w.kind :: countedAfter w result

theorem notMem_countedAround {m : Metric} (hm : m.IsOfPass) {w : Worked}
    {result : Except Failure Directive} : m ∉ countedAround w result := by
  intro hmem
  cases result with
  | error e =>
    simp only [countedAround, countedAfter, List.mem_cons, List.not_mem_nil, or_false] at hmem
    rcases hmem with rfl | rfl | rfl | rfl <;> exact hm
  | ok d =>
    simp only [countedAround, countedAfter, List.mem_cons, List.mem_map] at hmem
    rcases hmem with rfl | rfl | ⟨reason, -, rfl⟩ <;> exact hm

theorem yields_count (m : Metric) (s : σ) : (Program.ask (.count m)).Yields h s ()
    [⟨.count m, ()⟩] (h.answer (.count m) s).2 :=
  Program.yields_ask h (.count m) s

/-- The exchanges of a visit are those of the pass, amid what is counted around it. -/
theorem yields_attend {w : Worked} {settings : Settings} {key : Key} {s s₂ : σ}
    {result : Except Failure Directive} {xs : List Exchange}
    (hpass : (reconcile w settings key).Yields h
      (h.answer (.count (.reconciliations w.kind)) s).2 result xs s₂) :
    ∃ s', (attend w settings key).Yields h s (result.map Directive.action)
      (⟨.count (.reconciliations w.kind), ()⟩ :: (xs ++
        ⟨.count (.reconciliationDuration w.kind), ()⟩ ::
          (countedAfter w result).map fun m => ⟨.count m, ()⟩)) s' := by
  have hbegin := yields_count (h := h) (.reconciliations w.kind) s
  have hend := yields_count (h := h) (.reconciliationDuration w.kind) s₂
  cases result with
  | error e =>
    have henter : (enter w settings key).Yields h s (.error e) _ _ :=
      hbegin.bind (hpass.bind (hend.bind (Program.yields_done _)))
    have hafter : ∀ s, (afterFailure w settings e).Yields h s _ _ _ := fun s =>
      (yields_count _ s).bind ((yields_count _ _).bind (Program.yields_done _))
    have hattend : (attend w settings key).Yields h s (.error e) _ _ :=
      henter.bind ((hafter _).bind (Program.yields_done _))
    exact ⟨_, by simpa [countedAfter, Except.map] using hattend⟩
  | ok d =>
    have hattend : ∀ {ys s'}, (enter w settings key).Yields h s (.ok d.action) ys s' →
        (attend w settings key).Yields h s (.ok d.action) (ys ++ []) s' := fun henter =>
      henter.bind (Program.yields_done _)
    -- there is something to be counted unless only a change of the object calls for another pass
    cases d with
    | done =>
      have henter : (enter w settings key).Yields h s (.ok (Directive.action .done)) _ _ :=
        hbegin.bind (hpass.bind (hend.bind (Program.yields_done _)))
      exact ⟨_, by simpa [countedAfter, requeueReason?, Except.map] using hattend henter⟩
    | immediate =>
      have henter : (enter w settings key).Yields h s (.ok (Directive.action .immediate)) _ _ :=
        hbegin.bind (hpass.bind (hend.bind ((yields_count _ _).bind (Program.yields_done _))))
      exact ⟨_, by simpa [countedAfter, requeueReason?, Except.map] using hattend henter⟩
    | after d =>
      have henter : (enter w settings key).Yields h s (.ok (Directive.action (.after d))) _ _ :=
        hbegin.bind (hpass.bind (hend.bind ((yields_count _ _).bind (Program.yields_done _))))
      exact ⟨_, by simpa [countedAfter, requeueReason?, Except.map] using hattend henter⟩

/-- Whether a visit counted what it did, and what is to be counted around a pass with this
result. -/
structure Visit.Booked (x : Visit) (result : Except Failure Directive) : Prop where
  ends : x.result = result.map Directive.action
  counted : ∀ m, x.exchanges.countP (·.counts m) =
    x.exchanges.countP (·.owes m) + (countedAround x.worked result).count m
  announced : ∀ p : ImageStore.Part,
    x.exchanges.countP (·.announces p) = x.exchanges.countP (·.makes p.kind)

theorem countP_counts_map (m : Metric) (ms : List Metric) :
    (ms.map fun m' => (⟨.count m', ()⟩ : Exchange)).countP (·.counts m) = ms.count m := by
  rw [List.countP_map]
  exact List.countP_congr fun m' _ => by simp

theorem countP_map_count {q : Exchange → Bool} (hq : ∀ m, q ⟨.count m, ()⟩ = false)
    (ms : List Metric) : (ms.map fun m => (⟨.count m, ()⟩ : Exchange)).countP q = 0 := by
  rw [List.countP_map]
  exact List.countP_eq_zero.mpr fun m _ => by simp [hq]

theorem booked_attend (w : Worked) (settings : Settings) (key : Key) (s : σ) :
    ∃ result, Visit.Booked
      ⟨w, ((attend w settings key).run h s).1, (attend w settings key).exchanges h s⟩ result := by
  obtain ⟨s', hattend⟩ := yields_attend (Program.yields_self h (reconcile w settings key)
    (h.answer (.count (.reconciliations w.kind)) s).2)
  -- between the counters around it a pass balances its own
  have hbalanced := balances_reconcile h w settings key
    (h.answer (.count (.reconciliations w.kind)) s).2
  refine ⟨_, congrArg Prod.fst hattend.run, fun m => ?_, fun p => ?_⟩
  · simp only [hattend.exchanges, countedAround, List.countP_cons, List.countP_append,
      List.count_cons, countP_counts_map, countP_map_count (Exchange.owes_count m),
      hbalanced.counted, Exchange.counts_count, Exchange.owes_count, decide_eq_true_eq, beq_iff_eq]
    simp
    omega
  · simp only [hattend.exchanges, List.countP_cons, List.countP_append, hbalanced.announced,
      countP_map_count (Exchange.announces_count p), countP_map_count (Exchange.makes_count p.kind),
      Exchange.announces_count, Exchange.makes_count, Bool.false_eq_true, if_false]

namespace Visit.Booked

variable {x : Visit} {result : Except Failure Directive} (hx : x.Booked result)
include hx

theorem reconciliations (k : Kind) : x.exchanges.countP (·.counts (.reconciliations k)) =
    if x.worked.kind = k then 1 else 0 := by
  rw [hx.counted]
  cases result with
  | error e => simp [Exchange.owes, countedAround, countedAfter, List.count_cons]
  | ok d =>
    cases d <;> simp [Exchange.owes, countedAround, countedAfter, requeueReason?, List.count_cons]

theorem reconciliationErrors (k : Kind) :
    x.exchanges.countP (·.counts (.reconciliationErrors k)) =
      if x.worked.kind = k && x.failed then 1 else 0 := by
  rw [hx.counted, failed, hx.ends]
  cases result with
  | error e =>
    simp [Exchange.owes, countedAround, countedAfter, List.count_cons, Except.map, Except.isOk,
      Except.toBool]
  | ok d =>
    cases d <;>
      simp [Exchange.owes, countedAround, countedAfter, requeueReason?, Except.map, Except.isOk,
        Except.toBool]

theorem requeues :
    x.exchanges.countP (·.counts (.requeues .immediate)) +
      x.exchanges.countP (·.counts (.requeues .scheduled)) +
      x.exchanges.countP (·.counts (.requeues .configurationError)) +
      x.exchanges.countP (·.counts (.requeues .errorBackoff)) = if !x.isDone then 1 else 0 := by
  simp only [hx.counted, isDone, hx.ends]
  cases result with
  | error e =>
    cases hreason : e.requeueReason <;>
      simp [Exchange.owes, countedAround, countedAfter, Except.map, hreason]
  | ok d =>
    cases d <;>
      simp [Exchange.owes, countedAround, countedAfter, requeueReason?, Except.map,
        Directive.action]

theorem configurationErrors : x.exchanges.countP (·.counts (.requeues .configurationError)) =
    if x.isBlocked then 1 else 0 := by
  rw [hx.counted, isBlocked, hx.ends]
  cases result with
  | error e =>
    simp [Exchange.owes, countedAround, countedAfter, List.count_cons, Except.map,
      Failure.requeueReason, ← Failure.isConfiguration_iff]
  | ok d =>
    cases d <;> simp [Exchange.owes, countedAround, countedAfter, requeueReason?, Except.map]

/-- What passes count themselves is counted as often as it is owed. -/
theorem within {m : Metric} (hm : m.IsOfPass) :
    x.exchanges.countP (·.counts m) = x.exchanges.countP (·.owes m) := by
  rw [hx.counted, List.count_eq_zero.mpr (notMem_countedAround hm), Nat.add_zero]

end Visit.Booked

/-! ### All visits -/

/-- What is true of every visit, counted over all of them. -/
theorem count_allExchanges {f : List Exchange → Nat} (hnil : f [] = 0)
    (happend : ∀ xs ys, f (xs ++ ys) = f xs + f ys) {q : Visit → Bool} {visits : List Visit}
    (hvisits : ∀ x ∈ visits, f x.exchanges = if q x then 1 else 0) :
    f (allExchanges visits) = visits.countP q := by
  induction visits with
  | nil => exact hnil
  | cons x visits ih =>
    have hrest := ih fun y hy => hvisits y (List.mem_cons_of_mem _ hy)
    have hfirst := hvisits x List.mem_cons_self
    rw [allExchanges_cons, happend, hfirst, hrest, List.countP_cons, Nat.add_comm]

/-- What is as often as something else in every visit is so in all of them. -/
theorem countP_allExchanges {q q' : Exchange → Bool} {visits : List Visit}
    (hvisits : ∀ x ∈ visits, x.exchanges.countP q = x.exchanges.countP q') :
    (allExchanges visits).countP q = (allExchanges visits).countP q' := by
  induction visits with
  | nil => rfl
  | cons x visits ih =>
    have hrest := ih fun y hy => hvisits y (List.mem_cons_of_mem _ hy)
    have hfirst := hvisits x List.mem_cons_self
    rw [allExchanges_cons, List.countP_append, List.countP_append, hfirst, hrest]

theorem Attended.booked {s₀ s : σ} {visits : List Visit} (hrun : Attended h counters s₀ visits s) :
    ∀ x ∈ visits, ∃ result, x.Booked result := by
  induction hrun with
  | start => exact fun x hx => absurd hx List.not_mem_nil
  | visit w settings key hrun ih =>
    intro x hx
    rcases List.mem_cons.mp hx with rfl | hx
    · exact booked_attend w settings key _
    · exact ih x hx
  | others hrun hsame ih => exact ih

theorem Attended.count (ht : h.Tallies counters) {s₀ s : σ} {visits : List Visit}
    (hrun : Attended h counters s₀ visits s) (m : Metric) :
    (counters s).count m = (counters s₀).count m + (allExchanges visits).countP (·.counts m) := by
  induction hrun with
  | start => rfl
  | visit w settings key hrun ih =>
    simp only [ht.run, ih, allExchanges_cons, List.countP_append]
    omega
  | others hrun hsame ih => rw [hsame, ih]

/-- What the counts before and after visits have to do with these visits. -/
structure Accounts (before after : Counters) (visits : List Visit) : Prop where
  reconciliations : ∀ k, after.count (.reconciliations k) =
    before.count (.reconciliations k) + visits.countP (·.worked.kind = k)
  reconciliationErrors : ∀ k, after.count (.reconciliationErrors k) =
    before.count (.reconciliationErrors k) + visits.countP fun x => x.worked.kind = k && x.failed
  requeues : after.requeues = before.requeues + visits.countP (!·.isDone)
  configurationErrors : after.count (.requeues .configurationError) =
    before.count (.requeues .configurationError) + visits.countP (·.isBlocked)
  llmRequests : ∀ operation, after.count (.llmRequests operation) =
    before.count (.llmRequests operation) + (allExchanges visits).countP (·.invokes operation)
  llmRequestErrors : ∀ operation, after.count (.llmRequestErrors operation) =
    before.count (.llmRequestErrors operation) +
      (allExchanges visits).countP fun x => x.invokes operation && x.isRefusal
  provisioned : ∀ k, after.count (.provisioned k) =
    before.count (.provisioned k) + (allExchanges visits).countP (·.makes k)
  announced : ∀ p : ImageStore.Part, after.count (.provisioned p.kind) =
    before.count (.provisioned p.kind) + (allExchanges visits).countP (·.announces p)

/-- **Metrics account for every pass.**  Whatever visits there are, to whichever objects, and
whatever the requests of their passes are answered, the counts grow by this:

* `reconciliations` of a kind by the number of passes over objects of this kind;
* `reconciliationErrors` of a kind by the number of those that ended in an error;
* `requeues`, over all reasons, by the number of passes that did not end so that only a change of
  the object calls for another one; and `configurationError` among the reasons by the number of
  errors with a failure inside that only an edit can mend;
* `llmRequests` and `llmRequestErrors` of an operation by the number of requests to vendors, and of
  those that failed;
* `provisioned` of a kind by the number of objects of this kind that were created, which for a part
  of an image store is also the number of events that say so. -/
theorem every_pass_accounted (ht : h.Tallies counters) {s₀ s : σ} {visits : List Visit}
    (hrun : Attended h counters s₀ visits s) : Accounts (counters s₀) (counters s) visits := by
  have hbooked := hrun.booked
  -- a counter that goes up once for some passes counts these
  have heach : ∀ {m : Metric} {q : Visit → Bool}, (∀ x result, Visit.Booked x result →
      x.exchanges.countP (·.counts m) = if q x then 1 else 0) →
        (counters s).count m = (counters s₀).count m + visits.countP q := fun hq => by
    rw [hrun.count ht, count_allExchanges rfl (fun _ _ => List.countP_append) fun x hx => ?_]
    obtain ⟨result, hx⟩ := hbooked x hx
    exact hq x result hx
  -- a counter that is kept within a pass counts exchanges, whichever pass they are of
  have hwithin : ∀ m : Metric, m.IsOfPass →
      (counters s).count m = (counters s₀).count m + (allExchanges visits).countP (·.owes m) :=
    fun m hm => by
      rw [hrun.count ht, countP_allExchanges fun x hx => ?_]
      obtain ⟨result, hx⟩ := hbooked x hx
      exact hx.within hm
  have hprovisioned : ∀ k, (counters s).count (.provisioned k) =
      (counters s₀).count (.provisioned k) + (allExchanges visits).countP (·.makes k) :=
    fun k => hwithin (.provisioned k) trivial
  constructor
  case reconciliations =>
    exact fun k => heach fun x result hx => by simpa using hx.reconciliations k
  case reconciliationErrors => exact fun k => heach fun x result hx => hx.reconciliationErrors k
  case requeues =>
    -- a pass that asks to be called again counts under exactly one reason
    have hsum := count_allExchanges (f := fun xs => xs.countP (·.counts (.requeues .immediate)) +
      xs.countP (·.counts (.requeues .scheduled)) +
      xs.countP (·.counts (.requeues .configurationError)) +
      xs.countP (·.counts (.requeues .errorBackoff))) rfl
        (fun xs ys => by simp only [List.countP_append]; omega) fun x hx => by
          obtain ⟨result, hx⟩ := hbooked x hx
          exact hx.requeues
    simp only [Counters.requeues, hrun.count ht]
    omega
  case configurationErrors => exact heach fun x result hx => hx.configurationErrors
  case llmRequests => exact fun operation => hwithin (.llmRequests operation) trivial
  case llmRequestErrors => exact fun operation => hwithin (.llmRequestErrors operation) trivial
  case provisioned => exact hprovisioned
  case announced =>
    intro p
    rw [hprovisioned, countP_allExchanges fun x hx => ?_]
    obtain ⟨result, hx⟩ := hbooked x hx
    exact (hx.announced p).symm

/-- A language model with an endpoint. -/
def distantLlm : Object .llm where
  metadata :=
    { name := some "l", ns := some "default", finalizers := some [Kind.llm.finalizer]
      labels := some (SortedMap.empty.insert providerLabel ProviderType.thirdParty.name) }
  spec :=
    { type := "openai"
      provider :=
        { endpoint := some { url := "http://localhost", authSecret := some { name := "s" } } } }

/-- The key for the endpoint. -/
def distantSecret : Object .secret where
  metadata := { name := some "s", ns := some "default" }
  spec := { data := some (SortedMap.empty.insert apiKeyEntry [107]) }

/-- A model that nothing was done for. -/
def plainModel : Object .model where
  metadata := { name := some "m", ns := some "default", finalizers := some [Kind.model.finalizer] }
  spec := { image := "mistral" }

/-- A prompt that names no language model. -/
def idlePrompt : Object .prompt where
  metadata := { name := some "p", ns := some "default", finalizers := some [Kind.prompt.finalizer] }
  spec := {}

/-- A vendor that cannot be reached, an image store that is made after conflicts, a prompt that has
to be edited, and an object that is not there. -/
theorem every_pass_accounted_mixed :
    let h : Handler (World Unit) := World.handler .unreachable
    let c := ((Cluster.empty.insert distantLlm).2.insert distantSecret).2
    let w₀ : World Unit :=
      { cluster := ((c.insert plainModel).2.insert idlePrompt).2, vendors := () }
    h.Tallies World.counters ∧ ∃ visits w, Attended h World.counters w₀ visits w ∧
      visits.length = 5 ∧ visits.countP (·.failed) = 2 ∧ visits.countP (!·.isDone) = 4 ∧
      visits.countP (·.isBlocked) = 1 ∧ (allExchanges visits).countP (·.invokes .validate) = 1 ∧
      (allExchanges visits).countP (·.makes .statefulSet) = 1 ∧
      Accounts w₀.counters w.counters visits := by
  intro h c w₀
  have ht : h.Tallies World.counters := World.tallies_handler .unreachable
  let harassed (w : World Unit) : World Unit := { w with cluster := w.cluster.injectConflicts 2 }
  have hsame : ∀ w, (harassed w).counters = w.counters := fun _ => rfl
  have run : Attended h World.counters w₀ _ _ :=
    .visit .llm {} ⟨"default", "gone"⟩ (.visit .prompt {} ⟨"default", "p"⟩
      (.visit .model {} ⟨"default", "m"⟩ (.others (.visit .model {} ⟨"default", "m"⟩
        (.visit .llm {} ⟨"default", "l"⟩ .start)) (hsame _))))
  exact ⟨ht, _, _, run, rfl, by decide +kernel, by decide +kernel, by decide +kernel,
    by decide +kernel, by decide +kernel, every_pass_accounted ht run⟩

end Pass

end ModelKeeper

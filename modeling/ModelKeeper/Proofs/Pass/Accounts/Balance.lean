import ModelKeeper.Proofs.Pass.Walk
import ModelKeeper.Proofs.Program.Beside

/-!
# The books of a pass balance

Counts are requests among others, so a program may count what it has not done, or do what it does
not count.  In a balanced list of exchanges (`Balanced`) it is right: every request to a vendor and
every creation of an object is counted as what it is, nothing else is counted, and whoever makes a
part of an image store says so.

No single request is balanced that has to be counted.  But a request to a vendor is together with
its counts (`Pass.balances_validate`, `Pass.balances_call`), the making of a part is together with
its count and its report (`ImageStore.balances_ensure`), and from there on it is a closed property
of programs.  So every pass is balanced, whatever it is answered (`Pass.balances_reconcile`).
-/

namespace ModelKeeper

/-- The reason of the event that its maker reports. -/
def ImageStore.Part.reason : Part → String
  | .claim => EventReason.provisionedClaim
  | .statefulSet => EventReason.provisionedStatefulSet
  | .service => EventReason.provisionedService

theorem ImageStore.Part.event_reason (p : Part) (subject : Subject) :
    (p.event subject).reason = p.reason := by
  cases p <;> rfl

theorem ImageStore.Part.reason_eq_iff {p p' : Part} : p.reason = p'.reason ↔ p.kind = p'.kind := by
  cases p <;> cases p' <;> decide

theorem ImageStore.Part.reason_notMem_notices (p : Part) : p.reason ∉ Pass.Model.notices := by
  cases p <;> decide

/-! ### What exchanges are to be counted as -/

namespace Exchange

/-- Whether this counts something under a metric. -/
def counts (m : Metric) (x : Exchange) : Bool :=
  match x.request with
  | .count m' => m' = m
  | _ => false

/-- Whether this asks something of a vendor. -/
def invokes (operation : Operation) (x : Exchange) : Bool :=
  match x.request with
  | .validate _ _ => .validate = operation
  | .call _ _ => .call = operation
  | _ => false

/-- Whether a vendor failed to do what it was asked for. -/
def isRefusal : Exchange → Bool
  | ⟨.validate _ _, .error _⟩ => true
  | ⟨.call _ _, .error _⟩ => true
  | _ => false

/-- Whether this creates an object of a kind. -/
def makes (k : Kind) : Exchange → Bool
  | ⟨.create k' _, .ok _⟩ => k' = k
  | _ => false

/-- Whether this reports that a part of an image store was made. -/
def announces (p : ImageStore.Part) (x : Exchange) : Bool :=
  match x.request with
  | .emit e => e.reason = p.reason
  | _ => false

/-- Whether this has to be counted under a metric, by whoever does it. -/
def owes : Metric → Exchange → Bool
  | .llmRequests operation, x => x.invokes operation
  | .llmRequestDuration operation, x => x.invokes operation
  | .llmRequestErrors operation, x => x.invokes operation && x.isRefusal
  | .provisioned k, x => x.makes k
  | .reconciliations _, _ => false
  | .reconciliationErrors _, _ => false
  | .reconciliationDuration _, _ => false
  | .requeues _, _ => false

@[simp]
theorem counts_count (m m' : Metric) : counts m ⟨.count m', ()⟩ = decide (m' = m) := rfl

@[simp]
theorem owes_count (m m' : Metric) : owes m ⟨.count m', ()⟩ = false := by
  cases m <;> rfl

@[simp]
theorem announces_count (p : ImageStore.Part) (m : Metric) :
    announces p ⟨.count m, ()⟩ = false := rfl

@[simp]
theorem makes_count (k : Kind) (m : Metric) : makes k ⟨.count m, ()⟩ = false := rfl

@[simp]
theorem counts_emit (m : Metric) (e : Event) : counts m ⟨.emit e, ()⟩ = false := rfl

@[simp]
theorem owes_emit (m : Metric) (e : Event) : owes m ⟨.emit e, ()⟩ = false := by
  cases m <;> rfl

@[simp]
theorem announces_emit (p : ImageStore.Part) (e : Event) :
    announces p ⟨.emit e, ()⟩ = decide (e.reason = p.reason) := rfl

@[simp]
theorem makes_emit (k : Kind) (e : Event) : makes k ⟨.emit e, ()⟩ = false := rfl

end Exchange

/-- Whether as much is counted as is owed, and as many parts of an image store are reported as are
made. -/
structure Balanced (xs : List Exchange) : Prop where
  counted : ∀ m, xs.countP (·.counts m) = xs.countP (·.owes m)
  announced : ∀ p : ImageStore.Part, xs.countP (·.announces p) = xs.countP (·.makes p.kind)

/-- Whether a request neither counts nor reports anything, and has not to be counted. -/
def Request.IsOffBook : Request → Prop
  | .get _ _ | .update _ _ | .updateStatus _ _ | .delete _ _ | .now | .connect _ => True
  | _ => False

namespace Balanced

theorem nil : Balanced [] := ⟨fun _ => rfl, fun _ => rfl⟩

theorem append {xs ys : List Exchange} (hxs : Balanced xs) (hys : Balanced ys) :
    Balanced (xs ++ ys) where
  counted m := by rw [List.countP_append, List.countP_append, hxs.counted, hys.counted]
  announced p := by rw [List.countP_append, List.countP_append, hxs.announced, hys.announced]

theorem offBook {r : Request} (hr : r.IsOffBook) (answer : r.Answer) :
    Balanced [⟨r, answer⟩] := by
  cases r with
  | create | emit | count | validate | call => exact hr.elim
  | _ => exact ⟨fun m => by cases m <;> rfl, fun p => rfl⟩

theorem notice {reason : String} (hreason : ∀ p : ImageStore.Part, p.reason ≠ reason)
    (subject : Subject) (message : String) :
    Balanced [⟨.emit ⟨subject, .normal, reason, message⟩, ()⟩] where
  counted m := by simp
  announced p := by simp [(hreason p).symm]

/-- A part that is made is counted and reported. -/
theorem made (p : ImageStore.Part) (part o : Object p.kind) (subject : Subject) (message : String) :
    Balanced [⟨.create p.kind part, .ok o⟩, ⟨.count (.provisioned p.kind), ()⟩,
      ⟨.emit ⟨subject, .normal, p.reason, message⟩, ()⟩] where
  counted m := by
    simp only [List.countP_cons, List.countP_nil, Exchange.counts_count, Exchange.counts_emit,
      Exchange.owes_count, Exchange.owes_emit]
    cases m <;> simp [Exchange.counts, Exchange.owes, Exchange.makes, Exchange.invokes]
  announced p' := by
    simp only [List.countP_cons, List.countP_nil, Exchange.announces_count,
      Exchange.announces_emit, Exchange.makes_count, Exchange.makes_emit]
    simp [Exchange.announces, Exchange.makes, ImageStore.Part.reason_eq_iff]

/-- What is not made is neither counted nor reported. -/
theorem notMade {k : Kind} (part : Object k) (e : AccessError) :
    Balanced [⟨.create k part, .error e⟩] where
  counted m := by cases m <;> rfl
  announced _ := rfl

end Balanced

/-- Whether the exchanges of a program balance, from wherever it is run. -/
def Program.Balances {σ α : Type} (h : Handler σ) (p : Program α) : Prop :=
  ∀ s, Balanced (p.exchanges h s)

variable {σ : Type} {h : Handler σ}

theorem Program.closed_balances (h : Handler σ) : Closed fun _ p => p.Balances h where
  done _ _ := .nil
  bind hp hf s := by
    rw [exchanges_bind]
    exact (hp s).append (hf _ _)

theorem Program.balances_ask {r : Request} (hr : r.IsOffBook) : (ask r).Balances h :=
  fun s => .offBook hr (h.answer r s).1

/-! ### What balances only as a whole -/

/-- An exchange that asks something of a vendor. -/
inductive Exchange.Invocation : Operation → Exchange → Prop
  | validate (c : Connection) (options : List CallOption) (answer : Except ChatError Reply) :
    Invocation .validate ⟨.validate c options, answer⟩
  | call (c : Connection) (payload : List UInt8) (answer : Except ChatError Reply) :
    Invocation .call ⟨.call c payload, answer⟩

/-- A request to a vendor is counted, and so is its failure. -/
theorem Balanced.observed {operation : Operation} {x : Exchange} (hx : x.Invocation operation) :
    Balanced ([⟨.count (.llmRequests operation), ()⟩, x,
      ⟨.count (.llmRequestDuration operation), ()⟩] ++
        if x.isRefusal then [⟨.count (.llmRequestErrors operation), ()⟩] else []) := by
  have hcounts : ∀ m, x.counts m = false := fun m => by cases hx <;> rfl
  have hannounces : ∀ p, x.announces p = false := fun p => by cases hx <;> rfl
  have hmakes : ∀ k, x.makes k = false := fun k => by cases hx <;> rfl
  have hinvokes : ∀ operation', x.invokes operation' = decide (operation = operation') :=
    fun operation' => by cases hx <;> rfl
  have howes : ∀ m, x.owes m = decide (.llmRequests operation = m ∨
      .llmRequestDuration operation = m ∨ x.isRefusal ∧ .llmRequestErrors operation = m) :=
    fun m => by cases m <;> simp [Exchange.owes, hinvokes, hmakes, and_comm]
  -- the errors are counted with the refusal, the rest with the invocation itself
  constructor
  · intro m
    rw [List.countP_append, List.countP_append]
    cases hrefusal : x.isRefusal <;>
      simp only [List.countP_cons, List.countP_nil, Exchange.counts_count, Exchange.owes_count,
        hcounts, howes, hrefusal] <;>
      cases m <;> simp
  · intro p
    rw [List.countP_append, List.countP_append]
    cases x.isRefusal <;> simp [hannounces, hmakes]

theorem Pass.exchanges_observed {α : Type} (operation : Operation) (p : Attempt ChatError α)
    (s : σ) :
    (observed operation p).outcome.exchanges h s =
      ⟨.count (.llmRequests operation), ()⟩ ::
        (p.outcome.exchanges h (h.answer (.count (.llmRequests operation)) s).2 ++
          ⟨.count (.llmRequestDuration operation), ()⟩ ::
            if !(p.outcome.run h (h.answer (.count (.llmRequests operation)) s).2).1.isOk then
              [⟨.count (.llmRequestErrors operation), ()⟩]
            else []) := by
  refine congrArg (List.cons _) ((Program.exchanges_bind h p.outcome _ _).trans ?_)
  refine congrArg (_ ++ ·) (congrArg (List.cons _) ?_)
  cases (p.outcome.run h (h.answer (.count (.llmRequests operation)) s).2).1 <;> rfl

theorem Pass.balances_observed {operation : Operation} {p : Attempt ChatError Reply}
    (hp : ∀ s, ∃ x : Exchange, x.Invocation operation ∧ p.outcome.exchanges h s = [x] ∧
      x.isRefusal = !(p.outcome.run h s).1.isOk) :
    (observed operation p).outcome.Balances h := by
  intro s
  obtain ⟨x, hx, hxs, hrefusal⟩ := hp (h.answer (.count (.llmRequests operation)) s).2
  have hbalanced := Balanced.observed hx
  rw [hrefusal] at hbalanced
  rw [exchanges_observed, hxs]
  exact hbalanced

theorem Pass.balances_validate (c : Connection) (options : List CallOption) :
    (observed .validate (.of (.ask (.validate c options)))).outcome.Balances h :=
  balances_observed fun s => by
    refine ⟨_, .validate c options (h.answer (.validate c options) s).1, rfl, ?_⟩
    show _ = !(h.answer (.validate c options) s).1.isOk
    cases (h.answer (.validate c options) s).1 <;> rfl

theorem Pass.balances_call (c : Connection) (payload : List UInt8) :
    (observed .call (.of (.ask (.call c payload)))).outcome.Balances h :=
  balances_observed fun s => by
    refine ⟨_, .call c payload (h.answer (.call c payload) s).1, rfl, ?_⟩
    show _ = !(h.answer (.call c payload) s).1.isOk
    cases (h.answer (.call c payload) s).1 <;> rfl

/-- Whoever makes a part of an image store counts and reports it. -/
theorem ImageStore.balances_ensure (p : Part) (key : Key) (part : Object p.kind) (subject : Subject)
    (message : String) : (ensure key part subject p.reason message).outcome.Balances h := by
  have hclosed := Program.closed_balances h
  refine hclosed.seq (hclosed.find? (Program.balances_ask trivial)) fun found => ?_
  cases found with
  | some o => exact hclosed.pure o
  | none =>
    intro s
    change Balanced (⟨.create p.kind part, (h.answer (.create p.kind part) s).1⟩ :: _)
    generalize h.answer (.create p.kind part) s = answered
    obtain ⟨answer, s'⟩ := answered
    cases answer with
    | ok o => exact .made p part o subject message
    | error e =>
      refine (Balanced.notMade part e).append ?_
      simp only [Program.bind]
      by_cases hexists : e.isAlreadyExists
      · -- another writer was faster, and its part is taken
        rw [if_pos hexists]
        change Balanced (⟨.get p.kind key, (h.answer (.get p.kind key) s').1⟩ :: _)
        generalize h.answer (.get p.kind key) s' = answered
        obtain ⟨answer, s''⟩ := answered
        cases answer <;> exact .offBook (r := .get p.kind key) trivial _
      · rw [if_neg hexists]
        exact .nil

theorem ImageStore.Part.balances_ensure (p : Part) (subject : Subject) (ns : String)
    (source : p.Source) : (p.ensure subject ns source).outcome.Balances h := by
  cases p with
  | claim => exact ImageStore.balances_ensure .claim _ _ _ _
  | statefulSet => exact ImageStore.balances_ensure .statefulSet _ _ _ _
  | service => exact ImageStore.balances_ensure .service _ _ _ _

/-! ### Passes -/

namespace Pass

variable (h : Handler σ)

theorem balances_amend {k : Kind} (half : Half) (key : Key) (attempts : Nat) (change : Change k) :
    (amend half k key attempts change).outcome.Balances h :=
  (Program.closed_balances h).amend (Program.balances_ask trivial) (Program.balances_ask trivial)
    (fun o => by cases half <;> exact Program.balances_ask trivial) attempts

theorem inquiring_balances : Program.Inquiring fun _ p => p.Balances h where
  toClosed := Program.closed_balances h
  secret _ := Program.balances_ask trivial
  worker _ := Program.balances_ask trivial
  connect _ := Program.balances_ask trivial
  validate := balances_validate
  call := balances_call

theorem Worked.passes_balances (w : Worked) (key : Key) :
    w.Passes key (fun _ => True) fun _ p => p.Balances h where
  toClosed := Program.closed_balances h
  now := Program.balances_ask trivial
  label _ _ _ _ _ := balances_amend h _ _ _ _
  record _ _ _ := balances_amend h _ _ _ _
  look _ _ := Program.balances_ask trivial
  part _ p subject source := p.balances_ensure subject key.ns source
  tell _ _ hreason subject message _ :=
    .notice (fun p hp => p.reason_notMem_notices (hp ▸ hreason)) subject message
  check _ := (inquiring_balances h).check
  send _ := (inquiring_balances h).send fun _ => Program.balances_ask trivial
  read _ hnext := (Program.closed_balances h).bind (Program.balances_ask trivial) fun answer =>
    hnext answer fun _ _ => trivial
  addFinalizer _ _ _ := balances_amend h _ _ _ _
  removeFinalizer _ _ _ := balances_amend h _ _ _ _

/-- The exchanges of a pass balance, whatever it is answered. -/
theorem balances_reconcile (w : Worked) (settings : Settings) (key : Key) :
    (reconcile w settings key).Balances h :=
  (w.passes_balances h key).reconcile

end Pass

end ModelKeeper

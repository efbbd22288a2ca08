import ModelKeeper.ImageStore.Provision
import ModelKeeper.Proofs.Cluster.Objects
import ModelKeeper.Proofs.Program.Turns
import ModelKeeper.Proofs.World.Elsewhere

/-!
# Callers in a race

Any number of callers look for the same object at the same time and make it if it is not there
(`ImageStore.ensure`), with their requests in any order and anything done to other objects in
between.  A caller is always in one of six places (`ImageStore.Stage`), and the stages of all
callers together with what has been made, counted and reported so far fit in one of three ways
(`ImageStore.Standing`): nothing is there yet, the object was there from the start, or one of them
has made it.

Every request of a caller leads from such a standing to another one and brings the caller forward
(`ImageStore.Standing.own`), so this is how they stand at any time (`ImageStore.Standing.of_turns`).
-/

namespace ModelKeeper

/-! ### What programs have done in turns -/

namespace Turns

variable {ι σ : Type}

/-- The objects that programs have made, each with the program that made it; the last one first. -/
def made (past : List (ι × Moment σ)) : List (ι × (k : Kind) × Object k) :=
  past.filterMap fun e =>
    match e.2.toExchange with
    | ⟨.create k _, .ok o⟩ => some (e.1, ⟨k, o⟩)
    | _ => none

/-- What programs have counted. -/
def counted (past : List (ι × Moment σ)) : List (ι × Metric) :=
  past.filterMap fun e =>
    match e.2.request with
    | .count m => some (e.1, m)
    | _ => none

/-- What programs have reported. -/
def emitted (past : List (ι × Moment σ)) : List (ι × Event) :=
  past.filterMap fun e =>
    match e.2.request with
    | .emit event => some (e.1, event)
    | _ => none

theorem made_of_ok {k : Kind} {h : Handler σ} {s : σ} {part o : Object k}
    (hanswer : (h.answer (.create k part) s).1 = .ok o) (i : ι) (past : List (ι × Moment σ)) :
    made ((i, h.moment (.create k part) s) :: past) = (i, ⟨k, o⟩) :: made past := by
  simp only [made, List.filterMap_cons, Handler.moment, hanswer]

theorem made_of_error {k : Kind} {h : Handler σ} {s : σ} {part : Object k} {e : AccessError}
    (hanswer : (h.answer (.create k part) s).1 = .error e) (i : ι) (past : List (ι × Moment σ)) :
    made ((i, h.moment (.create k part) s) :: past) = made past := by
  simp only [made, List.filterMap_cons, Handler.moment, hanswer]

end Turns

namespace ImageStore

section

variable {k : Kind} {key : Key}

/-! ### Callers -/

/-- A call that takes the part under a key, or makes it. -/
structure Call (k : Kind) where
  part : Object k
  subject : Subject
  reason : String
  message : String

/-- The call as a program. -/
def Call.program (call : Call k) (key : Key) : Program (Except AccessError (Object k)) :=
  (ensure key call.part call.subject call.reason call.message).outcome

/-- What the maker of the part reports. -/
def Call.event (call : Call k) : Event := ⟨call.subject, .normal, call.reason, call.message⟩

/-- Where a caller stands. -/
inductive Stage (k : Kind) where
  | looking
  | making
  /-- Somebody else was faster. -/
  | taking
  | counting (o : Object k)
  | reporting (o : Object k)
  | returned (o : Object k)

namespace Stage

/-- How many requests a caller has made at most. -/
def age : Stage k → Nat
  | .looking => 0
  | .making => 1
  | .taking => 2
  | .counting _ => 2
  | .reporting _ => 3
  | .returned _ => 4

/-- What is left to do for a caller. -/
def program (call : Call k) (key : Key) : Stage k → Program (Except AccessError (Object k))
  | .looking => call.program key
  | .making => .step (.create k call.part) fun
    | .ok o => .step (.count (.provisioned k)) fun _ =>
      .step (.emit call.event) fun _ => .done (.ok o)
    | .error e =>
      if e.isAlreadyExists then .step (.get k key) .done else .done (.error e)
  | .taking => .step (.get k key) .done
  | .counting o => .step (.count (.provisioned k)) fun _ =>
      .step (.emit call.event) fun _ => .done (.ok o)
  | .reporting o => .step (.emit call.event) fun _ => .done (.ok o)
  | .returned o => .done (.ok o)

/-- The callers look first, and then go on by what they see. -/
theorem program_looking (call : Call k) (key : Key) :
    program call key .looking = .step (.get k key) fun
      | .ok o => .done (.ok o)
      | .error e => if e.isNotFound then program call key .making else .done (.error e) := by
  refine congrArg (Program.step _) (funext fun answer => ?_)
  cases answer with
  | ok o => rfl
  | error e =>
    simp only [Program.bind]
    cases e.isNotFound with
    | false => rfl
    | true =>
      refine congrArg (Program.step _) (funext fun answer => ?_)
      cases answer with
      | ok o => rfl
      | error e =>
        simp only [Program.bind]
        cases e.isAlreadyExists with
        | false => rfl
        | true =>
          refine congrArg (Program.step _) (funext fun answer => ?_)
          cases answer <;> rfl

end Stage

/-! ### How the callers stand together -/

variable {ι σ : Type}

/-- How far the maker of the part has come with telling others. -/
inductive Telling (winner : ι) (call : Call k) (o : Object k) (past : List (ι × Moment σ)) :
    Stage k → Prop
  | counting : Turns.counted past = [] → Turns.emitted past = [] →
    Telling winner call o past (.counting o)
  | reporting : Turns.counted past = [(winner, .provisioned k)] → Turns.emitted past = [] →
    Telling winner call o past (.reporting o)
  | returned : Turns.counted past = [(winner, .provisioned k)] →
    Turns.emitted past = [(winner, call.event)] → Telling winner call o past (.returned o)

/-- Whether a caller who has not made the part can stand here when it is there. -/
inductive Stage.Beside (o : Object k) : Stage k → Prop
  | looking : Beside o .looking
  | making : Beside o .making
  | taking : Beside o .taking
  | returned : Beside o (.returned o)

/-- How all callers can stand together, after what they have done so far. -/
inductive Standing (key : Key) (calls : ι → Call k) (w₀ : World σ)
    (past : List (ι × Moment (World σ))) (w : World σ) (stages : ι → Stage k) : Prop
  /-- The part is not there yet. -/
  | absent :
    w₀.cluster.stored? k key = none → w.cluster.stored? k key = none →
    (∀ i, stages i = .looking ∨ stages i = .making) →
    Turns.made past = [] → Turns.counted past = [] → Turns.emitted past = [] →
    Standing key calls w₀ past w stages
  /-- The part was there from the start. -/
  | present {o : Object k} :
    w₀.cluster.stored? k key = some o → w.cluster.stored? k key = some o →
    (∀ i, stages i = .looking ∨ stages i = .returned o) →
    (∀ e ∈ past, e.2.request = .get k key) → Standing key calls w₀ past w stages
  /-- One of the callers has made the part. -/
  | won (winner : ι) (c : Cluster) :
    w₀.cluster.stored? k key = none →
    w.cluster.stored? k key = some (c.created (calls winner).part) →
    Turns.made past = [(winner, ⟨k, c.created (calls winner).part⟩)] →
    Telling winner (calls winner) (c.created (calls winner).part) past (stages winner) →
    (∀ i, i ≠ winner → (stages i).Beside (c.created (calls winner).part)) →
    Standing key calls w₀ past w stages

variable {v : Vendors σ} {calls : ι → Call k} {w₀ w w' : World σ}
  {past : List (ι × Moment (World σ))} {stages : ι → Stage k}

theorem Telling.mono {winner : ι} {call : Call k} {o : Object k}
    {past' : List (ι × Moment (World σ))}
    {stage : Stage k} (h : Telling winner call o past stage)
    (hcounted : Turns.counted past' = Turns.counted past)
    (hemitted : Turns.emitted past' = Turns.emitted past) :
    Telling winner call o past' stage := by
  cases h with
  | counting hc he => exact .counting (hcounted.trans hc) (hemitted.trans he)
  | reporting hc he => exact .reporting (hcounted.trans hc) (hemitted.trans he)
  | returned hc he => exact .returned (hcounted.trans hc) (hemitted.trans he)

theorem get_absent (h : w.cluster.stored? k key = none) :
    ((World.handler v).answer (.get k key) w).1 = .error (.notFound k.name key) := by
  show w.cluster.get k key = _
  simp [Cluster.get, h]

theorem get_present (hsettled : ∀ o : Object k, o.settled = o) {o : Object k}
    (h : w.cluster.stored? k key = some o) :
    ((World.handler v).answer (.get k key) w).1 = .ok o := by
  show w.cluster.get k key = _
  rw [Cluster.get_of_stored h, hsettled]

theorem create_present {part o : Object k} (hpart : part.IsAt key)
    (h : w.cluster.stored? k key = some o) :
    (World.handler v).answer (.create k part) w =
      (.error (.alreadyExists k.name key), w) := by
  show w.withCluster (w.cluster.create part) = _
  rw [Cluster.create_present hpart h]
  rfl

theorem create_absent {part : Object k} (hpart : part.IsAt key)
    (h : w.cluster.stored? k key = none) :
    (World.handler v).answer (.create k part) w =
      (.ok (w.cluster.created part),
        { w with cluster := w.cluster.nextVersion.store key (w.cluster.created part) }) := by
  show w.withCluster (w.cluster.create part) = _
  rw [Cluster.create_absent hpart h]
  rfl

variable [DecidableEq ι]

/-- What a request of one caller leads to: it has come forward, and the callers still stand together
in one of the ways. -/
def Standing.Goes (key : Key) (calls : ι → Call k) (w₀ : World σ)
    (past : List (ι × Moment (World σ))) (w : World σ) (stages : ι → Stage k) (i : ι)
    (rest : Program (Except AccessError (Object k))) : Prop :=
  ∃ stage, rest = stage.program (calls i) key ∧ (stages i).age < stage.age ∧
    Standing key calls w₀ past w (Function.update stages i stage)

namespace Standing

variable {i : ι} {r : Request} {next : r.Answer → Program (Except AccessError (Object k))}

/-- As long as the part is not there, a caller sees this, or makes it. -/
theorem own_absent (hparts : ∀ i, (calls i).part.IsAt key)
    (hfirst : w₀.cluster.stored? k key = none) (hnone : w.cluster.stored? k key = none)
    (hstages : ∀ i, stages i = .looking ∨ stages i = .making) (hmade : Turns.made past = [])
    (hcounted : Turns.counted past = []) (hemitted : Turns.emitted past = [])
    (hi : (stages i).program (calls i) key = .step r next) :
    Goes key calls w₀ ((i, (World.handler v).moment r w) :: past)
      ((World.handler v).answer r w).2 stages i (next ((World.handler v).answer r w).1) := by
  -- nothing is there yet, so nobody has come further than to making it
  rcases hstages i with hstage | hstage
  · rw [hstage, Stage.program_looking] at hi
    cases hi
    refine ⟨.making, ?_, by simp [hstage, Stage.age], .absent hfirst hnone ?_ hmade hcounted
      hemitted⟩
    · rw [get_absent hnone]
      rfl
    · exact (Function.forall_update_iff stages fun _ s => s = .looking ∨ s = .making).2
        ⟨.inr rfl, fun j _ => hstages j⟩
  · rw [hstage] at hi
    cases hi
    have hanswer := create_absent (v := v) (hparts i) hnone
    have hok : ((World.handler v).answer (.create k (calls i).part) w).1 =
        .ok (w.cluster.created (calls i).part) := by rw [hanswer]
    refine ⟨.counting (w.cluster.created (calls i).part), ?_, by simp [hstage, Stage.age], ?_⟩
    · rw [hok]
      rfl
    · -- this caller is the winner
      refine .won i w.cluster hfirst ?_ ?_ ?_ ?_
      · rw [hanswer]
        exact Cluster.stored?_store_self ..
      · rw [Turns.made_of_ok hok, hmade]
      · rw [Function.update_self]
        exact .counting hcounted hemitted
      · intro j hj
        rw [Function.update_of_ne hj]
        rcases hstages j with hj' | hj' <;> rw [hj']
        · exact .looking
        · exact .making

/-- If the part was there from the start, a caller sees it. -/
theorem own_present (hsettled : ∀ o : Object k, o.settled = o) {o : Object k}
    (hfirst : w₀.cluster.stored? k key = some o) (hsome : w.cluster.stored? k key = some o)
    (hstages : ∀ i, stages i = .looking ∨ stages i = .returned o)
    (hpast : ∀ e ∈ past, e.2.request = .get k key)
    (hi : (stages i).program (calls i) key = .step r next) :
    Goes key calls w₀ ((i, (World.handler v).moment r w) :: past)
      ((World.handler v).answer r w).2 stages i (next ((World.handler v).answer r w).1) := by
  rcases hstages i with hstage | hstage
  · rw [hstage, Stage.program_looking] at hi
    cases hi
    refine ⟨.returned o, ?_, by simp [hstage, Stage.age], .present hfirst hsome ?_ ?_⟩
    · rw [get_present hsettled hsome]
      rfl
    · exact (Function.forall_update_iff stages fun _ s => s = .looking ∨ s = .returned o).2
        ⟨.inr rfl, fun j _ => hstages j⟩
    · exact List.forall_mem_cons.2 ⟨rfl, hpast⟩
  · rw [hstage] at hi
    cases hi

/-- When the part has been made, its maker tells others about it. -/
theorem own_winner {c : Cluster} (hfirst : w₀.cluster.stored? k key = none)
    (hsome : w.cluster.stored? k key = some (c.created (calls i).part))
    (hmade : Turns.made past = [(i, ⟨k, c.created (calls i).part⟩)])
    (htelling : Telling i (calls i) (c.created (calls i).part) past (stages i))
    (hbeside : ∀ j, j ≠ i → (stages j).Beside (c.created (calls i).part))
    (hi : (stages i).program (calls i) key = .step r next) :
    Goes key calls w₀ ((i, (World.handler v).moment r w) :: past)
      ((World.handler v).answer r w).2 stages i (next ((World.handler v).answer r w).1) := by
  have hbeside' : ∀ stage j, j ≠ i →
      (Function.update stages i stage j).Beside (c.created (calls i).part) := by
    intro stage j hj
    rw [Function.update_of_ne hj]
    exact hbeside j hj
  generalize hstage : stages i = stage at htelling hi
  -- the winner has only to count and to report
  cases htelling with
  | counting hcounted hemitted =>
    cases hi
    refine ⟨.reporting _, rfl, by simp [hstage, Stage.age], .won _ _ hfirst hsome hmade ?_
      (hbeside' _)⟩
    rw [Function.update_self]
    exact .reporting (congrArg _ hcounted) hemitted
  | reporting hcounted hemitted =>
    cases hi
    refine ⟨.returned _, rfl, by simp [hstage, Stage.age], .won _ _ hfirst hsome hmade ?_
      (hbeside' _)⟩
    rw [Function.update_self]
    exact .returned hcounted (congrArg _ hemitted)
  | returned => cases hi

/-- When the part has been made, the others see it. -/
theorem own_beside (hparts : ∀ i, (calls i).part.IsAt key)
    (hsettled : ∀ o : Object k, o.settled = o) {winner : ι} {c : Cluster} (hne : i ≠ winner)
    (hfirst : w₀.cluster.stored? k key = none)
    (hsome : w.cluster.stored? k key = some (c.created (calls winner).part))
    (hmade : Turns.made past = [(winner, ⟨k, c.created (calls winner).part⟩)])
    (htelling : Telling winner (calls winner) (c.created (calls winner).part) past (stages winner))
    (hbeside : ∀ j, j ≠ winner → (stages j).Beside (c.created (calls winner).part))
    (hi : (stages i).program (calls i) key = .step r next) :
    Goes key calls w₀ ((i, (World.handler v).moment r w) :: past)
      ((World.handler v).answer r w).2 stages i (next ((World.handler v).answer r w).1) := by
  have hbeside' : ∀ stage : Stage k, stage.Beside (c.created (calls winner).part) → ∀ j,
      j ≠ winner → (Function.update stages i stage j).Beside (c.created (calls winner).part) := by
    intro stage hstage
    exact (Function.forall_update_iff stages fun j s => j ≠ winner → s.Beside _).2
      ⟨fun _ => hstage, fun j _ => hbeside j⟩
  have hget := get_present (v := v) hsettled hsome
  have hown := hbeside i hne
  generalize hstage : stages i = stage at hown hi
  -- the winner has made the part, so whatever this caller asks it finds it there
  cases hown with
  | looking =>
    rw [Stage.program_looking] at hi
    cases hi
    refine ⟨.returned _, ?_, by simp [hstage, Stage.age], .won _ _ hfirst hsome hmade ?_
      (hbeside' _ .returned)⟩
    · rw [hget]
      rfl
    · rw [Function.update_of_ne hne.symm]
      exact htelling.mono rfl rfl
  | making =>
    cases hi
    have hanswer := create_present (v := v) (hparts i) hsome
    have herror : ((World.handler v).answer (.create k (calls i).part) w).1 =
        .error (.alreadyExists k.name key) := by rw [hanswer]
    refine ⟨.taking, ?_, by simp [hstage, Stage.age], .won _ _ hfirst ?_ ?_ ?_ (hbeside' _ .taking)⟩
    · rw [herror]
      rfl
    · rw [hanswer]
      exact hsome
    · rw [Turns.made_of_error herror, hmade]
    · rw [Function.update_of_ne hne.symm]
      exact htelling.mono rfl rfl
  | taking =>
    cases hi
    refine ⟨.returned _, ?_, by simp [hstage, Stage.age], .won _ _ hfirst hsome hmade ?_
      (hbeside' _ .returned)⟩
    · rw [hget]
      rfl
    · rw [Function.update_of_ne hne.symm]
      exact htelling.mono rfl rfl
  | returned => cases hi

/-- Every request of a caller brings it forward, and leads to a standing again. -/
theorem own (hparts : ∀ i, (calls i).part.IsAt key) (hsettled : ∀ o : Object k, o.settled = o)
    (h : Standing key calls w₀ past w stages) (i : ι) {r : Request}
    {next : r.Answer → Program (Except AccessError (Object k))}
    (hi : (stages i).program (calls i) key = .step r next) :
    Goes key calls w₀ ((i, (World.handler v).moment r w) :: past)
      ((World.handler v).answer r w).2 stages i (next ((World.handler v).answer r w).1) := by
  cases h with
  | absent hfirst hnone hstages hmade hcounted hemitted =>
    exact own_absent hparts hfirst hnone hstages hmade hcounted hemitted hi
  | present hfirst hsome hstages hpast => exact own_present hsettled hfirst hsome hstages hpast hi
  | won winner c hfirst hsome hmade htelling hbeside =>
    by_cases hwinner : i = winner
    · subst hwinner
      exact own_winner hfirst hsome hmade htelling hbeside hi
    · exact own_beside hparts hsettled hwinner hfirst hsome hmade htelling hbeside hi

omit [DecidableEq ι] in
/-- What is done elsewhere does not matter. -/
theorem elsewhere (helsewhere : World.Elsewhere k key w w')
    (h : Standing key calls w₀ past w stages) : Standing key calls w₀ past w' stages := by
  cases h with
  | absent hfirst hnone hstages hmade hcounted hemitted =>
    exact .absent hfirst (helsewhere.trans hnone) hstages hmade hcounted hemitted
  | present hfirst hsome hstages hpast =>
    exact .present hfirst (helsewhere.trans hsome) hstages hpast
  | won winner c hfirst hsome hmade htelling hbeside =>
    exact .won winner c hfirst (helsewhere.trans hsome) hmade htelling hbeside

omit [DecidableEq ι] in
theorem start (key : Key) (calls : ι → Call k) (w₀ : World σ) :
    Standing key calls w₀ [] w₀ fun _ => .looking := by
  cases hs : w₀.cluster.stored? k key with
  | none => exact .absent hs hs (fun _ => .inl rfl) rfl rfl rfl
  | some o => exact .present hs hs (fun _ => .inl rfl) fun e he => nomatch he

/-- The callers stand together in one of the ways at any time, and have made no more requests than
they have come forward. -/
theorem of_turns (hparts : ∀ i, (calls i).part.IsAt key)
    (hsettled : ∀ o : Object k, o.settled = o)
    {programs : ι → Program (Except AccessError (Object k))}
    (run : Turns (World.handler v) (World.Elsewhere k key) (fun i => (calls i).program key) w₀ past
      w programs) :
    ∃ stages : ι → Stage k, Standing key calls w₀ past w stages ∧
      ∀ i, programs i = (stages i).program (calls i) key ∧
        (Turns.of i past).length ≤ (stages i).age := by
  induction run with
  | start => exact ⟨fun _ => .looking, start key calls w₀, fun i => ⟨rfl, Nat.le_refl 0⟩⟩
  | @own past w programs i r next _ hstep ih =>
    obtain ⟨stages, hstanding, hprograms⟩ := ih
    obtain ⟨stage, hrest, hage, hstanding'⟩ :=
      hstanding.own hparts hsettled i ((hprograms i).1.symm.trans hstep)
    refine ⟨_, hstanding', fun j => ?_⟩
    -- the turn moves the stage of one caller only
    by_cases hj : i = j
    · subst hj
      rw [Function.update_self, Function.update_self, Turns.of_cons_self]
      exact ⟨hrest, Nat.lt_of_le_of_lt (hprograms i).2 hage⟩
    · rw [Function.update_of_ne (Ne.symm hj), Function.update_of_ne (Ne.symm hj),
        Turns.of_cons_ne hj]
      exact hprograms j
  | others _ hothers ih =>
    obtain ⟨stages, hstanding, hprograms⟩ := ih
    exact ⟨stages, hstanding.elsewhere hothers, hprograms⟩

omit [DecidableEq ι] in
/-- Whoever has returned, returned the object that is stored. -/
theorem stored_of_returned (h : Standing key calls w₀ past w stages) {o : Object k}
    (hi : stages i = .returned o) : w.cluster.stored? k key = some o := by
  cases h with
  | absent _ _ hstages => rcases hstages i with hi' | hi' <;> rw [hi] at hi' <;> cases hi'
  | @present o' _ hsome hstages =>
    rcases hstages i with hi' | hi' <;> rw [hi] at hi' <;> cases hi'
    exact hsome
  | won winner c _ hsome _ htelling hbeside =>
    -- the winner returns what it made, everybody else what they found
    by_cases hwinner : i = winner
    · subst hwinner
      rw [hi] at htelling
      cases htelling
      exact hsome
    · have hown := hbeside i hwinner
      rw [hi] at hown
      cases hown
      exact hsome

end Standing

/-- A caller has returned, or has a request to make. -/
theorem Stage.returned_or_step (call : Call k) (key : Key) (stage : Stage k) :
    (∃ o, stage = .returned o) ∨
      (∃ r next, stage.program call key = .step r next) ∧ stage.age < 4 := by
  cases stage with
  | looking => exact .inr ⟨⟨_, _, program_looking call key⟩, by simp [age]⟩
  | making | taking | counting | reporting => exact .inr ⟨⟨_, _, rfl⟩, by simp [age]⟩
  | returned o => exact .inl ⟨o, rfl⟩

end

end ImageStore

end ModelKeeper

import ModelKeeper.Proofs.ImageStore.Standing
import ModelKeeper.Proofs.World.Undisturbed

/-!
# Provided once

The parts of an image store are shared by all models of a namespace, so many callers ask for the
same part at the same time, for different models and from different plans.  Whatever the order of
their requests, the part is made once, whoever has made it counts and reports it once, and everybody
gets the part that is stored (`ImageStore.provided_once`).
-/

namespace ModelKeeper.ImageStore

/-! ### The parts -/

/-- A part of an image store. -/
inductive Part where
  | claim
  | statefulSet
  | service

namespace Part

/-- The kind of a part. -/
@[reducible]
def kind : Part → Kind
  | .claim => .claim
  | .statefulSet => .statefulSet
  | .service => .service

/-- What a part is made from: a plan, and for the service the set that it stands in front of. -/
@[reducible]
def Source : Part → Type
  | .claim | .statefulSet => Plan
  | .service => Object .statefulSet

/-- Where a part is stored. -/
def key : Part → String → Key
  | .claim => claimKey
  | .statefulSet => statefulSetKey
  | .service => serviceKey

/-- A part as it is made. -/
def object : (p : Part) → String → p.Source → Object p.kind
  | .claim => ImageStore.claim
  | .statefulSet => ImageStore.statefulSet
  | .service => ImageStore.service

/-- What its maker reports. -/
def event : Part → Subject → Event
  | .claim, subject =>
    ⟨subject, .normal, EventReason.provisionedClaim, "Provisioned image storage PVC"⟩
  | .statefulSet, subject =>
    ⟨subject, .normal, EventReason.provisionedStatefulSet, "Provisioned image store stateful set"⟩
  | .service, subject =>
    ⟨subject, .normal, EventReason.provisionedService, "Provisioned image store service"⟩

/-- Takes or makes a part. -/
def ensure : (p : Part) → Subject → String → p.Source → Attempt AccessError (Object p.kind)
  | .claim => ensureClaim
  | .statefulSet => ensureStatefulSet
  | .service => ensureService

/-- The call for a part. -/
def call (p : Part) (ns : String) (subject : Subject) (source : p.Source) : Call p.kind :=
  ⟨p.object ns source, subject, (p.event subject).reason, (p.event subject).message⟩

variable (p : Part) (ns : String) (subject : Subject) (source : p.Source)

theorem object_isAt : (p.object ns source).IsAt (p.key ns) := by
  cases p <;> exact ⟨rfl, rfl⟩

theorem settled_eq (o : Object p.kind) : o.settled = o := by
  cases p <;> rfl

theorem call_program :
    (p.call ns subject source).program (p.key ns) = (p.ensure subject ns source).outcome := by
  cases p <;> rfl

theorem call_event : (p.call ns subject source).event = p.event subject := by
  cases p <;> rfl

end Part

/-- **A part of the image store is made once, whoever asks for it at the same time.**  Any number of
callers ask for a part in one namespace, for different subjects and from different plans, with their
requests in any order and anything done to other objects in between.  Then at any time:

* a caller has returned, and then without an error and with the object that is stored, or it has
  made fewer than four requests and is about to make another one;
* if the part was there from the start, then it is as it was, and all that the callers have done is
  to read it;
* if it was not, and all callers have returned, then there is a winner: the one object that was made
  is the one that is stored, it was made from what the winner asked for, and only the winner counted
  and reported it, once. -/
theorem provided_once {ι σ : Type} [DecidableEq ι] (v : Vendors σ) (p : Part) (ns : String)
    (callers : ι → Subject × p.Source) {w₀ w : World σ} {past : List (ι × Moment (World σ))}
    {programs : ι → Program (Except AccessError (Object p.kind))}
    (run : Turns (World.handler v) (World.Elsewhere p.kind (p.key ns))
      (fun i => (p.ensure (callers i).1 ns (callers i).2).outcome) w₀ past w programs) :
    (∀ i, (∃ o, programs i = .done (.ok o) ∧ w.cluster.stored? p.kind (p.key ns) = some o) ∨
      (∃ r next, programs i = .step r next) ∧ (Turns.of i past).length < 4) ∧
    (∀ o, w₀.cluster.stored? p.kind (p.key ns) = some o →
      w.cluster.stored? p.kind (p.key ns) = some o ∧
        ∀ e ∈ past, e.2.request = .get p.kind (p.key ns)) ∧
    (w₀.cluster.stored? p.kind (p.key ns) = none → Nonempty ι →
      (∀ i, ∃ r, programs i = .done r) →
      ∃ winner c, let o := Cluster.created c (p.object ns (callers winner).2)
        w.cluster.stored? p.kind (p.key ns) = some o ∧
          Turns.made past = [(winner, ⟨p.kind, o⟩)] ∧
          Turns.counted past = [(winner, .provisioned p.kind)] ∧
          Turns.emitted past = [(winner, p.event (callers winner).1)]) := by
  let calls : ι → Call p.kind := fun i => p.call ns (callers i).1 (callers i).2
  have hstart : (fun i => (p.ensure (callers i).1 ns (callers i).2).outcome) =
      fun i => (calls i).program (p.key ns) :=
    funext fun i => (p.call_program ns (callers i).1 (callers i).2).symm
  rw [hstart] at run
  have hparts : ∀ i, (calls i).part.IsAt (p.key ns) := fun i => p.object_isAt ns (callers i).2
  -- the invariant of the race: how far each caller is, and what the store holds for it
  obtain ⟨stages, hstanding, hprograms⟩ := Standing.of_turns hparts p.settled_eq run
  -- a caller has come to its end only when it has returned
  have hdone : ∀ i, (∃ r, programs i = .done r) → ∃ o, stages i = .returned o := by
    rintro i ⟨r, hr⟩
    rcases (stages i).returned_or_step (calls i) (p.key ns) with hreturned | ⟨⟨r', next, hstep⟩, -⟩
    · exact hreturned
    · rw [← (hprograms i).1, hr] at hstep
      cases hstep
  refine ⟨fun i => ?_, fun o hfirst => ?_, fun hfirst hsome hall => ?_⟩
  · obtain ⟨hprogram, hlength⟩ := hprograms i
    rcases (stages i).returned_or_step (calls i) (p.key ns) with ⟨o, ho⟩ | ⟨⟨r, next, hstep⟩, hage⟩
    · refine .inl ⟨o, ?_, hstanding.stored_of_returned ho⟩
      rw [hprogram, ho]
      rfl
    · exact .inr ⟨⟨r, next, hprogram.trans hstep⟩, Nat.lt_of_le_of_lt hlength hage⟩
  · cases hstanding with
    | present hfirst' hsome _ hpast =>
      obtain rfl := Option.some.inj (hfirst.symm.trans hfirst')
      exact ⟨hsome, hpast⟩
    | absent hfirst' | won _ _ hfirst' =>
      rw [hfirst] at hfirst'
      cases hfirst'
  · obtain ⟨i⟩ := hsome
    cases hstanding with
    | present hfirst' =>
      rw [hfirst] at hfirst'
      cases hfirst'
    | absent _ _ hstages =>
      obtain ⟨o, ho⟩ := hdone i (hall i)
      rcases hstages i with hi | hi <;> rw [ho] at hi <;> cases hi
    | won winner c _ hstored hmade htelling =>
      obtain ⟨o, ho⟩ := hdone winner (hall winner)
      rw [ho] at htelling
      cases htelling with
      | returned hcounted hemitted =>
        refine ⟨winner, c, hstored, hmade, hcounted, ?_⟩
        rw [hemitted, Part.call_event]

/-- A plan with so much storage. -/
def planOf (storageSize : String) : Plan where
  storageSize
  storageClass := none
  accessMode := none
  image := "ollama/ollama"
  extraEnvFrom := []
  extraEnv := []

/-- Two callers have both seen that there is no claim when the first of them makes it. -/
theorem provided_once_raced :
    let key := claimKey "default"
    let callers : Bool → Subject × Plan := fun i =>
      (⟨.model, some (if i then "a" else "b"), some "default", none⟩,
        planOf (if i then "10Gi" else "20Gi"))
    let w₀ : World Unit := { vendors := () }
    w₀.cluster.stored? .claim key = none ∧
      ∃ past w programs,
        Turns (World.handler .unreachable) (World.Elsewhere .claim key)
          (fun i => (ensureClaim (callers i).1 "default" (callers i).2).outcome) w₀ past w
          programs ∧
        (∀ i, ∃ r, programs i = .done r) ∧
        ∃ winner c, let o := Cluster.created c (claim "default" (callers winner).2)
          w.cluster.stored? .claim key = some o ∧
            Turns.made past = [(winner, ⟨.claim, o⟩)] ∧
            Turns.counted past = [(winner, .provisioned .claim)] ∧
            Turns.emitted past = [(winner, Part.claim.event (callers winner).1)] := by
  intro key callers w₀
  have hnone : w₀.cluster.stored? .claim key = none := rfl
  have hstart : Turns (World.handler .unreachable) (World.Elsewhere .claim key)
      (fun i => (Part.claim.ensure (callers i).1 "default" (callers i).2).outcome) w₀ [] w₀
      (fun i => (Part.claim.ensure (callers i).1 "default" (callers i).2).outcome) := .start
  have hlooked := (hstart.own false rfl).own true rfl
  obtain ⟨past, hfirst⟩ := hlooked.finish false
  obtain ⟨past', hsecond⟩ := hfirst.finish true
  refine ⟨hnone, past', _, _, hsecond, ?all,
    (provided_once .unreachable .claim "default" callers hsecond).2.2 hnone ⟨true⟩ ?all⟩
  rintro (_ | _) <;> exact ⟨_, rfl⟩

end ModelKeeper.ImageStore

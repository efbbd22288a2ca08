import ModelKeeper.Operator.Failure

/-!
# Delays around failures

What went wrong (`Failure.innermost`) may stand inside any number of delays (`Failure.delays`, the
outermost first), and this is all that there is of a failure (`Failure.within_delays`).  What is
recorded and counted of it depends on what went wrong alone, and when the object is due again on the
outermost delay alone, if there is one.

To give a failure a delay puts it in place of the outermost one, or around a failure that has none.
So of delays that are given one after the other the last one stays, and nothing else changes
(`Failure.only_delay_changes`).
-/

namespace ModelKeeper.Failure

/-- What is inside all delays. -/
def innermost : Failure → Failure
  | .delayed _ source => source.innermost
  | e => e

/-- The delays around a failure, the outermost first. -/
def delays : Failure → List Duration
  | .delayed d source => d :: source.delays
  | _ => []

/-- The failure with these delays around it, the first of them outermost. -/
def within (ds : List Duration) (e : Failure) : Failure := ds.foldr .delayed e

/-- The failure with delays that are given to it one after the other. -/
def withRequeues (ds : List Duration) (e : Failure) : Failure :=
  ds.foldl (fun e d => e.withRequeue d) e

/-! ### What a failure consists of -/

section

variable (e : Failure)

/-- Inside all delays there is none. -/
theorem delays_innermost : e.innermost.delays = [] := by
  induction e with
  | delayed d source ih => exact ih
  | _ => rfl

/-- A failure is what went wrong, within its delays. -/
theorem within_delays : within e.delays e.innermost = e := by
  induction e with
  | delayed d source ih => exact congrArg (delayed d) ih
  | _ => rfl

theorem conditionMessage_innermost : e.innermost.conditionMessage = e.conditionMessage := by
  induction e with
  | delayed d source ih => exact ih
  | _ => rfl

theorem isConfiguration_innermost : e.innermost.isConfiguration = e.isConfiguration := by
  induction e with
  | delayed d source ih => exact ih
  | _ => rfl

end

/-- Where there are no delays, the message is recorded as it is. -/
theorem conditionMessage_of_delays {e : Failure} (h : e.delays = []) :
    e.conditionMessage = e.message := by
  cases e with
  | delayed => cases h
  | _ => rfl

/-- The reason depends on whether the object has to be edited, and on nothing else. -/
theorem requeueReason_congr {e e' : Failure} (h : e.isConfiguration = e'.isConfiguration) :
    e.requeueReason = e'.requeueReason := by
  unfold requeueReason
  rw [h]

/-! ### What a new delay changes -/

section

variable (e : Failure) (d : Duration) (intervals : Intervals)

theorem delay_withRequeue : (e.withRequeue d).delay intervals = d := by
  cases e <;> rfl

theorem conditionMessage_withRequeue : (e.withRequeue d).conditionMessage = e.conditionMessage := by
  cases e <;> rfl

theorem isConfiguration_withRequeue : (e.withRequeue d).isConfiguration = e.isConfiguration := by
  cases e <;> rfl

theorem innermost_withRequeue : (e.withRequeue d).innermost = e.innermost := by
  cases e <;> rfl

theorem delays_withRequeue : (e.withRequeue d).delays = d :: e.delays.tail := by
  cases e <;> rfl

/-- A failure with a delay is no wish. -/
theorem resolve_withRequeue :
    resolve intervals (.error (e.withRequeue d)) = .error (e.withRequeue d) := by
  cases e <;> rfl

theorem withRequeue_withRequeue (d' : Duration) :
    (e.withRequeue d).withRequeue d' = e.withRequeue d' := by
  cases e <;> rfl

end

/-- Of several delays the last one stays. -/
theorem withRequeues_eq {ds : List Duration} (h : ds ≠ []) (e : Failure) :
    e.withRequeues ds = e.withRequeue (ds.getLast h) := by
  induction ds generalizing e with
  | nil => exact absurd rfl h
  | cons d ds ih =>
    cases ds with
    | nil => rfl
    | cons d' ds =>
      have hne : d' :: ds ≠ [] := List.cons_ne_nil d' ds
      calc e.withRequeues (d :: d' :: ds)
          = (e.withRequeue d).withRequeues (d' :: ds) := rfl
        _ = (e.withRequeue d).withRequeue ((d' :: ds).getLast hne) := ih hne _
        _ = e.withRequeue ((d :: d' :: ds).getLast h) := by
          rw [withRequeue_withRequeue, List.getLast_cons hne]

/-- Giving delays to a failure changes its delay and nothing else.  Let some delays, at least one,
be given one after the other to a failure, which may stand inside other delays already.

* What went wrong is the same as before, and it stands inside no delay.
* The message that is recorded, whether the object has to be edited, and the reason that is counted
  are those of the failure as it was, and those of what went wrong.
* The object is due again after the last of the delays, whatever the intervals are.
* There is at most one delay more than before, however many were given.
* It is a failure still, even if what went wrong is but a wish to be called again. -/
theorem only_delay_changes (e : Failure) {ds : List Duration} (h : ds ≠ [])
    (intervals : Intervals) :
    let e' := e.withRequeues ds
    (e'.innermost = e.innermost ∧ within e.delays e.innermost = e ∧ e.innermost.delays = []) ∧
    (e'.conditionMessage = e.conditionMessage ∧ e.conditionMessage = e.innermost.message) ∧
    (e'.isConfiguration = e.isConfiguration ∧
      e.isConfiguration = e.innermost.isConfiguration) ∧
    (e'.requeueReason = e.requeueReason ∧ e.requeueReason = e.innermost.requeueReason) ∧
    e'.delay intervals = ds.getLast h ∧
    e'.delays.length ≤ e.delays.length + 1 ∧
    resolve intervals (.error e') = .error e' := by
  intro e'
  have he' : e' = e.withRequeue (ds.getLast h) := withRequeues_eq h e
  have hconfiguration : e'.isConfiguration = e.isConfiguration := by
    rw [he', isConfiguration_withRequeue]
  have hinside := e.isConfiguration_innermost.symm
  refine ⟨⟨?_, e.within_delays, e.delays_innermost⟩, ⟨?_, ?_⟩, ⟨hconfiguration, hinside⟩,
    ⟨requeueReason_congr hconfiguration, requeueReason_congr hinside⟩, ?_, ?_, ?_⟩
  · rw [he', innermost_withRequeue]
  · rw [he', conditionMessage_withRequeue]
  · rw [← conditionMessage_innermost, conditionMessage_of_delays e.delays_innermost]
  · rw [he', delay_withRequeue]
  · rw [he', delays_withRequeue, List.length_cons, List.length_tail]
    omega
  · rw [he', resolve_withRequeue]

/-- A wish to be called again, inside two delays, is a failure with the last of two more. -/
theorem only_delay_changes_wish :
    let e : Failure := .delayed ⟨1, 0⟩ (.delayed ⟨2, 0⟩ (.requeueAfter ⟨3, 0⟩))
    let e' := e.withRequeues [⟨4, 0⟩, ⟨5, 0⟩]
    e'.conditionMessage = (requeueAfter ⟨3, 0⟩).message ∧ e'.delay {} = ⟨5, 0⟩ ∧
      e'.delays.length ≤ 3 ∧ resolve {} (.error e') = .error e' := by
  intro e e'
  obtain ⟨-, ⟨hsame, hmessage⟩, -, -, hdelay, hlength, hresolve⟩ :=
    only_delay_changes e (List.cons_ne_nil ⟨4, 0⟩ [⟨5, 0⟩]) {}
  exact ⟨hsame.trans hmessage, hdelay, hlength, hresolve⟩

end ModelKeeper.Failure

import ModelKeeper.Proofs.Pass.Accounts.Balance
import ModelKeeper.Proofs.Pass.Ticking.Model
import ModelKeeper.Proofs.Pass.Transitions

/-!
# What is said of a model

The events of a pass over an active model can be told from the world before it
(`Pass.Model.narrative`): that it is in progress now, or else which parts of the image store were
made, and what there is still to wait for or that there is nothing.

`Pass.Model.Tale` follows a model through any number of passes, while others do as they like with
everything but its conditions.  That it is in progress is said once at most, and that it is
available is said once at most, and only later (`Pass.Model.told_once`).
-/

namespace ModelKeeper

variable {σ α : Type}

/-! ### Events -/

/-- The event that an exchange reports. -/
def Exchange.event? : Exchange → Option Event
  | ⟨.emit e, _⟩ => some e
  | _ => none

/-- The events of a program that runs under a handler, in order. -/
def Program.events (h : Handler σ) (p : Program α) (s : σ) : List Event :=
  (p.exchanges h s).filterMap Exchange.event?

/-- The record of events grows by the event of a request, if it is one. -/
theorem World.events_answer (v : Vendors σ) (clock : Nat → Instant) (r : Request)
    (s : World σ × Nat) :
    ((ticking v clock).answer r s).2.1.events =
      (Exchange.event? ⟨r, ((ticking v clock).answer r s).1⟩).toList ++ s.1.events := by
  cases r <;> rfl

theorem World.events_run (v : Vendors σ) (clock : Nat → Instant) (p : Program α)
    (s : World σ × Nat) :
    (p.run (ticking v clock) s).2.1.events =
      (p.events (ticking v clock) s).reverse ++ s.1.events := by
  induction p generalizing s with
  | done a => rfl
  | step r next ih =>
    have hrest := ih ((ticking v clock).answer r s).1 ((ticking v clock).answer r s).2
    rw [events_answer] at hrest
    refine hrest.trans ?_
    unfold Program.events
    rw [Program.exchanges, List.filterMap_cons]
    cases Exchange.event? ⟨r, ((ticking v clock).answer r s).1⟩ <;> simp

/-- What the record of events has grown by are the events of the program. -/
theorem Program.events_eq {v : Vendors σ} {clock : Nat → Instant} {p : Program α}
    {s : World σ × Nat} {said : List Event}
    (h : (p.run (World.ticking v clock) s).2.1.events = said.reverse ++ s.1.events) :
    p.events (World.ticking v clock) s = said :=
  List.reverse_injective (List.append_cancel_right ((World.events_run v clock p s).symm.trans h))

namespace Pass.Model

open ImageStore

variable {v : Vendors σ} {settings : Settings} {key : Key} {w w' : World σ} {o : Object .model}

/-! ### One pass -/

/-- The events of a pass over the active model `o` under a key, in order. -/
def narrative (settings : Settings) (key : Key) (c : Cluster) (o : Object .model) : List Event :=
  let recorded := decide (c.injectedConflicts < max settings.writeAttempts 1)
  if !o.hasCondition .available && !o.hasCondition .progressing then
    if recorded then [progressing o.subject] else []
  else
    provisioned c key.ns o.subject ++
      if !hasReadySet c key.ns then [waitingForSet o.subject]
      else if !hasReadyService c key.ns then [waitingForService o.subject]
      else if !o.hasCondition .available && recorded then [available o.subject]
      else []

theorem ChainEffect.said_eq {r : Except Failure Unit} {status : Option ModelStatus}
    {said : List Event} (h : ChainEffect settings key w o r status said) (hstarted : Started o) :
    said = narrative settings key w.cluster o := by
  have hcondition := hstarted.not_new
  unfold narrative
  simp only [hcondition, Bool.false_eq_true, if_false]
  cases h with
  | waitsForSet hset => simp [hset]
  | waitsForService hset hservice => simp [hset, hservice]
  | shown hset hservice _ hshown =>
    have havailable : o.hasCondition .available = true :=
      (hasCondition_eq o _).trans (Conditions.has_of_isTrue hshown.isTrue)
    simp [hset, hservice, havailable]
  | published _ hset hservice _ _ hlt =>
    cases havailable : o.hasCondition .available <;> simp [hset, hservice, hlt]
  | refused hset hservice _ _ hle =>
    have hnot : ¬ w.cluster.injectedConflicts < max settings.writeAttempts 1 := Nat.not_lt.2 hle
    simp [hset, hservice, hnot]

theorem Effect.said_eq {r : Except Failure (Option Directive)} {status : Option ModelStatus}
    {said : List Event} (h : Effect settings key w o r status said) :
    said = narrative settings key w.cluster o := by
  have hnew : ¬ Started o →
      (!o.hasCondition .available && !o.hasCondition .progressing) = true := by
    intro hnot
    unfold Started at hnot
    simpa using hnot
  cases h with
  | progressing _ hnot hlt =>
    unfold narrative
    simp [hnew hnot, hlt]
  | refused hnot hle =>
    have hnot' : ¬ w.cluster.injectedConflicts < max settings.writeAttempts 1 := Nat.not_lt.2 hle
    unfold narrative
    simp [hnew hnot, hnot']
  | done hstarted hchain | waiting hstarted hchain | failed hstarted hchain =>
    exact hchain.said_eq hstarted

/-- The events of one pass over an active model. -/
theorem events_reconcile (v : Vendors σ) (clock : Nat → Instant) (settings : Settings)
    (hs : w.cluster.stored? .model key = some o) (hplace : o.IsAt key)
    (hactive : Lifecycle.of o Kind.model.finalizer = .active) (looks : Nat) :
    (reconcile .model settings key).events (World.ticking v clock) (w, looks) =
      narrative settings key w.cluster o := by
  obtain ⟨r, status, said, heffect, -, hleaves⟩ := Program.ticking_run_of_wp clock looks _
    (wp_reconcile_effect (v := v) hs hplace hactive)
  rw [← heffect.said_eq]
  exact Program.events_eq hleaves.events

/-! ### What is said once -/

/-- How often there is an event with this reason. -/
def times (reason : String) (said : List Event) : Nat := said.countP (·.reason = reason)

theorem times_append (reason : String) (said said' : List Event) :
    times reason (said ++ said') = times reason said + times reason said' :=
  List.countP_append

theorem times_eq_zero {reason : String} {said : List Event} :
    times reason said = 0 ↔ ∀ e ∈ said, e.reason ≠ reason := by
  simp [times, List.countP_eq_zero]

theorem times_append_other {reason : String} {said : List Event} {e : Event}
    (h : times reason said = 0) (he : e.reason ≠ reason) : times reason (said ++ [e]) = 0 := by
  rw [times_append, h]
  simp [times, he]

theorem times_append_self {reason : String} {said : List Event} {e : Event}
    (h : times reason said = 0) (he : e.reason = reason) : times reason (said ++ [e]) = 1 := by
  rw [times_append, h]
  simp [times, he]

/-- The making of parts is another matter. -/
theorem times_provisioned {reason : String} (h : reason ∈ notices) (c : Cluster) (ns : String)
    (subject : Subject) : times reason (provisioned c ns subject) = 0 := by
  refine times_eq_zero.2 fun e he heq => ?_
  obtain ⟨p, -, rfl⟩ := List.mem_map.1 he
  rw [p.event_reason] at heq
  exact p.reason_notMem_notices (heq ▸ h)

/-- Whether a model with these conditions is at least in progress. -/
def Begun (cs : Conditions) : Prop := cs.has .available = true ∨ cs.has .progressing = true

theorem started_iff : Started o ↔ Begun (o.status.getD {}).conditions := by
  unfold Started Begun
  rw [hasCondition_eq, hasCondition_eq]

/-- What the events of a pass over a model tell of its conditions before and after it. -/
inductive Telling (before after : Conditions) (said : List Event) : Prop
  | begins : ¬ Begun before → after.has .progressing = true →
    times EventReason.modelProgressing said = 1 → times EventReason.modelAvailable said = 0 →
    Telling before after said
  | nothing : ¬ Begun before → after = before → said = [] → Telling before after said
  | goesOn : Begun before → (∀ type, before.has type = true → after.has type = true) →
    times EventReason.modelProgressing said = 0 → times EventReason.modelAvailable said = 0 →
    Telling before after said
  | ends : Begun before → before.has .available = false → after.has .available = true →
    times EventReason.modelProgressing said = 0 → times EventReason.modelAvailable said = 1 →
    Telling before after said

/-- What is told of a model in progress stays true if it gets more conditions. -/
theorem Telling.grow {before after after' : Conditions} {said : List Event}
    (h : Telling before after said) (hbegun : Begun before)
    (hgrow : ∀ type, after.has type = true → after'.has type = true) :
    Telling before after' said := by
  cases h with
  | begins hnot | nothing hnot => exact absurd hbegun hnot
  | goesOn _ hkept hprogressing havailable =>
    exact .goesOn hbegun (fun type h => hgrow type (hkept type h)) hprogressing havailable
  | ends _ hnot his hprogressing havailable =>
    exact .ends hbegun hnot (hgrow _ his) hprogressing havailable

theorem has_markAvailable (n : Counts) (now : Instant) (o : Object .model) (type : ConditionType)
    (h : (o.status.getD {}).conditions.has type = true) :
    (((markAvailable n now o).1.status.getD {}).conditions).has type = true := by
  have hshow : ∀ s : ModelStatus, s.conditions.has type = true →
      (showAvailable now s).conditions.has type = true := by
    intro s hs
    unfold showAvailable
    simp only
    split
    · exact hs
    · simp [Conditions.has_set, hs]
  have hclear : ∀ s : ModelStatus, s.conditions.has type = true →
      (clearFailure now s).conditions.has type = true := by
    intro s hs
    unfold clearFailure
    split
    · simp [Conditions.has_set, hs]
    · exact hs
  exact hclear _ (hshow (showCounts n (o.status.getD {})) h)

theorem ChainEffect.telling {r : Except Failure Unit} {status : Option ModelStatus}
    {said : List Event} (h : ChainEffect settings key w o r status said) (hstarted : Started o) :
    Telling (o.status.getD {}).conditions (status.getD {}).conditions said := by
  have hbegun := started_iff.1 hstarted
  have hprogressing : times EventReason.modelProgressing
      (provisioned w.cluster key.ns o.subject) = 0 := times_provisioned (by simp [notices]) ..
  have havailable : times EventReason.modelAvailable
      (provisioned w.cluster key.ns o.subject) = 0 := times_provisioned (by simp [notices]) ..
  -- the parts of the image store are told of by other reasons, so only the last event counts
  cases h with
  | waitsForSet =>
    exact .goesOn hbegun (fun _ h => h)
      (times_append_other hprogressing
        (show EventReason.waitingForStatefulSet ≠ EventReason.modelProgressing by decide))
      (times_append_other havailable
        (show EventReason.waitingForStatefulSet ≠ EventReason.modelAvailable by decide))
  | waitsForService =>
    exact .goesOn hbegun (fun _ h => h)
      (times_append_other hprogressing
        (show EventReason.waitingForService ≠ EventReason.modelProgressing by decide))
      (times_append_other havailable
        (show EventReason.waitingForService ≠ EventReason.modelAvailable by decide))
  | shown | refused => exact .goesOn hbegun (fun _ h => h) hprogressing havailable
  | @published set now =>
    have hkept := has_markAvailable (Counts.of set) now o
    cases hcondition : o.hasCondition .available with
    | true =>
      rw [if_pos rfl, List.append_nil]
      exact .goesOn hbegun hkept hprogressing havailable
    | false =>
      rw [if_neg Bool.false_ne_true]
      exact .ends hbegun (hasCondition_eq o _ ▸ hcondition)
        (Conditions.has_of_isTrue (shown_after _ now _).isTrue)
        (times_append_other hprogressing
          (show EventReason.modelAvailable ≠ EventReason.modelProgressing by decide))
        (times_append_self havailable rfl)

theorem Effect.telling {r : Except Failure (Option Directive)} {status : Option ModelStatus}
    {said : List Event} (h : Effect settings key w o r status said) :
    Telling (o.status.getD {}).conditions (status.getD {}).conditions said := by
  cases h with
  | progressing now hnot =>
    have hnew : o.hasCondition .progressing = false := by
      rw [← Bool.not_eq_true]
      exact fun h => hnot (.inr h)
    have hafter : Object.hasCondition
        { o with status := (markProgressing now o).1.status } .progressing = true :=
      hasCondition_of_recorded hnew rfl
    rw [hasCondition_eq] at hafter
    exact .begins (fun h => hnot (started_iff.2 h)) hafter rfl rfl
  | refused hnot => exact .nothing (fun h => hnot (started_iff.2 h)) rfl rfl
  | done hstarted hchain | waiting hstarted hchain => exact hchain.telling hstarted
  | failed hstarted hchain hstatus =>
    rcases hstatus with rfl | ⟨now, rfl⟩
    · exact hchain.telling hstarted
    · refine (hchain.telling hstarted).grow (started_iff.1 hstarted) fun type h => ?_
      simp only [failedStatus, Option.getD_some, Conditions.has_set]
      rw [h, Bool.or_true]

/-! ### Runs -/

/-- Whether somebody else has left the conditions of the model under a key as they were, if it is
still there, and has put no model there. -/
structure LeavesConditions (key : Key) (w w' : World σ) : Prop where
  placed : w'.cluster.Placed
  conditions : ∀ o', w'.cluster.stored? .model key = some o' →
    ∃ o, w.cluster.stored? .model key = some o ∧
      (o'.status.getD {}).conditions = (o.status.getD {}).conditions

/-- What the passes over the model under a key have said since the world `w₀`, and the world that
has come about.  Settings, clocks and all but the conditions of the model change between passes as
others like it. -/
inductive Tale (v : Vendors σ) (key : Key) (w₀ : World σ) : List Event → World σ → Prop
  | start : Tale v key w₀ [] w₀
  | pass {said : List Event} {w : World σ} (settings : Settings) (clock : Nat → Instant) :
    Tale v key w₀ said w →
    Tale v key w₀ (said ++ (reconcile .model settings key).events (World.ticking v clock) (w, 0))
      ((reconcile .model settings key).run (World.ticking v clock) (w, 0)).2.1
  | others {said : List Event} {w w' : World σ} :
    Tale v key w₀ said w → LeavesConditions key w w' → Tale v key w₀ said w'

/-- Whether all that has been said of a model agrees with the world: that it is in progress has been
said once if it is, and not at all otherwise; that it is available has been said once at most, and
only after it. -/
structure Told (key : Key) (said : List Event) (w : World σ) : Prop where
  placed : w.cluster.Placed
  progressing : times EventReason.modelProgressing said ≤ 1
  available : times EventReason.modelAvailable said ≤ 1
  ordered : ∀ earlier e later, said = earlier ++ e :: later →
    e.reason = EventReason.modelAvailable → times EventReason.modelProgressing earlier = 1
  begun : ∀ o, w.cluster.stored? .model key = some o →
    (Begun (o.status.getD {}).conditions ↔ times EventReason.modelProgressing said = 1)
  ended : ∀ o, w.cluster.stored? .model key = some o →
    times EventReason.modelAvailable said = 1 →
    (o.status.getD {}).conditions.has .available = true

/-- That the model is available is said after it has been said that it is in progress. -/
theorem ordered_append {said new : List Event}
    (h : ∀ earlier e later, said = earlier ++ e :: later →
      e.reason = EventReason.modelAvailable → times EventReason.modelProgressing earlier = 1)
    (hnew : times EventReason.modelAvailable new = 0 ∨
      times EventReason.modelProgressing said = 1 ∧ times EventReason.modelProgressing new = 0)
    {earlier later : List Event} {e : Event} (heq : said ++ new = earlier ++ e :: later)
    (he : e.reason = EventReason.modelAvailable) :
    times EventReason.modelProgressing earlier = 1 := by
  -- the event is a new one, with some of the new ones before it
  have hlate : ∀ before, earlier = said ++ before → new = before ++ e :: later →
      times EventReason.modelProgressing earlier = 1 := by
    intro before hearlier hsplit
    rcases hnew with hnone | ⟨hsaid, hnone⟩
    · exact absurd he (times_eq_zero.1 hnone e (by simp [hsplit]))
    · rw [hsplit, times_append] at hnone
      rw [hearlier, times_append]
      omega
  rcases List.append_eq_append_iff.1 heq with ⟨before, hearlier, hsplit⟩ | ⟨rest, hsaid, hrest⟩
  · exact hlate before hearlier hsplit
  · cases rest with
    | nil => exact hlate [] (by simpa using hsaid.symm) (by simpa using hrest.symm)
    | cons e' rest =>
      obtain ⟨rfl, -⟩ := List.cons.inj hrest
      exact h earlier e rest hsaid he

namespace Told

variable {said : List Event}

theorem spares (h : Told key said w) (hleaves : LeavesConditions key w w') : Told key said w' where
  placed := hleaves.placed
  progressing := h.progressing
  available := h.available
  ordered := h.ordered
  begun o' ho' := by
    obtain ⟨o, ho, hsame⟩ := hleaves.conditions o' ho'
    rw [hsame]
    exact h.begun o ho
  ended o' ho' htold := by
    obtain ⟨o, ho, hsame⟩ := hleaves.conditions o' ho'
    rw [hsame]
    exact h.ended o ho htold

/-- What a pass tells of the model that is stored agrees with what it leaves. -/
theorem tell {new : List Event} {after : Conditions} (h : Told key said w)
    (hs : w.cluster.stored? .model key = some o)
    (htelling : Telling (o.status.getD {}).conditions after new) (hplaced : w'.cluster.Placed)
    (hafter : ∀ o', w'.cluster.stored? .model key = some o' →
      (o'.status.getD {}).conditions = after) : Told key (said ++ new) w' := by
  have hbegun := h.begun o hs
  have hended := h.ended o hs
  have hprogressing := h.progressing
  have havailable := h.available
  -- each count is zero or one, and the conditions tell which
  cases htelling with
  | nothing _ hsame hnew =>
    rw [hnew, List.append_nil]
    exact h.spares ⟨hplaced, fun o' ho' => ⟨o, hs, (hafter o' ho').trans hsame⟩⟩
  | begins hnot hnow hprogressing' havailable' =>
    have hzero : times EventReason.modelProgressing said ≠ 1 := fun h => hnot (hbegun.2 h)
    refine ⟨hplaced, ?_, ?_, fun _ _ _ => ordered_append h.ordered (.inl havailable'),
      fun o' ho' => ?_, fun o' ho' htold => ?_⟩
    · rw [times_append]
      omega
    · rw [times_append]
      omega
    · rw [hafter o' ho', times_append]
      exact ⟨fun _ => by omega, fun _ => .inr hnow⟩
    · rw [times_append, havailable', Nat.add_zero] at htold
      exact absurd (.inl (hended htold)) hnot
  | goesOn his hkept hprogressing' havailable' =>
    have hone := hbegun.1 his
    refine ⟨hplaced, ?_, ?_, fun _ _ _ => ordered_append h.ordered (.inl havailable'),
      fun o' ho' => ?_, fun o' ho' htold => ?_⟩
    · rw [times_append]
      omega
    · rw [times_append]
      omega
    · rw [hafter o' ho', times_append]
      exact ⟨fun _ => by omega, fun _ => his.imp (hkept _) (hkept _)⟩
    · rw [times_append, havailable', Nat.add_zero] at htold
      rw [hafter o' ho']
      exact hkept _ (hended htold)
  | ends his hnot hnow hprogressing' havailable' =>
    have hone := hbegun.1 his
    have hzero : times EventReason.modelAvailable said ≠ 1 := fun h => by
      rw [hended h] at hnot
      cases hnot
    refine ⟨hplaced, ?_, ?_,
      fun _ _ _ => ordered_append h.ordered (.inr ⟨hone, hprogressing'⟩),
      fun o' ho' => ?_, fun o' ho' _ => ?_⟩
    · rw [times_append]
      omega
    · rw [times_append]
      omega
    · rw [hafter o' ho', times_append]
      exact ⟨fun _ => by omega, fun _ => .inl hnow⟩
    · rw [hafter o' ho']
      exact hnow

end Told

theorem Told.pass {said : List Event} (h : Told key said w) (v : Vendors σ)
    (settings : Settings) (clock : Nat → Instant) :
    Told key (said ++ (reconcile .model settings key).events (World.ticking v clock) (w, 0))
      ((reconcile .model settings key).run (World.ticking v clock) (w, 0)).2.1 := by
  obtain ⟨hplaced, -⟩ := Program.run_of_wp (World.ticking_serves v clock)
    (reconcile .model settings key) (s := (w, 0)) (wp_reconcile_others .model settings h.placed)
  -- over an active model the events are the narrative; over any other there are none
  by_cases hactive : ∃ o, w.cluster.stored? .model key = some o ∧
      Lifecycle.of o Kind.model.finalizer = .active
  · obtain ⟨o, hs, hactive⟩ := hactive
    obtain ⟨r, status, new, heffect, -, hleaves⟩ := Program.ticking_run_of_wp clock 0 _
      (wp_reconcile_effect (v := v) hs (h.placed _ _ o hs) hactive)
    obtain ⟨version, hstored⟩ := hleaves.stored
    rw [events_reconcile v clock settings hs (h.placed _ _ o hs) hactive, ← heffect.said_eq]
    refine h.tell hs heffect.telling hplaced fun o' ho' => ?_
    rw [← Option.some.inj (hstored.symm.trans ho')]
  · have hidle : ∀ o : Object .model, w.cluster.stored? .model key = some o →
        Lifecycle.of o Kind.model.finalizer ≠ .active := fun o ho his => hactive ⟨o, ho, his⟩
    obtain ⟨hevents, hsame⟩ := Program.ticking_run_of_wp clock 0 _
      (wp_reconcile_idle (v := v) .model (h.placed .model key) hidle)
    have hnone : (reconcile .model settings key).events (World.ticking v clock) (w, 0) = [] :=
      Program.events_eq hevents
    rw [hnone, List.append_nil]
    refine h.spares ⟨hplaced, fun o' ho' => ?_⟩
    obtain ⟨o, ho, hstatus⟩ := hsame o' ho'
    exact ⟨o, ho, by rw [hstatus]⟩

/-- The invariant of all runs over a model that starts without a status. -/
theorem Tale.told {w₀ : World σ} {said : List Event} (h : Tale v key w₀ said w)
    (hplaced : w₀.cluster.Placed)
    (hnew : ∀ o, w₀.cluster.stored? .model key = some o → o.status = none) : Told key said w := by
  induction h with
  | start =>
    refine ⟨hplaced, Nat.zero_le _, Nat.zero_le _, fun _ _ _ heq => by simp at heq,
      fun o ho => ?_, fun _ _ htold => by cases htold⟩
    rw [hnew o ho]
    have hnot : ¬ Begun (Option.getD (none : Option ModelStatus) {}).conditions := by
      rintro (h | h) <;> cases h
    exact ⟨fun h => absurd h hnot, fun h => by cases h⟩
  | pass settings clock _ ih => exact ih.pass v settings clock
  | others _ hleaves ih => exact ih.spares hleaves

/-- It is known exactly what is said of a model, and it is said once.

* In a world that nobody else acts on, whatever its clock shows and however many conflicts are in
  the way, the events of one pass over an active model are those of `Pass.Model.narrative`.
* In a run of any number of passes over a model that starts without a status, while others do as
  they like between passes with everything but its conditions, it is said at most once that the
  model is in progress, at most once that it is available, and this only after the other. -/
theorem told_once (v : Vendors σ) (key : Key) :
    (∀ (clock : Nat → Instant) (settings : Settings) (w : World σ) (o : Object .model)
        (looks : Nat),
      w.cluster.Placed → w.cluster.stored? .model key = some o →
      Lifecycle.of o Kind.model.finalizer = .active →
      (reconcile .model settings key).events (World.ticking v clock) (w, looks) =
        narrative settings key w.cluster o) ∧
    ∀ (w₀ w : World σ) (said : List Event), w₀.cluster.Placed →
      (∀ o, w₀.cluster.stored? .model key = some o → o.status = none) →
      Tale v key w₀ said w →
      times EventReason.modelProgressing said ≤ 1 ∧ times EventReason.modelAvailable said ≤ 1 ∧
        ∀ earlier e later, said = earlier ++ e :: later →
          e.reason = EventReason.modelAvailable →
          ∃ e' ∈ earlier, e'.reason = EventReason.modelProgressing := by
  refine ⟨fun clock settings w o looks hplaced hs hactive => ?_,
    fun w₀ w said hplaced hnew htale => ?_⟩
  · exact events_reconcile v clock settings hs (hplaced _ _ o hs) hactive looks
  · have htold := htale.told hplaced hnew
    refine ⟨htold.progressing, htold.available, fun earlier e later heq he => ?_⟩
    have hone := htold.ordered earlier e later heq he
    have hpos : 0 < times EventReason.modelProgressing earlier := by omega
    obtain ⟨e', he', hreason⟩ := List.countP_pos_iff.1 hpos
    exact ⟨e', he', of_decide_eq_true hreason⟩

/-- A model that is active and has no status yet. -/
def freshModel : Object .model where
  metadata :=
    { name := some readyKey.name
      ns := some readyKey.ns
      finalizers := some [Kind.model.finalizer] }
  spec := {}

/-- A world with this model, and with a set and a service that are ready. -/
def freshWorld : World Unit where
  cluster := readyCluster freshModel
  vendors := ()

/-- Conflicts that others bring about leave the conditions of a model as they are. -/
theorem LeavesConditions.injectConflicts (hplaced : w.cluster.Placed) (n : Nat) :
    LeavesConditions key w { w with cluster := w.cluster.injectConflicts n } :=
  ⟨hplaced, fun o' ho' => ⟨o', ho', rfl⟩⟩

/-- Two passes, with two conflicts in the way of the second one. -/
theorem told_once_fresh :
    let h := World.ticking .unreachable fun n => ⟨n, 0⟩
    let begun := ((reconcile .model {} readyKey).run h (freshWorld, 0)).2.1
    let contended := { begun with cluster := begun.cluster.injectConflicts 2 }
    let first := (reconcile .model {} readyKey).events h (freshWorld, 0)
    let second := (reconcile .model {} readyKey).events h (contended, 0)
    freshWorld.cluster.Placed ∧
      first = narrative {} readyKey freshWorld.cluster freshModel ∧
      (first ++ second).map (·.reason) = [EventReason.modelProgressing,
        EventReason.provisionedClaim, EventReason.modelAvailable] ∧
      times EventReason.modelProgressing (first ++ second) ≤ 1 ∧
      times EventReason.modelAvailable (first ++ second) ≤ 1 := by
  intro h begun contended first second
  have hplaced : freshWorld.cluster.Placed := placed_readyCluster ⟨rfl, rfl⟩
  have hs : freshWorld.cluster.stored? .model readyKey = some freshModel := by decide +kernel
  have hnew : ∀ o, freshWorld.cluster.stored? .model readyKey = some o → o.status = none := by
    intro o ho
    rw [← Option.some.inj (hs.symm.trans ho)]
    rfl
  obtain ⟨hexact, honce⟩ := told_once .unreachable readyKey
  have hstart : Tale .unreachable readyKey freshWorld [] freshWorld := .start
  have hbegun : Tale .unreachable readyKey freshWorld first begun := hstart.pass {} fun n => ⟨n, 0⟩
  have hcontended : Tale .unreachable readyKey freshWorld first contended :=
    hbegun.others (.injectConflicts (hbegun.told hplaced hnew).placed 2)
  obtain ⟨hprogressing, havailable, -⟩ := honce freshWorld _ _ hplaced hnew
    (hcontended.pass {} fun n => ⟨n, 0⟩)
  exact ⟨hplaced, hexact _ {} freshWorld freshModel 0 hplaced hs (by decide), by decide +kernel,
    hprogressing, havailable⟩

end Pass.Model

end ModelKeeper

import ModelKeeper.Proofs.Pass.Footprint

/-!
# Times of transitions

A condition tells when it last changed.  When passes write conditions, this time is to move only if
the status or the message of the condition changes (`Conditions.Steady`).

The passes find out in different ways whether a condition has to be written anew, and some of them
look at its reason.  So it matters that the reasons are always those that passes give, and that no
type of condition comes up twice (`Conditions.Orderly`).  `Pass.Worked.Records` lists the ways in
which a pass changes the status of its object.  Each of them keeps the conditions orderly
(`Pass.Worked.Records.orderly`), and each of them is steady (`Pass.Worked.Records.steady`), but for
one: the outcome of sending a prompt is written anew for every generation.
-/

namespace ModelKeeper

/-- Whether the reason of a condition is the one that passes give. -/
def Condition.Reasoned (c : Condition) : Prop :=
  match c.type with
  | .ready => c.reason = Reason.available
  | .done => c.status = .isFalse → c.reason = Reason.reconcileError
  | .available => c.reason = Reason.newReplicaSetAvailable
  | .progressing | .replicaFailure | .unknown => True

namespace Conditions

variable {cs cs' : Conditions} {new c : Condition}

/-! ### Orderly conditions -/

/-- Whether conditions are such as passes leave them. -/
structure Orderly (cs : Conditions) : Prop where
  nodup : (cs.map (·.type)).Nodup
  reasoned : ∀ c ∈ cs, c.Reasoned

theorem orderly_nil : Orderly [] := ⟨List.nodup_nil, fun _ h => nomatch h⟩

theorem mem_set (h : c ∈ cs.set new) : c = new ∨ c ∈ cs := by
  induction cs with
  | nil => exact .inl (List.mem_singleton.1 h)
  | cons b cs ih =>
    unfold set at h
    split at h
    · rcases List.mem_cons.1 h with heq | hmem
      · exact .inl heq
      · exact .inr (List.mem_cons_of_mem b hmem)
    · rcases List.mem_cons.1 h with rfl | hmem
      · exact .inr (List.mem_cons_self ..)
      · exact (ih hmem).imp_right (List.mem_cons_of_mem b)

theorem nodup_set (h : (cs.map (·.type)).Nodup) : ((cs.set new).map (·.type)).Nodup := by
  induction cs with
  | nil => exact List.nodup_singleton _
  | cons b cs ih =>
    rw [List.map_cons, List.nodup_cons] at h
    unfold set
    split
    · next hb =>
      rw [List.map_cons, List.nodup_cons, ← hb]
      exact h
    · next hb =>
      rw [List.map_cons, List.nodup_cons]
      refine ⟨fun hmem => ?_, ih h.2⟩
      -- a condition of the type of `b` is none of the others, and not the new one
      obtain ⟨c, hc, htype⟩ := List.mem_map.1 hmem
      rcases mem_set hc with rfl | hc
      · exact hb htype.symm
      · exact h.1 (List.mem_map.2 ⟨c, hc, htype⟩)

theorem Orderly.set (h : cs.Orderly) (hnew : new.Reasoned) : (cs.set new).Orderly where
  nodup := nodup_set h.nodup
  reasoned c hc := by
    rcases mem_set hc with rfl | hc
    · exact hnew
    · exact h.reasoned c hc

/-- A condition that there is, is the one of its type. -/
theorem Orderly.find?_of_mem (h : cs.Orderly) (hc : c ∈ cs) : cs.find? c.type = some c := by
  obtain ⟨hnodup, -⟩ := h
  induction cs with
  | nil => cases hc
  | cons b cs ih =>
    rw [List.map_cons, List.nodup_cons] at hnodup
    unfold find? at ih ⊢
    rcases List.mem_cons.1 hc with rfl | hmem
    · rw [List.find?_cons_of_pos (by simp)]
    · have hne : b.type ≠ c.type := fun heq =>
        hnodup.1 (heq ▸ List.mem_map.2 ⟨c, hmem, rfl⟩)
      rw [List.find?_cons_of_neg (by simpa using hne)]
      exact ih hmem hnodup.2

theorem type_of_find? {type : ConditionType} (h : cs.find? type = some c) : c.type = type := by
  simpa using List.find?_some h

theorem Orderly.reasoned_of_find? {type : ConditionType} (h : cs.Orderly)
    (hc : cs.find? type = some c) : c.Reasoned := h.reasoned c (List.mem_of_find?_eq_some hc)

theorem get_of_find? {type : ConditionType} (h : cs.find? type = some c) : cs.get type = c := by
  rw [get, h, Option.getD_some]

/-! ### Steady conditions -/

/-- Whether a condition differs in its status or its message from that of its type, if there is one.
-/
def News (cs : Conditions) (new : Condition) : Prop :=
  ∀ c, cs.find? new.type = some c → new.status = c.status → new.message ≠ c.message

/-- Whether the conditions that keep their status and their message keep their times as well. -/
def Steady (cs cs' : Conditions) : Prop :=
  ∀ type c c', cs.find? type = some c → cs'.find? type = some c' → c'.status = c.status →
    c'.message = c.message → c'.lastTransition = c.lastTransition

theorem Steady.refl (cs : Conditions) : Steady cs cs := by
  intro type c c' hc hc' _ _
  obtain rfl := Option.some.inj (hc.symm.trans hc')
  rfl

/-- What is news to the conditions at first may be set later. -/
theorem Steady.set (h : Steady cs cs') (hnews : cs.News new) : Steady cs (cs'.set new) := by
  intro type c c' hc hc' hstatus hmessage
  rw [find?_set] at hc'
  split at hc'
  · next htype =>
    obtain rfl := Option.some.inj hc'
    exact absurd hmessage (hnews c (htype ▸ hc) hstatus)
  · exact h type c c' hc hc' hstatus hmessage

/-- In orderly conditions it is the same for all. -/
theorem Steady.of_mem (h : Steady cs cs') (hcs : cs.Orderly) (hcs' : cs'.Orderly) {c c' : Condition}
    (hc : c ∈ cs) (hc' : c' ∈ cs') (htype : c'.type = c.type) (hstatus : c'.status = c.status)
    (hmessage : c'.message = c.message) : c'.lastTransition = c.lastTransition :=
  h c.type c c' (hcs.find?_of_mem hc) (htype ▸ hcs'.find?_of_mem hc') hstatus hmessage

/-- Whether conditions come of others by setting some with the right reasons.  Under the proviso
each of them is news. -/
inductive Renewed (proviso : Prop) (cs : Conditions) : Conditions → Prop
  | refl : Renewed proviso cs cs
  | set {cs' : Conditions} {new : Condition} :
    Renewed proviso cs cs' → new.Reasoned → (proviso → cs.News new) →
    Renewed proviso cs (cs'.set new)

namespace Renewed

variable {proviso : Prop}

theorem mono {proviso' : Prop} (h : Renewed proviso cs cs') (himp : proviso' → proviso) :
    Renewed proviso' cs cs' := by
  induction h with
  | refl => exact .refl
  | set _ hreasoned hnews ih => exact ih.set hreasoned fun h => hnews (himp h)

theorem orderly (h : Renewed proviso cs cs') (hcs : cs.Orderly) : cs'.Orderly := by
  induction h with
  | refl => exact hcs
  | set _ hreasoned _ ih => exact ih.set hreasoned

theorem steady (h : Renewed proviso cs cs') (hproviso : proviso) : cs.Steady cs' := by
  induction h with
  | refl => exact .refl cs
  | set _ _ hnews ih => exact ih.set (hnews hproviso)

end Renewed

end Conditions

namespace Pass.Worked

/-! ### What passes record -/

/-- The ways in which a pass over an object may change its status.  A prompt is sent only if no
answer for its present generation has been recorded. -/
inductive Records : (w : Worked) → Object w.kind → Change w.kind → Prop
  | recordReady {o : Object .llm} (outcome : Except Failure String) (now : Instant) :
    Records .llm o fun _ => Llm.recordReady (Llm.next outcome now)
  | record {o : Object .prompt} (outcome : Except String (List UInt8)) :
    o.isProcessed = false → Records .prompt o (Prompt.record o.metadata.generation outcome)
  | markProgressing {o : Object .model} : Records .model o Model.markProgressing
  | markFailed {o : Object .model} (message : String) : Records .model o (Model.markFailed message)
  | markAvailable {o : Object .model} (n : Model.Counts) :
    Records .model o (Model.markAvailable n)

/-- Whether an outcome has been recorded for the present generation of a prompt.  The conditions of
other kinds do not go with a generation. -/
def IsObserved : (w : Worked) → Object w.kind → Prop
  | .llm, _ | .model, _ => True
  | .prompt, o =>
    o.metadata.generation.isSome ∧ (o.status.getD {}).observedGeneration = o.metadata.generation

variable {cs : Conditions} (now : Instant)

/-- The next `Ready` condition of a language model is news if it differs from the present one. -/
theorem renewed_next (hcs : cs.Orderly) {outcome : Except Failure String}
    (hdiffers : Llm.next outcome now (cs.get .ready) ≠ cs.get .ready) :
    cs.Renewed True (cs.set (Llm.next outcome now (cs.get .ready))) := by
  cases outcome with
  | ok message =>
    have hnot : ¬ ((cs.get .ready).type = .ready ∧ (cs.get .ready).status = .isTrue ∧
        (cs.get .ready).reason = Reason.available ∧ (cs.get .ready).message = message) :=
      fun h => hdiffers (if_pos h)
    rw [Llm.next, Condition.succeeded, if_neg hnot]
    refine .set .refl rfl fun _ c hc hstatus hmessage => hnot ?_
    have htype : c.type = .ready := Conditions.type_of_find? hc
    have hreason : c.reason = Reason.available := by
      simpa only [Condition.Reasoned, htype] using hcs.reasoned_of_find? hc
    rw [Conditions.get_of_find? hc]
    exact ⟨htype, hstatus.symm, hreason, hmessage.symm⟩
  | error e =>
    have hnot : ¬ ((cs.get .ready).type = .ready ∧ (cs.get .ready).status = .isFalse ∧
        (cs.get .ready).message = e.conditionMessage) := fun h => hdiffers (if_pos h)
    rw [Llm.next, Condition.failed, if_neg hnot]
    refine .set .refl rfl fun _ c hc hstatus hmessage => hnot ?_
    rw [Conditions.get_of_find? hc]
    exact ⟨Conditions.type_of_find? hc, hstatus.symm, hmessage.symm⟩

/-- A success that has been recorded for the present generation is one for good. -/
theorem isProcessed_of_observed {o : Object .prompt}
    (hdone : ((o.status.getD {}).conditions.get .done).isTrue = true)
    (hobserved : prompt.IsObserved o) : o.isProcessed = true := by
  obtain ⟨hgeneration, hsame⟩ := hobserved
  unfold Object.isProcessed
  cases hs : o.status with
  | none =>
    rw [hs] at hdone
    cases hdone
  | some s =>
    rw [hs] at hdone hsame
    have hsame : s.observedGeneration = o.metadata.generation := hsame
    have hdone : (s.conditions.get .done).isTrue = true := hdone
    simp only [hdone, hsame, hgeneration, decide_true, Bool.and_self]

/-- The outcome of sending a prompt is news, provided that one has been recorded of the present
generation: an answer because the prompt is not sent again after one, and a failure because the same
one is not recorded again. -/
theorem renewed_record {o : Object .prompt} (ho : (prompt.conditions o).Orderly)
    (hprocessed : o.isProcessed = false) (outcome : Except String (List UInt8)) :
    (prompt.conditions o).Renewed (prompt.IsObserved o)
      (prompt.conditions (Prompt.record o.metadata.generation outcome now o).1) := by
  cases outcome with
  | ok bytes =>
    rw [Prompt.record_ok]
    refine .set .refl (fun hfalse => nomatch hfalse) fun hobserved c hc hstatus _ => ?_
    -- the answer that there is would be that for the present generation
    have hget : (o.status.getD {}).conditions.get .done = c := Conditions.get_of_find? hc
    have hanswered : o.isProcessed = true := by
      refine isProcessed_of_observed ?_ hobserved
      rw [hget, Condition.isTrue, ← hstatus]
      rfl
    rw [hprocessed] at hanswered
    cases hanswered
  | error message =>
    have hdone : (Condition.now now .done .isFalse Reason.reconcileError message).Reasoned :=
      fun _ => rfl
    unfold Prompt.record
    simp only
    split
    · exact .refl
    · next hnot =>
      refine .set .refl hdone fun hobserved c hc hstatus hmessage => hnot ?_
      have htype : c.type = .done := Conditions.type_of_find? hc
      have hreason : c.status = .isFalse → c.reason = Reason.reconcileError := by
        simpa only [Condition.Reasoned, htype] using ho.reasoned_of_find? hc
      have hget : (o.status.getD {}).conditions.get .done = c := Conditions.get_of_find? hc
      rw [hget]
      exact ⟨hstatus.symm, hreason hstatus.symm, hmessage.symm, hobserved.2⟩

theorem renewed_showAvailable {s : ModelStatus} (hs : s.conditions.Orderly) :
    s.conditions.Renewed True (Model.showAvailable now s).conditions := by
  unfold Model.showAvailable
  simp only
  split
  · exact .refl
  · next hnot =>
    refine .set .refl rfl fun _ c hc hstatus _ => hnot ?_
    have htype : c.type = .available := Conditions.type_of_find? hc
    have hreason : c.reason = Reason.newReplicaSetAvailable := by
      simpa only [Condition.Reasoned, htype] using hs.reasoned_of_find? hc
    have hget : s.conditions.get .available = c := Conditions.get_of_find? hc
    rw [hget]
    simp [Condition.isTrue, ← hstatus, hreason, Condition.now]

/-- That there is no failure any more is news to the conditions as they were before anything else
has been shown. -/
theorem renewed_clearFailure {s : ModelStatus} (h : cs.Renewed True s.conditions)
    (hsame : s.conditions.find? .replicaFailure = cs.find? .replicaFailure) :
    cs.Renewed True (Model.clearFailure now s).conditions := by
  unfold Model.clearFailure
  split
  · next hfailure =>
    refine .set h trivial fun _ c hc hstatus _ => ?_
    have hget : s.conditions.get .replicaFailure = c := Conditions.get_of_find? (hsame.trans hc)
    rw [hget, Condition.isTrue, ← hstatus] at hfailure
    cases hfailure
  · exact h

theorem renewed_markAvailable {o : Object .model} (ho : (model.conditions o).Orderly)
    (n : Model.Counts) :
    (model.conditions o).Renewed True (model.conditions (Model.markAvailable n now o).1) := by
  have hshown : (model.conditions o).Renewed True
      (Model.showAvailable now (Model.showCounts n (o.status.getD {}))).conditions :=
    renewed_showAvailable now (s := Model.showCounts n (o.status.getD {})) ho
  refine renewed_clearFailure now hshown ?_
  unfold Model.showAvailable
  simp only
  split
  · rfl
  · rw [Conditions.find?_set, if_neg (by simp [Condition.now])]
    rfl

namespace Records

variable {w : Worked} {o : Object w.kind} {change : Change w.kind}

/-- What a pass records renews the conditions. -/
theorem renewed (h : w.Records o change) (ho : (w.conditions o).Orderly) (now : Instant) :
    (w.conditions o).Renewed (w.IsObserved o) (w.conditions (change now o).1) := by
  -- a condition is put only where the present one differs in status or message
  cases h with
  | recordReady outcome now' =>
    unfold Llm.recordReady
    simp only
    split
    · exact .refl
    · next hdiffers => exact renewed_next now' ho hdiffers
  | record outcome hprocessed => exact renewed_record now ho hprocessed outcome
  | markProgressing =>
    unfold Model.markProgressing
    simp only
    split
    · exact .refl
    · next hnone =>
      refine .set .refl trivial fun _ c hc _ _ => hnone ?_
      exact Option.isSome_iff_exists.2 ⟨c, hc⟩
  | @markFailed o message =>
    unfold Model.markFailed
    simp only
    split
    · exact .refl
    · next hnot =>
      refine .set .refl trivial fun _ c hc hstatus hmessage => hnot ?_
      have hget : (o.status.getD {}).conditions.get .replicaFailure = c :=
        Conditions.get_of_find? hc
      rw [hget]
      simp [Condition.isTrue, ← hstatus, ← hmessage, Condition.now]
  | markAvailable n => exact renewed_markAvailable now ho n

end Records

end Pass.Worked

end ModelKeeper

import ModelKeeper.Proofs.Cluster.Turns
import ModelKeeper.Proofs.Pass.Transitions.Recording

/-!
# Times of transitions over a run

Objects are worked for in passes, one after the other, and between them others may act: users
change what is wanted, the objects that a pass makes or looks at change, and the clock is set
(`Pass.Course`).  Nobody but the operator writes the statuses of its own kinds
(`Cluster.Operation.SparesStatuses`).

Then the time of the last transition of a condition moves only if the status or the message of the
condition does (`Pass.transitions_tell_changes`).  There is one exception: a pass over a prompt of
whose generation no outcome has been recorded records one, and with it the time, though the outcome
may be the same as before.
-/

namespace ModelKeeper

/-! ### What others do -/

/-- Whether an operation leaves the statuses of the objects alone that the operator works for.  Such
objects are made without a status. -/
def Cluster.Operation.SparesStatuses : Cluster.Operation → Prop
  | @insert k o | @create k o => ∀ w : Pass.Worked, w.kind = k → o.status = none
  | modify k _ change => ∀ w : Pass.Worked, w.kind = k → ∀ o, (change o).status = o.status
  | @put half k _ => half = .status → ∀ w : Pass.Worked, w.kind ≠ k
  | delete _ _ _ | injectConflicts _ => True

namespace Pass

variable {σ : Type} {v : Vendors σ} {key : Key} {c c' : Cluster}

/-- An object that is put there as it is comes without a status. -/
theorem status_insert {k : Kind} {o : Object k} (hnone : ∀ w : Worked, w.kind = k → o.status = none)
    {w : Worked} {o' : Object w.kind} (ho' : (c.insert o).2.stored? w.kind key = some o') :
    o'.status = none ∨ ∃ o, c.stored? w.kind key = some o ∧ o'.status = o.status := by
  rw [Cluster.insert] at ho'
  cases hkey : o.requireKey with
  | error e =>
    rw [hkey] at ho'
    exact .inr ⟨o', ho', rfl⟩
  | ok home =>
    simp only [hkey] at ho'
    by_cases hhome : w.kind = k ∧ key = home
    · obtain ⟨rfl, rfl⟩ := hhome
      rw [Cluster.stored?_store_self] at ho'
      obtain rfl := Option.some.inj ho'
      exact .inl (hnone w rfl)
    · rw [Cluster.stored?_store_of_ne hhome] at ho'
      exact .inr ⟨o', ho', rfl⟩

/-- A change by another actor leaves the status as it is. -/
theorem status_modify {k : Kind} {home : Key} {change : Object k → Object k}
    (hsame : ∀ w : Worked, w.kind = k → ∀ o, (change o).status = o.status) {w : Worked}
    {o' : Object w.kind} (ho' : (c.modify k home change).2.stored? w.kind key = some o') :
    ∃ o, c.stored? w.kind key = some o ∧ o'.status = o.status := by
  rw [Cluster.modify] at ho'
  cases hget : c.get k home with
  | error e =>
    rw [hget] at ho'
    exact ⟨o', ho', rfl⟩
  | ok copy =>
    simp only [hget] at ho'
    by_cases hhome : w.kind = k ∧ key = home
    · obtain ⟨rfl, rfl⟩ := hhome
      obtain ⟨stored, hs, rfl⟩ := Cluster.stored_of_get hget
      rw [Cluster.stored?_store_self] at ho'
      obtain rfl := Option.some.inj ho'
      exact ⟨stored, hs, hsame w rfl stored.settled⟩
    · rw [Cluster.stored?_store_of_ne hhome] at ho'
      exact ⟨o', ho', rfl⟩

/-- The status of an object is the one that was there, or there is none. -/
theorem status_of_sparesStatuses {op : Cluster.Operation} (hop : op.SparesStatuses) {w : Worked}
    {o' : Object w.kind} (ho' : (op.apply c).stored? w.kind key = some o') :
    o'.status = none ∨ ∃ o, c.stored? w.kind key = some o ∧ o'.status = o.status := by
  by_cases hregular : op.Regular
  · have hturns : op.Turns c key (c.stored? w.kind key) ((op.apply c).stored? w.kind key) :=
      Cluster.Operation.turns c hregular
    rw [ho'] at hturns
    generalize c.stored? w.kind key = found at hturns
    cases hturns with
    | same => exact .inr ⟨o', rfl, rfl⟩
    | made o heq =>
      subst heq
      exact .inl (hop w rfl)
    | @written half stored o _ heq =>
      subst heq
      cases half with
      | body => exact .inr ⟨stored, rfl, rfl⟩
      | status => exact absurd rfl (hop rfl w)
    | @marked stored => exact .inr ⟨stored, rfl, rfl⟩
  · -- what is not regular puts objects there as they are, or changes them
    cases op with
    | create | put | delete | injectConflicts => exact absurd trivial hregular
    | insert o => exact status_insert hop ho'
    | modify k home change => exact .inr (status_modify hop ho')

/-! ### What a pass leaves alone -/

/-- A pass leaves objects at home, and changes none that the operator works for but its own. -/
theorem wp_reconcile_others (w : Worked) (settings : Settings) (hplaced : c.Placed) :
    (reconcile w settings key).wp (.onCluster v) (fun _ c' => c'.Placed ∧ ∀ (j : Worked) home,
      ¬ (j = w ∧ home = key) → c'.stored? j.kind home = c.stored? j.kind home) c := by
  have hleaves : w.Leaves key (.onCluster v) fun c' => c'.Placed ∧ ∀ (j : Worked) home,
      ¬ (j = w ∧ home = key) → c'.stored? j.kind home = c.stored? j.kind home := by
    -- writes of the own object, then parts of an image store, which are of other kinds
    refine w.leaves_onCluster v key (fun c' hc' => hc'.1 w.kind key) (fun c' hc' _ => hc')
      (fun half change hmakes c' stored now hc' hs => ⟨?_, fun j home hne => ?_⟩)
      fun _ p source c' hc' _ => ⟨?_, fun j home hne => ?_⟩
    · have hplace := hc'.1 w.kind key stored hs
      have hplace' := hmakes.proper.isAt hplace.settled now
      have hgrows : c'.Grows
          (c'.nextVersion.putBack half key (change.result half c' stored now)) := by
        cases half with
        | body => exact .putBack .body ⟨hplace'.ns, hplace'.name⟩ rfl
        | status => exact .putBack .status ⟨hplace.ns, hplace.name⟩ rfl
      exact hgrows.placed hc'.1
    · have hother : ¬ (j.kind = w.kind ∧ home = key) := fun h =>
        hne ⟨Worked.kind_injective h.1, h.2⟩
      rw [Cluster.sameBut_putBack c'.nextVersion half key _ j.kind home hother]
      exact hc'.2 j home hne
    · have hpart := p.object_isAt key.ns source
      have hgrows : c'.Grows (c'.nextVersion.store (p.key key.ns)
          (c'.created (p.object key.ns source))) := .store ⟨hpart.ns, hpart.name⟩ rfl
      exact hgrows.placed hc'.1
    · have hpart : ¬ (j.kind = p.kind ∧ home = p.key key.ns) := fun h => j.kind_ne_part p h.1
      rw [Cluster.stored?_store_of_ne hpart]
      exact hc'.2 j home hne
  exact hleaves.reconcile c ⟨hplaced, fun _ _ _ => rfl⟩

/-! ### Runs -/

/-- Whether every object is at home, and those that the operator works for have orderly conditions.
-/
structure Orderly (c : Cluster) : Prop where
  placed : c.Placed
  conditions : ∀ (w : Worked) key (o : Object w.kind), c.stored? w.kind key = some o →
    (w.conditions o).Orderly

/-- The conditions of an object are told by its status. -/
theorem Worked.conditions_congr {w : Worked} {o o' : Object w.kind} (h : o'.status = o.status) :
    w.conditions o' = w.conditions o := by
  cases w <;> exact congrArg (fun s => (Option.getD s {}).conditions) h

theorem Worked.conditions_of_none {w : Worked} {o : Object w.kind} (h : o.status = none) :
    w.conditions o = [] := by
  cases w
  all_goals
    unfold conditions
    simp only
    rw [h]
    rfl

theorem Orderly.of_sparesStatuses {op : Cluster.Operation} (hc : Orderly c)
    (hop : op.SparesStatuses) (hproper : op.Proper) : Orderly (op.apply c) where
  placed := (op.grows hproper hc.placed).placed hc.placed
  conditions w key o' ho' := by
    rcases status_of_sparesStatuses hop ho' with hnone | ⟨o, ho, hsame⟩
    · rw [Worked.conditions_of_none hnone]
      exact Conditions.orderly_nil
    · rw [Worked.conditions_congr hsame]
      exact hc.conditions w key o ho

/-- What becomes of an object in a pass: another one stays as it is, and its own has the conditions
that it had before, or those that come of a single recording. -/
theorem exists_recording {w j : Worked} {settings : Settings} {home : Key} {s : World σ × Nat}
    (hplaced : s.1.cluster.Placed) (clock : Nat → Instant) {o' : Object j.kind}
    (ho' : ((reconcile w settings key).run (World.ticking v clock) s).2.1.cluster.stored? j.kind
      home = some o') :
    ∃ o, s.1.cluster.stored? j.kind home = some o ∧
      (j.conditions o' = j.conditions o ∨ (j = w ∧ home = key) ∧ ∃ change now,
        j.Records o.settled change ∧
          j.conditions o' = j.conditions (change now o.settled).1) := by
  have hserves := World.ticking_serves v clock
  by_cases hown : j = w ∧ home = key
  · obtain ⟨rfl, rfl⟩ := hown
    obtain ⟨o, ho, hstatus⟩ := Program.run_of_wp hserves _
      (wp_reconcile_recording j settings (hplaced j.kind home)) o' ho'
    refine ⟨o, ho, hstatus.imp Worked.conditions_congr ?_⟩
    rintro ⟨change, now, hrecords, hstatus⟩
    exact ⟨⟨rfl, rfl⟩, change, now, hrecords, Worked.conditions_congr hstatus⟩
  · obtain ⟨-, hothers⟩ := Program.run_of_wp hserves _ (wp_reconcile_others w settings hplaced)
    exact ⟨o', (hothers j home hown).symm.trans ho', .inl rfl⟩

/-- The conditions of other objects stay, and those of the object of a pass are renewed. -/
theorem Orderly.renewed {w j : Worked} {settings : Settings} {home : Key} {s : World σ × Nat}
    (hc : Orderly s.1.cluster) (clock : Nat → Instant) {o' : Object j.kind}
    (ho' : ((reconcile w settings key).run (World.ticking v clock) s).2.1.cluster.stored? j.kind
      home = some o') :
    ∃ o, s.1.cluster.stored? j.kind home = some o ∧
      (j.conditions o).Renewed (j = w → home = key → j.IsObserved o) (j.conditions o') := by
  obtain ⟨o, ho, hconditions⟩ := exists_recording hc.placed clock ho'
  refine ⟨o, ho, ?_⟩
  rcases hconditions with hsame | ⟨⟨rfl, rfl⟩, change, now, hrecords, hrecorded⟩
  · rw [hsame]
    exact .refl
  · have hsettled : j.conditions o.settled = j.conditions o := Worked.conditions_congr rfl
    have hobserved : j.IsObserved o.settled = j.IsObserved o := by cases j <;> rfl
    have hrenewed := hrecords.renewed (hsettled ▸ hc.conditions j home o ho) now
    rw [hsettled, hobserved, ← hrecorded] at hrenewed
    exact hrenewed.mono fun h => h rfl rfl

theorem Orderly.pass {s : World σ × Nat} (hc : Orderly s.1.cluster) (w : Worked)
    (settings : Settings) (key : Key) (clock : Nat → Instant) :
    Orderly ((reconcile w settings key).run (World.ticking v clock) s).2.1.cluster where
  placed := (Program.run_of_wp (World.ticking_serves v clock) _
    (wp_reconcile_others w settings hc.placed)).1
  conditions j home o' ho' := by
    obtain ⟨o, ho, hrenewed⟩ := hc.renewed clock ho'
    exact hrenewed.orderly (hc.conditions j home o ho)

/-- The worlds that come about when objects without a status are worked for in passes, while the
clock goes on as it likes, and others act in between. -/
inductive Course (v : Vendors σ) : World σ → Prop
  | start {s : World σ} :
    s.cluster.Placed →
    (∀ (w : Worked) key (o : Object w.kind), s.cluster.stored? w.kind key = some o →
      o.status = none) →
    Course v s
  | pass {s : World σ} (w : Worked) (settings : Settings) (key : Key) (clock : Nat → Instant) :
    Course v s → Course v ((reconcile w settings key).run (World.ticking v clock) (s, 0)).2.1
  | others {s s' : World σ} (op : Cluster.Operation) :
    Course v s → op.SparesStatuses → op.Proper → s'.cluster = op.apply s.cluster → Course v s'

theorem Course.orderly {s : World σ} (h : Course v s) : Orderly s.cluster := by
  induction h with
  | start hplaced hnone =>
    refine ⟨hplaced, fun w key o ho => ?_⟩
    rw [Worked.conditions_of_none (hnone w key o ho)]
    exact Conditions.orderly_nil
  | pass w settings key clock _ ih => exact Orderly.pass (s := (_, 0)) ih w settings key clock
  | others op _ hop hproper hcluster ih =>
    rw [hcluster]
    exact ih.of_sparesStatuses hop hproper

/-- **Times of transitions move only on transitions**, except over prompts of new generations.  In
every run of passes with others acting in between, if a pass leaves a condition of some type with
the status and the message that it had before then the time of its last transition is the same as
well.  If this is the prompt that the pass is over then an outcome has to have been recorded of its
present generation. -/
theorem transitions_tell_changes {s : World σ} (h : Course v s) (w : Worked) (settings : Settings)
    (key : Key) (clock : Nat → Instant) :
    let s' := ((reconcile w settings key).run (World.ticking v clock) (s, 0)).2.1
    ∀ (j : Worked) home (o o' : Object j.kind), s.cluster.stored? j.kind home = some o →
      s'.cluster.stored? j.kind home = some o' → (j = w → home = key → j.IsObserved o) →
      ∀ x ∈ j.conditions o, ∀ x' ∈ j.conditions o', x'.type = x.type → x'.status = x.status →
        x'.message = x.message → x'.lastTransition = x.lastTransition := by
  intro s' j home o o' ho ho' hobserved x hx x' hx' htype hstatus hmessage
  have hc : Orderly s.cluster := h.orderly
  have hc' : Orderly s'.cluster := (h.pass w settings key clock).orderly
  obtain ⟨p, hp, hrenewed⟩ := Orderly.renewed (s := (s, 0)) hc clock ho'
  obtain rfl := Option.some.inj (ho.symm.trans hp)
  exact (hrenewed.steady hobserved).of_mem (hc.conditions j home o ho)
    (hc'.conditions j home o' ho') hx hx' htype hstatus hmessage

/-- A second pass finds the same failure and leaves the time.  When something else is wanted then a
third one finds it again, and the time moves. -/
theorem transitions_tell_changes_undirected :
    let key : Key := ⟨"default", "p"⟩
    let pass (seconds : Int) (s : World Unit) : World Unit :=
      ((reconcile .prompt {} key).run (World.ticking .unreachable fun _ => ⟨seconds, 0⟩) (s, 0)).2.1
    let s₀ : World Unit :=
      { cluster := Cluster.empty.store key (undirectedPrompt key), vendors := () }
    let s₁ := pass 0 s₀
    let s₂ := pass 60 s₁
    let changed : Object .prompt :=
      { undirectedPrompt key with spec := ({ llm := some { name := "" } } : PromptSpec) }
    let s₃ := pass 120
      { s₂ with cluster := (Cluster.Operation.put .body changed).apply s₂.cluster }
    let done (time : Instant) : Condition :=
      .now time .done .isFalse Reason.reconcileError "no llm configuration provider"
    Course .unreachable s₁ ∧
      ∃ o o' o'' : Object .prompt, s₁.cluster.stored? .prompt key = some o ∧
        s₂.cluster.stored? .prompt key = some o' ∧ s₃.cluster.stored? .prompt key = some o'' ∧
        Worked.prompt.IsObserved o ∧
        Worked.prompt.conditions o = [done ⟨0, 0⟩] ∧
        (∀ x ∈ Worked.prompt.conditions o', x.type = .done → x.status = .isFalse →
          x.message = "no llm configuration provider" →
          x.lastTransition = some "1970-01-01T00:00:00Z") ∧
        Worked.prompt.conditions o'' = [done ⟨120, 0⟩] := by
  intro key pass s₀ s₁ s₂ changed s₃ done
  have hplaced : s₀.cluster.Placed :=
    (Cluster.placed_empty.store key ⟨rfl, rfl⟩ :
      (Cluster.empty.store key (undirectedPrompt key)).Placed)
  have hnone : ∀ (w : Worked) home (o : Object w.kind), s₀.cluster.stored? w.kind home = some o →
      o.status = none := by
    intro w home o ho
    by_cases hhome : w.kind = .prompt ∧ home = key
    · obtain ⟨hkind, rfl⟩ := hhome
      obtain rfl : w = .prompt := Worked.kind_injective hkind
      obtain rfl := Option.some.inj ((Cluster.stored?_store_self ..).symm.trans ho)
      rfl
    · have hempty := (Cluster.stored?_store_of_ne hhome .empty (undirectedPrompt key)).symm.trans ho
      cases hempty
  -- the first pass alone makes the course; the theorem speaks of the second
  have hcourse : Course .unreachable s₁ := .pass .prompt {} key _ (.start hplaced hnone)
  let shown : Option (Object .prompt) → Option (Conditions × Option Int × Option Int) :=
    Option.map fun o => (Worked.prompt.conditions o, o.metadata.generation,
      (o.status.getD {}).observedGeneration)
  have hfirst : shown (s₁.cluster.stored? .prompt key) = some ([done ⟨0, 0⟩], some 2, some 2) := by
    decide +kernel
  have hsecond : (s₂.cluster.stored? .prompt key).isSome := by decide +kernel
  have hthird : (s₃.cluster.stored? .prompt key).map Worked.prompt.conditions =
      some [done ⟨120, 0⟩] := by
    decide +kernel
  obtain ⟨o, ho, hshown⟩ := Option.map_eq_some_iff.1 hfirst
  obtain ⟨hconditions, hshown⟩ := Prod.mk.inj hshown
  obtain ⟨hgeneration, hobserved⟩ := Prod.mk.inj hshown
  obtain ⟨o', ho'⟩ := Option.isSome_iff_exists.1 hsecond
  obtain ⟨o'', ho'', hconditions''⟩ := Option.map_eq_some_iff.1 hthird
  have hseen : Worked.prompt.IsObserved o :=
    ⟨by rw [hgeneration]; rfl, hobserved.trans hgeneration.symm⟩
  refine ⟨hcourse, o, o', o'', ho, ho', ho'', hseen, hconditions, ?_, hconditions''⟩
  intro x hx htype hstatus hmessage
  have hmem : done ⟨0, 0⟩ ∈ Worked.prompt.conditions o := by
    rw [hconditions]
    exact List.mem_singleton_self _
  have hsame := transitions_tell_changes hcourse .prompt {} key (fun _ => ⟨60, 0⟩) .prompt key o o'
    ho ho' (fun _ _ => hseen) _ hmem x hx htype hstatus hmessage
  rw [hsame]
  decide +kernel

end Pass

end ModelKeeper

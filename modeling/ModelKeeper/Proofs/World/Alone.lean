import ModelKeeper.Proofs.World.Undisturbed

/-!
# Amendments in a world of its own

In a world that nobody else acts on the clock stands still, so it is known exactly what becomes of
an object that is amended and of the world around it (`Change.wp_amend_alone`).  There is nothing to
write; or it is written, after the injected conflicts; or there are too many of them, and then the
attempts are used up and no object has changed.

If only the status is amended then `Cluster.withStatus` is the cluster afterwards
(`Change.wp_record_alone`), and `Cluster.withBody` if the body is (`Change.wp_replace_alone`).
-/

namespace ModelKeeper

variable {σ : Type} {v : Vendors σ} {k : Kind} {key : Key} {w : World σ} {o : Object k}

namespace World

variable (v : Vendors σ) (w : World σ)

@[simp]
theorem meaning_get (k : Kind) (key : Key) (post) :
    (handler v).meaning (.get k key) post w = post (w.cluster.get k key) w := rfl

@[simp]
theorem meaning_now (post) : (handler v).meaning .now post w = post w.clock w := rfl

end World

@[simp]
theorem Objects.wp_find?_alone (post : Except AccessError (Option (Object k)) → World σ → Prop) :
    (find? k key).wp (World.handler v).meaning post w =
      post (.ok ((w.cluster.stored? k key).map Object.settled)) w := by
  unfold find?
  simp only [Attempt.wp_of, Program.wp_bind', Program.ask, Program.wp_step, Program.wp_done,
    World.meaning_get, Cluster.get]
  cases w.cluster.stored? k key <;> rfl

/-- In a world of its own the clock stands still. -/
theorem World.owns_meaning (v : Vendors σ) (w : World σ) (half : Half) (k : Kind) (key : Key) :
    (handler v).meaning.Owns half k key (· = w.clock) (fun c w' => w' = { w with cluster := c })
      fun _ _ c w' => w' = { w with cluster := c } where
  get _ _ _ hw h := hw ▸ h _ rfl
  now _ _ _ hw h := hw ▸ h _ _ rfl rfl
  write o c w' post hw h := by
    subst hw
    have hpost := h _ rfl
    cases half <;> exact hpost
  refused _ _ _ _ hw := hw

/-- What becomes of an object that is amended, and of the world around it. -/
theorem Change.wp_amend_alone {half : Half} {change : Change k}
    {post : Except AccessError (Object k) → World σ → Prop} (hproper : change.Proper)
    (hs : w.cluster.stored? k key = some o) (hplace : o.IsAt key) (attempts : Nat)
    (hsame : (change w.clock o.settled).2 = false → post (.ok (change w.clock o.settled).1) w)
    (hput : (change w.clock o.settled).2 = true →
      w.cluster.injectedConflicts < max attempts 1 →
      post (.ok (change.result half w.cluster o w.clock).settled)
        { w with
          cluster := ({ w.cluster with injectedConflicts := 0 } : Cluster).nextVersion.putBack half
            key (change.result half w.cluster o w.clock) })
    (hconflict : (change w.clock o.settled).2 = true →
      max attempts 1 ≤ w.cluster.injectedConflicts →
      post (.error (.conflict k.name key "injected conflict"))
        { w with
          cluster := { w.cluster with
            injectedConflicts := w.cluster.injectedConflicts - max attempts 1 } }) :
    (amend half k key attempts change).wp (World.handler v).meaning post w :=
  wp_amend_steady (World.owns_meaning v w half k key) hproper hplace
    (fun now hnow => by rw [hnow]) attempts hs rfl
    (fun now w' hnow hfalse hw => by rw [hnow, hw]; exact hsame hfalse)
    (fun now w' hnow htrue hlt hw => by rw [hnow] at hw ⊢; rw [hw]; exact hput htrue hlt)
    fun w' htrue hle hw => by rw [hw]; exact hconflict htrue hle

/-! ### Replacing a body -/

/-- The cluster after the body of the object `o` under a key has been replaced by that of an
incoming one, past all injected conflicts. -/
def Cluster.withBody (c : Cluster) (key : Key) (o incoming : Object k) : Cluster :=
  let c := ({ c with injectedConflicts := 0 } : Cluster).nextVersion
  c.putBack .body key (Cluster.merged o incoming c.versionText)

theorem Cluster.stored?_withBody {incoming : Object k}
    (h : incoming.metadata.deletion = o.metadata.deletion) (c : Cluster) (key : Key) :
    (c.withBody key o incoming).stored? k key =
      if o.isDeleted ∧ incoming.finalizers = [] then none
      else some (Cluster.merged o incoming c.nextVersion.versionText) := by
  have hdeleted : ∀ version, (Cluster.merged o incoming version).isDeleted = o.isDeleted := by
    intro version
    unfold Cluster.merged Object.isDeleted
    rw [h]
    cases o.metadata.deletion <;> rfl
  unfold withBody
  rw [stored?_putBack_self, hdeleted]
  simp only [true_and]
  rfl

/-- What a change of the body comes to, if there is one. -/
theorem Change.wp_replace_alone {change : Change k}
    {post : Except AccessError (Object k) → World σ → Prop} (hproper : change.Proper)
    (hs : w.cluster.stored? k key = some o) (hplace : o.IsAt key) (attempts : Nat)
    (hflag : (change w.clock o.settled).2 = true)
    (hput : w.cluster.injectedConflicts < max attempts 1 → ∀ a, post (.ok a)
      { w with cluster := w.cluster.withBody key o (change w.clock o.settled).1 })
    (hconflict : max attempts 1 ≤ w.cluster.injectedConflicts →
      post (.error (.conflict k.name key "injected conflict"))
        { w with
          cluster := { w.cluster with
            injectedConflicts := w.cluster.injectedConflicts - max attempts 1 } }) :
    (amend .body k key attempts change).wp (World.handler v).meaning post w := by
  refine wp_amend_alone hproper hs hplace attempts (fun hsame => ?_) (fun _ hlt => hput hlt _)
    fun _ => hconflict
  rw [hflag] at hsame
  cases hsame

/-! ### Recording a status -/

namespace Cluster

/-- The cluster after this status of the object `o` under a key has been written, past all injected
conflicts. -/
def withStatus (c : Cluster) (key : Key) (o : Object k) (status : Option k.Status) : Cluster :=
  let c := ({ c with injectedConflicts := 0 } : Cluster).nextVersion
  c.store key { o with status, metadata := { o.metadata with version := some c.versionText } }

theorem stored?_withStatus (c : Cluster) (key : Key) (o : Object k) (status : Option k.Status) :
    (c.withStatus key o status).stored? k key = some
      { o with
        status
        metadata := { o.metadata with version := some c.nextVersion.versionText } } :=
  stored?_store_self ..

end Cluster

/-- What a change of the status comes to. -/
theorem Change.wp_record_alone {change : Change k}
    {post : Except AccessError (Object k) → World σ → Prop} (hstatus : change.OfStatus)
    (hs : w.cluster.stored? k key = some o) (hplace : o.IsAt key) (attempts : Nat)
    (hsame : (change w.clock o.settled).2 = false → ∀ a, post (.ok a) w)
    (hput : (change w.clock o.settled).2 = true →
      w.cluster.injectedConflicts < max attempts 1 → ∀ a, post (.ok a)
        { w with
          cluster := w.cluster.withStatus key o (change w.clock o.settled).1.status })
    (hconflict : (change w.clock o.settled).2 = true →
      max attempts 1 ≤ w.cluster.injectedConflicts → ∀ e, post (.error e)
        { w with
          cluster := { w.cluster with
            injectedConflicts := w.cluster.injectedConflicts - max attempts 1 } }) :
    (amend .status k key attempts change).wp (World.handler v).meaning post w := by
  refine wp_amend_alone hstatus.proper hs hplace attempts (fun hflag => hsame hflag _)
    (fun hflag hlt => ?_) fun hflag hle => hconflict hflag hle _
  have hput := hput hflag hlt (change.result .status w.cluster o w.clock).settled
  rw [Cluster.putBack_status]
  exact hput

end ModelKeeper

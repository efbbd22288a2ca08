import ModelKeeper.Proofs.Operator.Attempts
import ModelKeeper.Proofs.Program.Wp
import ModelKeeper.World.Basic

/-!
# Programs in a cluster of their own

While nobody else writes, the answers to a program depend on the objects of the cluster, on what the
clock shows and on the vendors.  `Meaning.onCluster` says what is known of a request then: the clock
may show anything, and the vendors may be in any state.

Handlers that keep a cluster in this way (`Handler.Serves`) are `World.handler` and `World.ticking`,
whose clock shows another time at every look.

`Change.wp_amend`, `Change.wp_amend_injected` and `Change.wp_amend_status` say what becomes of an
object that is amended.
-/

namespace ModelKeeper

variable {σ τ α : Type}

/-- What is known of requests in a cluster that nobody else writes. -/
def Meaning.onCluster (v : Vendors σ) : Meaning Cluster
  | .get k key, post, c => post (c.get k key) c
  | .create _ o, post, c => post (c.create o).1 (c.create o).2
  | .update _ o, post, c => post (c.update o).1 (c.update o).2
  | .updateStatus _ o, post, c => post (c.updateStatus o).1 (c.updateStatus o).2
  | .delete k key, post, c => ∀ now, post (c.delete k key now).1 (c.delete k key now).2
  | .now, post, c => ∀ now, post now c
  | .emit _, post, c => post () c
  | .count _, post, c => post () c
  | .connect x, post, c => post (v.connect x) c
  | .validate x options, post, c => ∀ s, post (v.validate x options s).1 c
  | .call x payload, post, c => ∀ s, post (v.call x payload s).1 c

namespace Meaning

variable (v : Vendors σ) (c : Cluster)

theorem onCluster_monotone : (onCluster v).Monotone := by
  intro r post post' c hpost h
  cases r with
  | delete k key => exact fun now => hpost _ _ (h now)
  | now => exact fun now => hpost _ _ (h now)
  | validate x options => exact fun s => hpost _ _ (h s)
  | call x payload => exact fun s => hpost _ _ (h s)
  | _ => exact hpost _ _ h

@[simp]
theorem onCluster_get (k : Kind) (key : Key) (post) :
    onCluster v (.get k key) post c = post (c.get k key) c := rfl

@[simp]
theorem onCluster_create {k : Kind} (o : Object k) (post) :
    onCluster v (.create k o) post c = post (c.create o).1 (c.create o).2 := rfl

@[simp]
theorem onCluster_now (post) : onCluster v .now post c = ∀ now, post now c := rfl

@[simp]
theorem onCluster_emit (e : Event) (post) : onCluster v (.emit e) post c = post () c := rfl

@[simp]
theorem onCluster_count (m : Metric) (post) : onCluster v (.count m) post c = post () c := rfl

@[simp]
theorem onCluster_connect (x : Connection) (post) :
    onCluster v (.connect x) post c = post (v.connect x) c := rfl

@[simp]
theorem onCluster_validate (x : Connection) (options : List CallOption) (post) :
    onCluster v (.validate x options) post c = ∀ s, post (v.validate x options s).1 c := rfl

@[simp]
theorem onCluster_call (x : Connection) (payload : List UInt8) (post) :
    onCluster v (.call x payload) post c = ∀ s, post (v.call x payload s).1 c := rfl

end Meaning

/-- Vendors that cannot be reached. -/
def Vendors.unreachable : Vendors Unit :=
  .overHttp fun r s => (.error (.unanswered r.address), s)

/-! ### Handlers that keep a cluster -/

/-- Whether all that a handler does is known from the cluster that it keeps. -/
def Handler.Serves (h : Handler τ) (v : Vendors σ) (cluster : τ → Cluster) : Prop :=
  ∀ (r : Request) (post : r.Answer → Cluster → Prop) (s : τ),
    Meaning.onCluster v r post (cluster s) → post (h.answer r s).1 (cluster (h.answer r s).2)

theorem Program.run_of_wp {h : Handler τ} {v : Vendors σ} {cluster : τ → Cluster}
    (hserves : h.Serves v cluster) {post : α → Cluster → Prop} (p : Program α) {s : τ}
    (hp : p.wp (.onCluster v) post (cluster s)) :
    post (p.run h s).1 (cluster (p.run h s).2) := by
  induction p generalizing s with
  | done a => exact hp
  | step r next ih => exact ih (h.answer r s).1 (hserves r _ s hp)

namespace World

theorem handler_serves (v : Vendors σ) : (handler v).Serves v cluster := by
  intro r post w h
  cases r with
  | delete k key => exact h w.clock
  | now => exact h w.clock
  | validate x options => exact h w.vendors
  | call x payload => exact h w.vendors
  | _ => exact h

/-- The world as a place where programs run, with a clock that shows another time at every look. -/
def ticking (v : Vendors σ) (clock : Nat → Instant) : Handler (World σ × Nat) where
  answer
    | .now, (w, looks) => (clock looks, (w, looks + 1))
    | r, (w, looks) => ((answer v r w).1, ((answer v r w).2, looks))

theorem ticking_serves (v : Vendors σ) (clock : Nat → Instant) :
    (ticking v clock).Serves v (fun s => s.1.cluster) := by
  intro r post s h
  cases r with
  | now => exact h (clock s.2)
  | _ => exact handler_serves v _ post s.1 h

/-- Whether a request leaves everything in a world alone but its cluster. -/
def OfCluster : Request → Prop
  | .emit _ | .count _ | .validate _ _ | .call _ _ => False
  | _ => True

/-- A program whose requests are all of this sort changes nothing but the cluster. -/
theorem run_of_cluster (v : Vendors σ) (p : Program α) (w : World σ)
    (h : ∀ x ∈ p.exchanges (handler v) w, OfCluster x.request) :
    (p.run (handler v) w).2 = { w with cluster := (p.run (handler v) w).2.cluster } := by
  induction p generalizing w with
  | done a => rfl
  | step r next ih =>
    have hr : OfCluster r := h ⟨r, _⟩ (List.mem_cons_self ..)
    have hstep : ∀ c, { ((handler v).answer r w).2 with cluster := c } = { w with cluster := c } :=
      fun c => by cases r <;> first | rfl | exact absurd hr id
    have hrun := ih ((handler v).answer r w).1 ((handler v).answer r w).2
      fun x hx => h x (List.mem_cons_of_mem _ hx)
    exact hrun.trans (hstep _)

end World

/-! ### Reading -/

namespace Objects

variable {k : Kind} {v : Vendors σ} {c : Cluster} {key : Key}

@[simp]
theorem wp_find? (post : Except AccessError (Option (Object k)) → Cluster → Prop) :
    (find? k key).wp (.onCluster v) post c =
      post (.ok ((c.stored? k key).map Object.settled)) c := by
  unfold find?
  rw [Attempt.wp_of, Program.wp_bind']
  simp only [Program.ask, Program.wp_step, Program.wp_done, Meaning.onCluster_get, Cluster.get]
  cases c.stored? k key <;> rfl

@[simp]
theorem wp_get (post : Except AccessError (Object k) → Cluster → Prop) :
    (get k key).wp (.onCluster v) post c = post (c.get k key) c := rfl

end Objects

/-! ### Amending an object -/

/-- A cluster that nobody else writes is all that is known. -/
theorem Meaning.owns_onCluster (v : Vendors σ) (half : Half) (k : Kind) (key : Key) :
    (onCluster v).Owns half k key (fun _ => True) (fun c e => e = c) (fun _ _ c e => e = c) where
  get _ _ _ he h := he ▸ h _ rfl
  now _ _ _ he h now := he ▸ h now _ trivial rfl
  write o c e post he h := by
    subst he
    have hpost := h _ rfl
    cases half <;> exact hpost
  refused _ _ _ _ he := he

namespace Change

variable {k : Kind} {change : Change k} {c : Cluster} {key : Key} {stored : Object k}
  {v : Vendors σ} {half : Half} {post : Except AccessError (Object k) → Cluster → Prop}

/-- Nobody is in the way: the object is amended at once, if there is anything to amend. -/
theorem wp_amend (hproper : change.Proper) (hs : c.stored? k key = some stored)
    (hplace : stored.IsAt key) (hc : c.injectedConflicts = 0) (attempts : Nat)
    (hsame : ∀ now, (change now stored.settled).2 = false →
      post (.ok (change now stored.settled).1) c)
    (hput : ∀ now, (change now stored.settled).2 = true →
      post (.ok (change.result half c stored now).settled)
        (c.nextVersion.putBack half key (change.result half c stored now))) :
    (amend half k key attempts change).wp (.onCluster v) post c := by
  have hnone : ({ c with injectedConflicts := 0 } : Cluster) = c := by rw [← hc]
  refine wp_amend_owned (Meaning.owns_onCluster v half k key) hproper hplace attempts hs rfl
    (fun now lost e' _ hfalse hle _ he' => ?_) (fun now e' _ htrue _ he' => ?_)
    fun _ _ _ _ hle => absurd hle (by omega)
  · obtain rfl : lost = 0 := by omega
    exact he' ▸ hsame now hfalse
  · rw [he', hnone]
    exact hput now htrue

/-- Injected conflicts are in the way: as many attempts as there are conflicts fail. -/
theorem wp_amend_injected (hproper : change.Proper) (hs : c.stored? k key = some stored)
    (hplace : stored.IsAt key) (hflag : ∀ now, (change now stored.settled).2 = true)
    (attempts : Nat)
    (hput : c.injectedConflicts < max attempts 1 → ∀ now,
      post (.ok (change.result half c stored now).settled)
        (({ c with injectedConflicts := 0 } : Cluster).nextVersion.putBack half key
          (change.result half c stored now)))
    (hconflict : max attempts 1 ≤ c.injectedConflicts →
      post (.error (.conflict k.name key "injected conflict"))
        { c with injectedConflicts := c.injectedConflicts - max attempts 1 }) :
    (amend half k key attempts change).wp (.onCluster v) post c :=
  wp_amend_steady (Meaning.owns_onCluster v half k key) hproper hplace (fun now _ => hflag now)
    attempts hs rfl (fun _ _ _ hfalse => by cases hfalse)
    (fun now _ _ _ hlt he' => he' ▸ hput hlt now) fun _ _ hle he' => he' ▸ hconflict hle

/-- An amendment of the status writes it once, unless there is nothing to write or it is refused;
and then all objects are as they were. -/
theorem wp_amend_status (hstatus : change.OfStatus) (hs : c.stored? k key = some stored)
    (hplace : stored.IsAt key) (attempts : Nat)
    (hkept : ∀ now a c', c'.tables = c.tables → (change now stored.settled).2 = false →
      post (.ok a) c')
    (hrefused : ∀ e c', c'.tables = c.tables → post (.error e) c')
    (hput : ∀ now a c' o', c.SameBut k key c' → c'.stored? k key = some o' →
      o'.status = (change now stored.settled).1.status → post (.ok a) c') :
    (amend .status k key attempts change).wp (.onCluster v) post c := by
  refine wp_amend_owned (Meaning.owns_onCluster v .status k key) hstatus.proper hplace attempts hs
    rfl (fun now lost e' _ hfalse _ _ he' => hkept now _ e' (he' ▸ rfl) hfalse)
    (fun now e' _ _ _ he' => ?_) fun _ e' _ _ _ he' => hrefused _ e' (he' ▸ rfl)
  refine he' ▸ hput now _ _ (change.result .status c stored now) (fun j home hne => ?_) ?_ rfl
  · exact Cluster.sameBut_putBack _ .status key _ j home hne
  · rw [Cluster.stored?_putBack_self]
    exact if_neg (by simp)

end Change

end ModelKeeper

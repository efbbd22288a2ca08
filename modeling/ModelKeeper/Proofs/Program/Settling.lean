import ModelKeeper.Proofs.World.Undisturbed

/-!
# Programs that are run again and again

A program rests in a cluster if it leaves the cluster as it is and always has the same result
(`Program.Rests`).  It settles within some runs if after these and one more it rests, with the
result that the last of them had (`Program.Settles`); what this means for the actual runs is
`Program.again_of_settles`.

A program that only looks at objects other than one has one result in all clusters that differ in
this one object alone (`Program.Looks`); the rules below say which programs are of this sort.
-/

namespace ModelKeeper

/-- Whether the answers of the vendors to a request depend on the request alone. -/
structure Vendors.Steady {σ : Type} (v : Vendors σ) : Prop where
  validate : ∀ c options, ∃ answer, ∀ s, (v.validate c options s).1 = answer
  call : ∀ c payload, ∃ answer, ∀ s, (v.call c payload s).1 = answer

/-- Vendors without a state have nothing else to depend on. -/
theorem Vendors.steady_unit (v : Vendors Unit) : v.Steady :=
  ⟨fun c options => ⟨(v.validate c options ()).1, fun _ => rfl⟩,
    fun c payload => ⟨(v.call c payload ()).1, fun _ => rfl⟩⟩

namespace Program

variable {σ τ α β : Type}

/-- Whether the program has the result `a` in a cluster and leaves the cluster as it is. -/
def Rests (v : Vendors σ) (p : Program α) (c : Cluster) (a : α) : Prop :=
  p.wp (.onCluster v) (fun b c' => b = a ∧ c' = c) c

/-- Whether the program, after `n` runs and one more, rests with the result that it had then. -/
def Settles (v : Vendors σ) (p : Program α) : Nat → Cluster → Prop
  | 0, c => p.wp (.onCluster v) (fun a c' => p.Rests v c' a) c
  | n + 1, c => p.wp (.onCluster v) (fun _ c' => p.Settles v n c') c

variable {v : Vendors σ} {p : Program α} {c : Cluster} {a : α}

theorem Rests.settles (h : p.Rests v c a) : p.Settles v 0 c :=
  wp_mono (Meaning.onCluster_monotone v) (fun _ _ ⟨hb, hc⟩ => by rw [hb, hc]; exact h) p h

theorem Settles.succ {n : Nat} (h : p.Settles v n c) : p.Settles v (n + 1) c := by
  induction n generalizing c with
  | zero => exact wp_mono (Meaning.onCluster_monotone v) (fun _ _ hrests => hrests.settles) p h
  | succ n ih => exact wp_mono (Meaning.onCluster_monotone v) (fun _ _ => ih) p h

theorem Rests.map (h : p.Rests v c a) (f : α → β) :
    (p.bind (fun a => .done (f a))).Rests v c (f a) := by
  unfold Rests
  rw [wp_bind]
  exact wp_mono (Meaning.onCluster_monotone v) (fun _ _ ⟨hb, hc⟩ => ⟨congrArg f hb, hc⟩) p h

theorem Settles.map {n : Nat} (h : p.Settles v n c) (f : α → β) :
    (p.bind (fun a => .done (f a))).Settles v n c := by
  induction n generalizing c with
  | zero =>
    unfold Settles
    rw [wp_bind]
    exact wp_mono (Meaning.onCluster_monotone v) (fun _ _ hrests => hrests.map f) p h
  | succ n ih =>
    unfold Settles
    rw [wp_bind]
    exact wp_mono (Meaning.onCluster_monotone v) (fun _ _ => ih) p h

/-! ### Actual runs -/

/-- The state after `n` runs. -/
def again (h : Handler τ) (p : Program α) : Nat → τ → τ
  | 0, s => s
  | n + 1, s => p.again h n (p.run h s).2

variable {h : Handler τ} {cluster : τ → Cluster}

/-- A program that rests goes on resting. -/
theorem again_of_rests (hserves : h.Serves v cluster) (n : Nat) {s : τ}
    (hrests : p.Rests v (cluster s) a) :
    cluster (p.again h n s) = cluster s ∧ (p.run h (p.again h n s)).1 = a := by
  have hrun : (p.run h s).1 = a ∧ cluster (p.run h s).2 = cluster s :=
    run_of_wp hserves p hrests
  induction n generalizing s with
  | zero => exact ⟨rfl, hrun.1⟩
  | succ n ih =>
    have hrests' : p.Rests v (cluster (p.run h s).2) a := hrun.2 ▸ hrests
    obtain ⟨hcluster, hresult⟩ := ih hrests' (run_of_wp hserves p hrests')
    exact ⟨hcluster.trans hrun.2, hresult⟩

/-- What settling means: from the run after the `n`-th on, the cluster stays the same and so does
the result. -/
theorem again_of_settles (hserves : h.Serves v cluster) {n : Nat} {s : τ}
    (hsettles : p.Settles v n (cluster s)) {m : Nat} (hm : n + 1 ≤ m) :
    cluster (p.again h (m + 1) s) = cluster (p.again h m s) ∧
      (p.run h (p.again h m s)).1 = (p.run h (p.again h n s)).1 := by
  induction n generalizing s m with
  | zero =>
    -- after the first run the program rests, with the result that this run had
    obtain ⟨m, rfl⟩ : ∃ m', m = m' + 1 := ⟨m - 1, by omega⟩
    have hrests : p.Rests v (cluster (p.run h s).2) (p.run h s).1 := run_of_wp hserves p hsettles
    obtain ⟨hcluster, hresult⟩ := again_of_rests hserves m hrests
    exact ⟨(again_of_rests hserves (m + 1) hrests).1.trans hcluster.symm, hresult⟩
  | succ n ih =>
    obtain ⟨m, rfl⟩ : ∃ m', m = m' + 1 := ⟨m - 1, by omega⟩
    have hsettles : p.Settles v n (cluster (p.run h s).2) := run_of_wp hserves p hsettles
    exact ih hsettles (by omega)

/-! ### Looking at other objects -/

/-- Whether the program rests with one result in all clusters that are the same as `c` but for the
object under a key. -/
def Looks (v : Vendors σ) (k : Kind) (key : Key) (c : Cluster) (p : Program α) : Prop :=
  ∃ a, ∀ c', c.SameBut k key c' → p.Rests v c' a

variable {k : Kind} {key : Key}

theorem looks_done (a : α) : (done a).Looks v k key c := ⟨a, fun _ _ => ⟨rfl, rfl⟩⟩

theorem Looks.bind {f : α → Program β} (hp : p.Looks v k key c) (hf : ∀ a, (f a).Looks v k key c) :
    (p.bind f).Looks v k key c := by
  obtain ⟨a, ha⟩ := hp
  obtain ⟨b, hb⟩ := hf a
  refine ⟨b, fun c' hc' => ?_⟩
  unfold Rests
  rw [wp_bind]
  refine wp_mono (Meaning.onCluster_monotone v) ?_ p (ha c' hc')
  rintro a' c'' ⟨rfl, rfl⟩
  exact hb c'' hc'

theorem looks_get {j : Kind} {key' : Key} (hne : ¬ (j = k ∧ key' = key)) :
    (ask (.get j key')).Looks v k key c := by
  refine ⟨c.get j key', fun c' hc' => ⟨?_, rfl⟩⟩
  unfold Cluster.get
  rw [hc' j key' hne]

theorem looks_count (m : Metric) : (ask (.count m)).Looks v k key c := ⟨(), fun _ _ => ⟨rfl, rfl⟩⟩

theorem looks_connect (x : Connection) : (ask (.connect x)).Looks v k key c :=
  ⟨v.connect x, fun _ _ => ⟨rfl, rfl⟩⟩

theorem looks_validate (hv : v.Steady) (x : Connection) (options : List CallOption) :
    (ask (.validate x options)).Looks v k key c := by
  obtain ⟨answer, hanswer⟩ := hv.validate x options
  exact ⟨answer, fun _ _ s => ⟨hanswer s, rfl⟩⟩

theorem looks_call (hv : v.Steady) (x : Connection) (payload : List UInt8) :
    (ask (.call x payload)).Looks v k key c := by
  obtain ⟨answer, hanswer⟩ := hv.call x payload
  exact ⟨answer, fun _ _ s => ⟨hanswer s, rfl⟩⟩

end Program

namespace Attempt

variable {σ δ δ' α β : Type} {v : Vendors σ} {k : Kind} {key : Key} {c : Cluster}

/-- The same for a program that may fail. -/
def Looks (v : Vendors σ) (k : Kind) (key : Key) (c : Cluster) (p : Attempt δ α) : Prop :=
  p.outcome.Looks v k key c

theorem looks_pure (a : α) : (pure a : Attempt δ α).Looks v k key c := Program.looks_done _

theorem looks_throw (e : δ) : (throw e : Attempt δ α).Looks v k key c := Program.looks_done _

theorem Looks.bind {p : Attempt δ α} {f : α → Attempt δ β} (hp : p.Looks v k key c)
    (hf : ∀ a, (f a).Looks v k key c) : (p >>= f).Looks v k key c :=
  Program.Looks.bind hp fun r =>
    match r with
    | .ok a => hf a
    | .error _ => Program.looks_done _

theorem Looks.mapError {p : Attempt δ α} (hp : p.Looks v k key c) (f : δ → δ') :
    (p.mapError f).Looks v k key c :=
  Program.Looks.bind hp fun _ => Program.looks_done _

theorem looks_get {j : Kind} {key' : Key} (hne : ¬ (j = k ∧ key' = key)) :
    (Objects.get j key').Looks v k key c :=
  Program.looks_get hne

theorem looks_find? {j : Kind} {key' : Key} (hne : ¬ (j = k ∧ key' = key)) :
    (Objects.find? j key').Looks v k key c :=
  Program.Looks.bind (Program.looks_get hne) fun r =>
    match r with
    | .ok _ => Program.looks_done _
    | .error _ => Program.looks_done _

end Attempt

end ModelKeeper

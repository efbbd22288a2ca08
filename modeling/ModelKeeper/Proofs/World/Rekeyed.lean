import ModelKeeper.Pass.Basic
import ModelKeeper.Proofs.Chat.Blind
import ModelKeeper.Proofs.Cluster.Tables
import ModelKeeper.Proofs.Program.Accord
import ModelKeeper.Proofs.World.Undisturbed

/-!
# Worlds with other keys

Two secrets may be the same but for the bytes of the key that each of them holds
(`Object.SameButKey`), and two worlds may be the same but for their secrets and the state of the
vendors (`World.withSecrets`, `World.Rekeyed`).  Vendors are blind to some keys if their answers do
not tell these from each other (`Vendors.Blind`).

In two such worlds all requests have the same answers that are made neither of secrets nor of
vendors (`World.accord_open`).  Where a secret is read, the answers may differ in the key
(`World.accord_secret`), and requests to blind vendors that differ in nothing but the key have the
same answers again.
-/

namespace ModelKeeper

variable {σ α : Type} {keys : String → Prop}

/-! ### Secrets -/

/-- Whether bytes spell one of the keys. -/
def SpellsKey (keys : String → Prop) (bytes : List UInt8) : Prop :=
  bytes ≠ [] ∧ ∃ key, Utf8.decode? bytes = some key ∧ keys key

/-- Whether two secrets are the same, or the same but for the bytes under the entry of the key,
which spell a key in both. -/
inductive Object.SameButKey (keys : String → Prop) (o : Object .secret) : Object .secret → Prop
  | same : SameButKey keys o o
  | rekeyed {data data' : Dict (List UInt8)} {bytes bytes' : List UInt8} :
    o.spec.data = some data → data'.erase apiKeyEntry = data.erase apiKeyEntry →
    data.get? apiKeyEntry = some bytes → data'.get? apiKeyEntry = some bytes' →
    SpellsKey keys bytes → SpellsKey keys bytes' →
    SameButKey keys o { o with spec := { o.spec with data := some data' } }

/-- Whether two tables have the same secrets but for their keys. -/
def SameButKeys (keys : String → Prop) (secrets secrets' : Table .secret) : Prop :=
  ∀ place, Option.Rel (Object.SameButKey keys) (secrets.get? place) (secrets'.get? place)

theorem SameButKeys.refl (keys : String → Prop) (secrets : Table .secret) :
    SameButKeys keys secrets secrets := by
  intro place
  cases secrets.get? place with
  | none => exact .none
  | some o => exact .some .same

theorem SameButKeys.insert {secrets secrets' : Table .secret}
    (h : SameButKeys keys secrets secrets') (place : Key) {o o' : Object .secret}
    (ho : o.SameButKey keys o') :
    SameButKeys keys (secrets.insert place o) (secrets'.insert place o') := by
  intro other
  rw [SortedMap.get?_insert, SortedMap.get?_insert]
  split
  · exact .some ho
  · exact h other

theorem Object.apiKey_of_spells {o : Object .secret} {data : Dict (List UInt8)}
    {bytes : List UInt8} {key : String} (hdata : o.spec.data = some data)
    (hbytes : data.get? apiKeyEntry = some bytes) (hsome : bytes ≠ [])
    (hkey : Utf8.decode? bytes = some key) (name : String) : o.apiKey name = .ok key := by
  unfold apiKey
  rw [hdata, Option.bind_some, hbytes]
  cases bytes with
  | nil => exact absurd rfl hsome
  | cons b bs => simp only [hkey]

/-- Two secrets that differ in the key fail alike, or both give a key. -/
theorem Object.SameButKey.apiKey {o o' : Object .secret} (h : o.SameButKey keys o')
    (name : String) :
    (∃ e, o.apiKey name = .error e ∧ o'.apiKey name = .error e) ∨
      ∃ key key', o.apiKey name = .ok key ∧ o'.apiKey name = .ok key' ∧
        (key' = key ∨ keys key ∧ keys key') := by
  cases h with
  | same =>
    cases hkey : o.apiKey name with
    | error e => exact .inl ⟨e, rfl, rfl⟩
    | ok key => exact .inr ⟨key, key, rfl, rfl, .inl rfl⟩
  | rekeyed hdata _ hbytes hbytes' hspells hspells' =>
    obtain ⟨hsome, key, hkey, hin⟩ := hspells
    obtain ⟨hsome', key', hkey', hin'⟩ := hspells'
    exact .inr ⟨key, key', Object.apiKey_of_spells hdata hbytes hsome hkey name,
      Object.apiKey_of_spells rfl hbytes' hsome' hkey' name, .inr ⟨hin, hin'⟩⟩

/-! ### Worlds -/

/-- Whether a request is made neither of secrets nor of vendors. -/
def Request.IsOpen : Request → Prop
  | .get k _ | .create k _ | .update k _ | .updateStatus k _ | .delete k _ => k ≠ .secret
  | .now | .emit _ | .count _ => True
  | .connect _ | .validate _ _ | .call _ _ => False

namespace World

/-- The world with other secrets, and with vendors in another state. -/
def withSecrets (w : World σ) (secrets : Table .secret) (vendors : σ) : World σ :=
  { w with cluster := w.cluster.setTable .secret secrets, vendors }

theorem withSecrets_self (w : World σ) :
    w.withSecrets (w.cluster.tables .secret) w.vendors = w := by
  unfold withSecrets
  rw [Cluster.setTable_tables]

variable (v : Vendors σ) {r : Request} (hr : r.IsOpen) (w : World σ)
include hr

theorem answer_withSecrets (secrets : Table .secret) (vendors : σ) :
    answer v r (w.withSecrets secrets vendors) =
      ((answer v r w).1, (answer v r w).2.withSecrets secrets vendors) := by
  cases r with
  | get k key => exact congrArg (Prod.mk · _) (Cluster.get_setTable _ _ hr key)
  | create k o => exact congrArg (withCluster _) (Cluster.create_setTable _ _ hr o)
  | update k o => exact congrArg (withCluster _) (Cluster.update_setTable _ _ hr o)
  | updateStatus k o => exact congrArg (withCluster _) (Cluster.updateStatus_setTable _ _ hr o)
  | delete k key => exact congrArg (withCluster _) (Cluster.delete_setTable _ _ hr key w.clock)
  | now | emit | count => rfl
  | connect | validate | call => exact hr.elim

/-- Secrets and vendors are not touched. -/
theorem untouched_answer :
    (answer v r w).2.cluster.tables .secret = w.cluster.tables .secret ∧
      (answer v r w).2.vendors = w.vendors := by
  -- a world with its own secrets and vendors is itself
  have hself := congrArg Prod.snd
    (answer_withSecrets v hr w (w.cluster.tables .secret) w.vendors)
  rw [withSecrets_self] at hself
  rw [hself]
  exact ⟨Cluster.tables_setTable_self _ _, rfl⟩

end World

/-- Whether two worlds, of which the first has the secrets `a` and the second the secrets `b`, are
the same otherwise, and there have been as many looks at the clock. -/
inductive World.Rekeyed (same : σ → σ → Prop) (a b : Table .secret) :
    World σ × Nat → World σ × Nat → Prop
  | intro {w : World σ} {vendors : σ} (looks : Nat) : w.cluster.tables .secret = a →
    same w.vendors vendors → Rekeyed same a b (w, looks) (w.withSecrets b vendors, looks)

namespace World

variable {v : Vendors σ} {clock : Nat → Instant} {same : σ → σ → Prop} {a b : Table .secret}

theorem accord_open {r : Request} (hr : r.IsOpen) :
    (Program.ask r).Accord (ticking v clock) (Rekeyed same a b) (Program.ask r) := by
  rintro _ _ @⟨w, vendors, looks, ha, hsame⟩
  by_cases hnow : r = .now
  · -- both clocks have been looked at once more
    subst hnow
    exact ⟨rfl, .intro (looks + 1) ha hsame⟩
  · have hticking : ∀ w : World σ, (ticking v clock).answer r (w, looks) =
        ((answer v r w).1, ((answer v r w).2, looks)) := by
      intro w
      cases r with
      | now => exact absurd rfl hnow
      | _ => rfl
    obtain ⟨hsecrets, hvendors⟩ := untouched_answer v hr w
    show ((ticking v clock).answer r (w.withSecrets b vendors, looks)).1 =
        ((ticking v clock).answer r (w, looks)).1 ∧
      Rekeyed same a b ((ticking v clock).answer r (w, looks)).2
        ((ticking v clock).answer r (w.withSecrets b vendors, looks)).2
    rw [hticking, hticking, answer_withSecrets v hr]
    exact ⟨rfl, .intro looks (hsecrets.trans ha) (hvendors ▸ hsame)⟩

/-- The answer to a request for a secret may differ in the key. -/
theorem accord_secret (hsecrets : SameButKeys keys a b) {place : Key}
    {f g : Except AccessError (Object .secret) → Program α}
    (herror : ∀ e, (f (.error e)).Accord (ticking v clock) (Rekeyed same a b) (g (.error e)))
    (hok : ∀ o o', o.SameButKey keys o' →
      (f (.ok o)).Accord (ticking v clock) (Rekeyed same a b) (g (.ok o'))) :
    ((Program.ask (.get .secret place)).bind f).Accord (ticking v clock) (Rekeyed same a b)
      ((Program.ask (.get .secret place)).bind g) := by
  intro s t hst
  have hfound : Option.Rel (Object.SameButKey keys) (s.1.cluster.stored? .secret place)
      (t.1.cluster.stored? .secret place) := by
    obtain ⟨looks, rfl, -⟩ := hst
    unfold withSecrets Cluster.stored?
    rw [Cluster.tables_setTable_self]
    exact hsecrets place
  -- the runs go on with the two answers, in the same states
  have hnext : (f (s.1.cluster.get .secret place)).Accord (ticking v clock) (Rekeyed same a b)
      (g (t.1.cluster.get .secret place)) := by
    unfold Cluster.get
    generalize s.1.cluster.stored? .secret place = found at hfound ⊢
    generalize t.1.cluster.stored? .secret place = found' at hfound ⊢
    cases hfound with
    | none => exact herror _
    | some hsame => exact hok _ _ hsame
  exact hnext s t hst

section

variable (hv : v.Blind keys same) {c c' : Connection} (hc : c.SameButKey keys c')
include hv hc

theorem accord_connect :
    (Program.ask (.connect c)).Accord (ticking v clock) (Rekeyed same a b)
      (Program.ask (.connect c')) := by
  rintro _ _ ⟨looks, ha, hsame⟩
  exact ⟨hv.connect c c' hc, .intro looks ha hsame⟩

theorem accord_validate (options : List CallOption) :
    (Program.ask (.validate c options)).Accord (ticking v clock) (Rekeyed same a b)
      (Program.ask (.validate c' options)) := by
  rintro _ _ ⟨looks, ha, hsame⟩
  obtain ⟨hanswer, hlater⟩ := hv.validate c c' options _ _ hc hsame
  exact ⟨hanswer, .intro looks ha hlater⟩

theorem accord_call (payload : List UInt8) :
    (Program.ask (.call c payload)).Accord (ticking v clock) (Rekeyed same a b)
      (Program.ask (.call c' payload)) := by
  rintro _ _ ⟨looks, ha, hsame⟩
  obtain ⟨hanswer, hlater⟩ := hv.call c c' payload _ _ hc hsame
  exact ⟨hanswer, .intro looks ha hlater⟩

end

end World

end ModelKeeper

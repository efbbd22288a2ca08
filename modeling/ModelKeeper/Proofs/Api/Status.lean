import ModelKeeper.Proofs.Cluster.Objects
import ModelKeeper.Proofs.Resource.Overlay
import ModelKeeper.Proofs.World.Undisturbed
import ModelKeeper.World.Session

/-!
# Writing a status through an API server

An API server is asked to merge a status into the one that it has, while a cluster replaces the one
by the other.  `Api.MergesStatus` says what is relied on: the server merges as it is asked to if the
version of the changes is that of the object, and refuses otherwise.

Then the object on the server has the new status laid over the old one.  This is what is stored in a
cluster if, and only if, the new status leaves out nothing that the old one has
(`Session.status_laid_over`).
-/

namespace ModelKeeper

/-! ### Places -/

namespace Target

/-- Whether a text stands for itself in a path: it has characters that are allowed there only, and
none that ends the path. -/
def Plain (s : String) : Prop :=
  ∀ c ∈ s.toList, allows ['<', '>', '\x60'] c ∧ c ≠ '#' ∧ c ≠ '?'

instance (s : String) : Decidable (Plain s) := List.decidableBAll _ s.toList

theorem Plain.append {s t : String} (hs : Plain s) (ht : Plain t) : Plain (s ++ t) := by
  intro c hc
  rw [String.toList_append, List.mem_append] at hc
  exact hc.elim (hs c) (ht c)

theorem ofText?_plain {s : String} (h : Plain s) : ofText? (s ++ "?") = some ⟨s, none⟩ := by
  have hpath : ∀ c ∈ s.toList, (c != '?') = true := fun c hc => by simpa using (h c hc).2.2
  -- the text has neither mark, so it ends at the one that was added
  have hhash : (s ++ "?").toList.takeWhile (· != '#') = s.toList ++ ['?'] := by
    rw [String.toList_append, List.takeWhile_append_of_pos fun c hc => by
      simpa using (h c hc).2.1]
    simp
  have htake : (s.toList ++ ['?']).takeWhile (· != '?') = s.toList := by
    rw [List.takeWhile_append_of_pos hpath]
    simp
  have hdrop : (s.toList ++ ['?']).dropWhile (· != '?') = ['?'] := by
    rw [List.dropWhile_append_of_pos hpath]
    simp
  have hall : s.toList.all (allows ['<', '>', '\x60']) :=
    List.all_eq_true.2 fun c hc => (h c hc).1
  simp only [ofText?, hhash, htake, hdrop, hall]
  simp

end Target

/-- Whether the names of a key stand for themselves in a path. -/
structure Key.Plain (key : Key) : Prop where
  name_ne : key.name ≠ ""
  ns : Target.Plain key.ns
  name : Target.Plain key.name

instance (key : Key) : Decidable key.Plain :=
  decidable_of_iff (key.name ≠ "" ∧ Target.Plain key.ns ∧ Target.Plain key.name)
    ⟨fun ⟨hne, hns, hname⟩ => ⟨hne, hns, hname⟩, fun h => ⟨h.name_ne, h.ns, h.name⟩⟩

theorem Kind.plain_objectPath (k : Kind) {key : Key} (h : key.Plain) :
    Target.Plain (k.objectPath key) := by
  have hgroup : Target.Plain k.groupPath := by cases k <;> decide
  have hplural : Target.Plain k.plural := by cases k <;> decide
  have hmiddle : Target.Plain "/namespaces/" := by decide
  have hslash : Target.Plain "/" := by decide
  have hcollection : Target.Plain (k.collectionPath key.ns) :=
    (((hgroup.append hmiddle).append h.ns).append hslash).append hplural
  exact (hcollection.append hslash).append h.name

/-! ### Objects as JSON -/

namespace Api

/-- The version that an object carries, or a change of one. -/
def version? (v : Json) : Option String :=
  match (v.get? "metadata").bind (·.get? "resourceVersion") with
  | some (.str s) => some s
  | _ => none

/-- Whether an object has this status: all that is written of it and nothing else, in whatever
order. -/
def ShowsStatus {k : Kind} (v : Json) (status : Option k.Status) : Prop :=
  Json.sameIfAny (status.map k.statusJson) (v.get? "status")

end Api

namespace Object

variable {k : Kind}

theorem get?_status_toJson (o : Object k) : o.toJson.get? "status" = o.status.map k.statusJson := by
  obtain ⟨metadata, spec, status⟩ := o
  -- the status stands behind the specification, which may be missing
  cases k with
  | llm | model | prompt | worker => cases status <;> rfl
  | claim | service | statefulSet => cases status <;> cases spec <;> rfl
  | configMap =>
    obtain ⟨data⟩ := spec
    cases status with
    | some s => nomatch s
    | none => cases data <;> rfl
  | secret =>
    obtain ⟨data, stringData, type⟩ := spec
    cases status with
    | some s => nomatch s
    | none => cases data <;> cases stringData <;> cases type <;> rfl

/-- An object shows its own status. -/
theorem showsStatus_toJson (o : Object k) : Api.ShowsStatus o.toJson o.status := by
  rw [Api.ShowsStatus, o.get?_status_toJson]
  cases o.status with
  | none => trivial
  | some s => exact Kind.statusJson_self s

/-- An object carries its own version. -/
theorem version?_toJson (o : Object k) : Api.version? o.toJson = o.metadata.version := by
  have hmetadata : o.toJson.get? "metadata" = some (Metadata.codec.write o.metadata) := by
    cases k <;> rfl
  have hversion : (Metadata.codec.write o.metadata).get? "resourceVersion" =
      o.metadata.version.map .str := by
    simp only [Metadata.codec, Codec.lenient, Json.get?, Fields.member?_cons, Field.optional]
    cases o.metadata.version <;> rfl
  unfold Api.version?
  rw [hmetadata, Option.bind_some, hversion]
  cases o.metadata.version <;> rfl

end Object

/-! ### The server -/

namespace Api

/-- The request to make these changes in the status of an object. -/
def statusChange (k : Kind) (key : Key) (patch : Json) : ApiRequest :=
  ⟨.patch, ⟨k.objectPath key ++ "/status", none⟩, some (.mergePatch, patch)⟩

/-- What is relied on when a status is written; `object?` tells the objects on the server. -/
structure MergesStatus {σ : Type} (exchange : Exchange σ)
    (object? : σ → Kind → Key → Option Json) : Prop where
  /-- Objects have names that stand for themselves in a path. -/
  plain : ∀ s k key v, object? s k key = some v → key.Plain
  /-- Changes of a status that carry the version of the object are merged into it. -/
  merges : ∀ s k key v patch version, object? s k key = some v → version? v = some version →
    version? patch = some version →
    ∃ v', object? (exchange (statusChange k key patch) s).2 k key = some v' ∧
      v'.get? "status" = (v.merge patch).get? "status"
  /-- Changes that carry another version are not made. -/
  refuses : ∀ s k key v patch version, object? s k key = some v → version? v ≠ some version →
    version? patch = some version →
    object? (exchange (statusChange k key patch) s).2 k key = some v

variable {k : Kind}

theorem request_updateStatus {key : Key} (h : key.Plain) (o : Object k) :
    (updateStatus key o).request = some (statusChange k key (statusPatch o)) := by
  have hplain : Target.Plain (k.objectPath key ++ "/status") :=
    (k.plain_objectPath h).append (by decide)
  simp only [updateStatus, atObject, if_neg h.name_ne, change, Target.ofText?_plain hplain,
    Option.map_some, statusChange]

theorem version?_statusPatch (o : Object k) : version? (statusPatch o) = o.metadata.version := by
  unfold statusPatch
  cases o.metadata.version <;> rfl

/-- The server after a call is as its request has left it. -/
theorem run_server {σ α : Type} (exchange : Exchange σ) {c : Call α} {r : ApiRequest}
    (h : c.request = some r) (s : σ) : (c.run exchange s).2 = (exchange r s).2 := by
  simp only [Call.run, h]
  cases exchange r s with
  | mk answer s' => cases answer <;> rfl

/-- What the changes make of the status of a value. -/
theorem get?_merge_statusPatch (v : Json) (o : Object k) :
    (v.merge (statusPatch o)).get? "status" =
      Json.mergedMember (v.get? "status") (some ((o.status.map k.statusJson).getD .null)) := by
  rw [← o.get?_status_toJson]
  exact Json.get?_merge (by simp) v "status"

/-- If the new status is what is there then nothing of the old one is left. -/
theorem ShowsStatus.eq_of_overlay {v : Json} {old new : Option k.Status}
    (h : ShowsStatus v (k.overlay? old new)) (hnew : ShowsStatus v new) :
    k.overlay? old new = new := by
  cases new with
  | none => rfl
  | some t => exact congrArg some ((Kind.mergesTo_overlay old t).eq_new _ h hnew)

/-- The new status lies over the old one when the changes have been made. -/
theorem ShowsStatus.merge {v v' : Json} {old : Option k.Status} (h : ShowsStatus v old)
    (o : Object k) (hmerged : v'.get? "status" = (v.merge (statusPatch o)).get? "status") :
    ShowsStatus v' (k.overlay? old o.status) := by
  rw [get?_merge_statusPatch] at hmerged
  rw [ShowsStatus, hmerged]
  cases o.status with
  | none => trivial
  | some t =>
    refine (Kind.mergesTo_overlay old t).shows _ ?_
    rwa [ShowsStatus, Option.map_eq_bind] at h

end Api

/-! ### Sessions and clusters -/

namespace Session

variable {σ τ : Type} {exchange : Api.Exchange σ} {object? : σ → Kind → Key → Option Json}
  {k : Kind} {o : Object k} {key : Key} {version : String} {s : Session σ τ} {there : Json}

/-- The one request that is made when the status of an object is written. -/
theorem server_updateStatus (hplain : key.Plain) (hplace : o.IsAt key) (v : Vendors τ) :
    ((Objects.updateStatus o).outcome.run (handler exchange v) s).2.server =
      (exchange (Api.statusChange k key (Api.statusPatch o)) s.server).2 := by
  have hrun : ((Objects.updateStatus o).outcome.run (handler exchange v) s).2 =
      (s.aboutOwn exchange o (fun key => Api.updateStatus key o)).2 := rfl
  rw [hrun, aboutOwn, hplace.requireKey]
  exact Api.run_server exchange (Api.request_updateStatus hplain o) s.server

/-- A status that is written with the version of the object comes to lie over the old one. -/
theorem showsStatus_updateStatus (hserver : Api.MergesStatus exchange object?)
    (hplace : o.IsAt key) (hversion : o.metadata.version = some version)
    (hthere : object? s.server k key = some there) (hcarries : Api.version? there = some version)
    {old : Option k.Status} (hshows : Api.ShowsStatus there old) (v : Vendors τ) :
    ∃ there', object? ((Objects.updateStatus o).outcome.run (handler exchange v) s).2.server k key =
        some there' ∧
      Api.ShowsStatus there' (k.overlay? old o.status) := by
  have hpatch := (Api.version?_statusPatch o).trans hversion
  obtain ⟨there', hthere', hmerged⟩ :=
    hserver.merges s.server k key there _ version hthere hcarries hpatch
  rw [server_updateStatus (hserver.plain _ _ _ _ hthere) hplace v]
  exact ⟨there', hthere', hshows.merge o hmerged⟩

/-- A status that is written with another version changes nothing. -/
theorem object?_updateStatus_stale (hserver : Api.MergesStatus exchange object?)
    (hplace : o.IsAt key) (hversion : o.metadata.version = some version)
    (hthere : object? s.server k key = some there) (hstale : Api.version? there ≠ some version)
    (v : Vendors τ) :
    object? ((Objects.updateStatus o).outcome.run (handler exchange v) s).2.server k key =
      some there := by
  have hpatch := (Api.version?_statusPatch o).trans hversion
  rw [server_updateStatus (hserver.plain _ _ _ _ hthere) hplace v]
  exact hserver.refuses s.server k key there _ version hthere hstale hpatch

end Session

/-- In a cluster, a status that is written with the version of the object takes the place of the old
one. -/
theorem World.status_updateStatus {υ : Type} {k : Kind} {o stored : Object k} {key : Key}
    {w : World υ} (hplace : o.IsAt key) (hstored : w.cluster.stored? k key = some stored)
    (hversion : o.metadata.version = stored.metadata.version)
    (hinjected : w.cluster.injectedConflicts = 0) (u : Vendors υ) :
    ∃ stored', ((Objects.updateStatus o).outcome.run (handler u) w).2.cluster.stored? k key =
        some stored' ∧
      stored'.status = o.status := by
  have hrun : ((Objects.updateStatus o).outcome.run (handler u) w).2.cluster =
      (Half.status.put w.cluster o).2 := rfl
  have hput : Half.status.put w.cluster o = _ :=
    Half.put_fresh hplace hstored hinjected (.inr hversion)
  refine ⟨Half.status.replaced stored o w.cluster.nextVersion.versionText, ?_, rfl⟩
  rw [hrun, hput, Cluster.stored?_putBack_self]
  rfl

/-- What becomes of a status that is written with the version of the object, on a server and in a
cluster.  In the cluster it is stored as it is.  On the server it lies over the old one: a field
that it leaves out stays, and so does an entry of a map.  The two agree if, and only if, it leaves
out nothing that the old one has.  Language models, models and workers have statuses that leave
nothing out. -/
theorem Session.status_laid_over {σ τ υ : Type} {exchange : Api.Exchange σ}
    {object? : σ → Kind → Key → Option Json} (hserver : Api.MergesStatus exchange object?)
    {k : Kind} {o stored : Object k} {key : Key} {version : String} (hplace : o.IsAt key)
    (hversion : o.metadata.version = some version)
    (v : Vendors τ) {s : Session σ τ} {there : Json} (hthere : object? s.server k key = some there)
    (hcarries : Api.version? there = some version) (hshows : Api.ShowsStatus there stored.status)
    (u : Vendors υ) {w : World υ} (hstored : w.cluster.stored? k key = some stored)
    (hsame : stored.metadata.version = some version)
    (hinjected : w.cluster.injectedConflicts = 0) :
    ∃ there' stored',
      object? ((Objects.updateStatus o).outcome.run (handler exchange v) s).2.server k key =
        some there' ∧
      ((Objects.updateStatus o).outcome.run (World.handler u) w).2.cluster.stored? k key =
        some stored' ∧
      stored'.status = o.status ∧
      Api.ShowsStatus there' (k.overlay? stored.status o.status) ∧
      (Api.ShowsStatus there' stored'.status ↔ k.overlay? stored.status o.status = o.status) ∧
      (k.leavesOut = false → Api.ShowsStatus there' stored'.status) := by
  obtain ⟨there', hthere', hshows'⟩ :=
    showsStatus_updateStatus hserver hplace hversion hthere hcarries hshows v
  obtain ⟨stored', hstored', hstatus⟩ :=
    World.status_updateStatus hplace hstored (hversion.trans hsame.symm) hinjected u
  have hagree : Api.ShowsStatus there' o.status ↔ k.overlay? stored.status o.status = o.status :=
    ⟨fun h => hshows'.eq_of_overlay h, fun h => h ▸ hshows'⟩
  exact ⟨there', stored', hthere', hstored', hstatus, hshows', hstatus ▸ hagree,
    fun hwhole => hstatus ▸ hagree.2 (Kind.overlay?_of_leavesOut hwhole _ _)⟩

/-! ### A server that merges -/

/-- A server that keeps objects under their paths, and has given out this many versions. -/
structure Api.Shelf where
  objects : List (String × Json)
  version : Nat

namespace Api.Shelf

/-- The object with this name. -/
def object? (s : Shelf) (k : Kind) (key : Key) : Option Json :=
  if key.Plain then Json.member? (k.objectPath key) s.objects else none

/-- The object whose status is at a path, with its own path. -/
def owner? (s : Shelf) (path : String) : Option (String × Json) :=
  s.objects.find? (fun e => e.1 ++ "/status" = path)

/-- A reply that refuses a request. -/
def refuse (code : Nat) (reason : String) : ApiReply :=
  ⟨code, Utf8.ofString (Refusal.codec.write ⟨"Failure", "", reason, code⟩).text⟩

/-- The object with the changes made and a new version. -/
def changed (s : Shelf) (v patch : Json) : Json :=
  (v.merge patch).merge
    (.obj [("metadata", .obj [("resourceVersion", .str (toString (s.version + 1)))])])

/-- One exchange.  Nothing but the changes of a status is answered. -/
def exchange : Exchange Shelf := fun r s =>
  match r.method, r.body with
  | .patch, some (.mergePatch, patch) =>
    match s.owner? r.target.path with
    | none => (some (refuse 404 "NotFound"), s)
    | some (path, v) =>
      if version? patch = none ∨ version? patch = version? v then
        (some ⟨200, Utf8.ofString (s.changed v patch).text⟩,
          ⟨Json.putMember path (s.changed v patch) s.objects, s.version + 1⟩)
      else (some (refuse 409 "Conflict"), s)
  | _, _ => (some (refuse 405 "MethodNotAllowed"), s)

theorem owner?_status (s : Shelf) (path : String) :
    s.owner? (path ++ "/status") = (Json.member? path s.objects).map (fun v => (path, v)) := by
  obtain ⟨objects, version⟩ := s
  induction objects with
  | nil => rfl
  | cons e rest ih =>
    obtain ⟨n, v⟩ := e
    by_cases hn : n = path
    · subst hn
      simp [owner?, Json.member?]
    · unfold owner? at ih ⊢
      rw [List.find?_cons_of_neg (by simpa using hn), ih, Json.member?, if_neg hn]

theorem get?_changed (s : Shelf) (v patch : Json) :
    (s.changed v patch).get? "status" = (v.merge patch).get? "status" := by
  rw [changed, Json.get?_merge (by simp)]
  rfl

/-- What the server does with the changes of a status. -/
theorem exchange_statusChange {s : Shelf} {k : Kind} {key : Key} {v : Json}
    (hv : s.object? k key = some v) (patch : Json) :
    (exchange (statusChange k key patch) s).2 =
      if version? patch = none ∨ version? patch = version? v then
        ⟨Json.putMember (k.objectPath key) (s.changed v patch) s.objects, s.version + 1⟩
      else s := by
  obtain ⟨-, hv⟩ := Option.ite_none_right_eq_some.1 hv
  have howner := s.owner?_status (k.objectPath key)
  rw [hv, Option.map_some] at howner
  simp only [exchange, statusChange, howner]
  split <;> rfl

theorem mergesStatus : MergesStatus exchange object? where
  plain s k key v hv := (Option.ite_none_right_eq_some.1 hv).1
  merges s k key v patch version hv hversion hpatch := by
    rw [exchange_statusChange hv, if_pos (.inr (hpatch.trans hversion.symm))]
    refine ⟨s.changed v patch, ?_, s.get?_changed v patch⟩
    have hplain : key.Plain := (Option.ite_none_right_eq_some.1 hv).1
    rw [object?, if_pos hplain, Json.member?_putMember, if_pos rfl]
  refuses s k key v patch version hv hversion hpatch := by
    rw [exchange_statusChange hv, if_neg]
    · exact hv
    · rw [hpatch]
      exact fun h => h.elim nofun fun h => hversion h.symm

end Api.Shelf

/-- A prompt that has been answered. -/
def answeredPrompt : Object .prompt where
  metadata :=
    { name := some "p", ns := some "default", version := some "1", uid := some "u",
      generation := some 1 }
  spec := {}
  status := some { data := some "YQ==" }

/-- The answer to a prompt is to be forgotten.  So it is in a cluster; but the server keeps it. -/
theorem Session.status_laid_over_answered :
    let key : Key := ⟨"default", "p"⟩
    let o : Object .prompt := { answeredPrompt with status := some {} }
    let s : Session Api.Shelf Unit :=
      { server := ⟨[(Kind.prompt.objectPath key, answeredPrompt.toJson)], 1⟩, vendors := () }
    let w : World Unit :=
      { cluster := Cluster.empty.nextVersion.store key answeredPrompt, vendors := () }
    ∃ there' stored',
      (((Objects.updateStatus o).outcome.run (handler Api.Shelf.exchange .unreachable)
        s).2.server.object? .prompt key = some there' ∧
      ((Objects.updateStatus o).outcome.run (World.handler .unreachable) w).2.cluster.stored?
        .prompt key = some stored') ∧
      stored'.status = some {} ∧
      (there'.get? "status").bind (·.get? "data") = some (.str "YQ==") ∧
      ¬ Api.ShowsStatus there' stored'.status := by
  intro key o s w
  have hplain : key.Plain := by decide
  have hthere : s.server.object? .prompt key = some answeredPrompt.toJson := by
    rw [Api.Shelf.object?, if_pos hplain, Json.member?, if_pos rfl]
  obtain ⟨there', stored', hthere', hstored', hstatus, hshows, hagree, -⟩ :=
    status_laid_over Api.Shelf.mergesStatus (o := o) ⟨rfl, rfl⟩ rfl .unreachable hthere
      answeredPrompt.version?_toJson answeredPrompt.showsStatus_toJson .unreachable
      (w := w) (Cluster.stored?_store_self _ _ _) rfl rfl
  refine ⟨there', stored', ⟨hthere', hstored'⟩, hstatus, ?_, fun h => ?_⟩
  · obtain ⟨status, hget, hsame⟩ := Json.sameIfAny_some_iff.1 hshows
    obtain ⟨members, rfl, -, hmembers⟩ := (Json.same_obj_iff (by decide)).1 hsame
    obtain ⟨data, hdata, htext⟩ := Json.sameIfAny_some_iff.1 (hmembers "data")
    rw [hget]
    refine hdata.trans ?_
    cases data with
    | str s => rw [← eq_of_beq htext]
    | _ => cases htext
  · exact absurd (hagree.1 h) (by decide)

end ModelKeeper

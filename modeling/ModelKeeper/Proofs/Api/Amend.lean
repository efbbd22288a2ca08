import ModelKeeper.Proofs.Api.Rounds

/-!
# Amending an object through an API server

`Api.amendment_is_conditional` says that all that an amendment says to an API server is a dialogue
(`Api.Dialogue`).  This is so for all servers, whatever they reply, as long as they show an object
under its own key and with a version.

An attempt is one round of the dialogue (`Api.wp_attempt_noted`), and the rest is by induction on
the attempts that are left.
-/

namespace ModelKeeper

/-! ### Sessions -/

namespace Session

variable {σ τ : Type}

/-- The session as a place where programs run, with a clock that shows another time at every look.
-/
def ticking (exchange : Api.Exchange σ) (v : Vendors τ) (clock : Nat → Instant) :
    Handler (Session σ τ × Nat) where
  answer
    | .now, (w, looks) => (clock looks, (w, looks + 1))
    | r, (w, looks) => ((answer exchange v r w).1, ((answer exchange v r w).2, looks))

/-- The session after a request to a server that writes its exchanges down. -/
def told (exchange : Api.Exchange σ) (w : Session (σ × Api.Log) τ) (r : ApiRequest) :
    Session (σ × Api.Log) τ :=
  { w with
    server := ((exchange r w.server.1).2, w.server.2 ++ [(r, (exchange r w.server.1).1)]) }

theorem about_noted {α : Type} (exchange : Api.Exchange σ) (w : Session (σ × Api.Log) τ) (k : Kind)
    (key : Key) {c : Api.Call α} {r : ApiRequest} (h : c.request = some r) :
    w.about (Api.noted exchange) k key c =
      ((Api.heard c.read (exchange r w.server.1).1).mapError (·.about k key),
        w.told exchange r) := by
  unfold about told Api.noted Api.Call.run
  rw [h]
  simp only
  cases (exchange r w.server.1).1 <;> rfl

end Session

/-- Whether a change leaves alone where an object is stored, and its version. -/
structure Change.KeepsPlace {k : Kind} (change : Change k) : Prop where
  ns : ∀ now o, (change now o).1.metadata.ns = o.metadata.ns
  name : ∀ now o, (change now o).1.metadata.name = o.metadata.name
  version : ∀ now o, (change now o).1.metadata.version = o.metadata.version

/-- All changes that the operator makes are of this sort. -/
theorem Change.Proper.keepsPlace {k : Kind} {change : Change k} (h : change.Proper) :
    change.KeepsPlace where
  ns now o := by
    obtain ⟨labels, annotations, finalizers, hmeta⟩ := h now o
    rw [hmeta]
  name now o := by
    obtain ⟨labels, annotations, finalizers, hmeta⟩ := h now o
    rw [hmeta]
  version now o := h.version now o

theorem Change.KeepsPlace.isAt {k : Kind} {change : Change k} (h : change.KeepsPlace) {key : Key}
    {o : Object k} (hplace : o.IsAt key) (now : Instant) : (change now o).1.IsAt key :=
  ⟨(h.ns now o).trans hplace.ns, (h.name now o).trans hplace.name⟩

namespace Api

variable {σ τ : Type} {exchange : Exchange σ} {v : Vendors τ} {clock : Nat → Instant} {half : Half}
  {k : Kind} {key : Key} {change : Change k} {request : ApiRequest}

/-- What is relied on: an object that is shown at a look is the one that was asked for, and it has a
version. -/
def ShowsVersions (exchange : Exchange σ) (k : Kind) (key : Key) : Prop :=
  ∀ request, (get k key).request = some request → ∀ s o,
    heard (readObject k) (exchange request s).1 = .ok o →
      o.IsAt key ∧ ∃ version, o.metadata.version = some version

theorem look_get (hlook : (get k key).request = some request) :
    request.method = .get ∧ request.body = none := by
  unfold get atObject at hlook
  simp only at hlook
  split at hlook
  · cases hlook
  · obtain ⟨target, -, rfl⟩ := Option.map_eq_some_iff.1 hlook
    exact ⟨rfl, rfl⟩

theorem meaning_look (hlook : (get k key).request = some request)
    (post : Except AccessError (Object k) → Session (σ × Log) τ × Nat → Prop)
    (s : Session (σ × Log) τ × Nat) :
    (Session.ticking (noted exchange) v clock).meaning (.get k key) post s =
      post ((heard (readObject k) (exchange request s.1.server.1).1).mapError (·.about k key))
        (s.1.told exchange request, s.2) := by
  have hanswer := Session.about_noted exchange s.1 k key hlook
  exact congrArg
    (fun a : Except AccessError (Object k) × Session (σ × Log) τ => post a.1 (a.2, s.2)) hanswer

theorem meaning_time (post : Instant → Session (σ × Log) τ × Nat → Prop)
    (s : Session (σ × Log) τ × Nat) :
    (Session.ticking (noted exchange) v clock).meaning .now post s =
      post (clock s.2) (s.1, s.2 + 1) := rfl

theorem wp_write_noted {o : Object k} (hplace : o.IsAt key)
    (hwrite : (half.call key o).request = some request)
    (post : Except AccessError (Object k) → Session (σ × Log) τ × Nat → Prop)
    (s : Session (σ × Log) τ × Nat) :
    (half.write o).outcome.wp (Session.ticking (noted exchange) v clock).meaning post s =
      post ((heard (readObject k) (exchange request s.1.server.1).1).mapError (·.about k key))
        (s.1.told exchange request, s.2) := by
  have hanswer := Session.about_noted exchange s.1 k key hwrite
  rw [half.read_call] at hanswer
  -- the object says itself where it is, and this is the place that was asked for
  have hown : ∀ c : Key → Call (Object k),
      s.1.aboutOwn (noted exchange) o c = s.1.about (noted exchange) k key (c key) := by
    intro c
    unfold Session.aboutOwn
    rw [hplace.requireKey]
  have hpost : (half.write o).outcome.wp (Session.ticking (noted exchange) v clock).meaning post s =
      post (s.1.aboutOwn (noted exchange) o fun key => half.call key o).1
        ((s.1.aboutOwn (noted exchange) o fun key => half.call key o).2, s.2) := by
    cases half <;> rfl
  rw [hpost, hown, hanswer]

section Attempt

variable {post : Except AccessError (Object k) → Session (σ × Log) τ × Nat → Prop}
  {onConflict : AccessError → Program (Except AccessError (Object k))}

variable (s : Session (σ × Log) τ × Nat)
  (hend : ∀ (r : Round k) log s', r.Regular half key change (clock s.2) → ¬ r.Conflicts →
    log.map (Prod.map some id) = r.log half key → s'.1.server.2 = s.1.server.2 ++ log →
    post (r.result key change (clock s.2)) s')
  (hconflict : ∀ (r : Round k) log s' err, r.Regular half key change (clock s.2) → r.Conflicts →
    log.map (Prod.map some id) = r.log half key → s'.1.server.2 = s.1.server.2 ++ log →
    s'.2 = s.2 + 1 → r.result key change (clock s.2) = .error err →
    (onConflict err).wp (Session.ticking (noted exchange) v clock).meaning post s')
include hend hconflict

/-- After a write the round is complete, and its reply says whether there is another one. -/
theorem wp_reply_noted {look reply : Option ApiReply} {o : Object k} {log : Log}
    {s' : Session (σ × Log) τ × Nat}
    (hregular : (⟨look, some (o, reply)⟩ : Round k).Regular half key change (clock s.2))
    (hlog : log.map (Prod.map some id) = (⟨look, some (o, reply)⟩ : Round k).log half key)
    (hwrote : s'.1.server.2 = s.1.server.2 ++ log) (hlooks : s'.2 = s.2 + 1) :
    amend.unlessConflict post
      (fun err => (onConflict err).wp (Session.ticking (noted exchange) v clock).meaning post)
      ((heard (readObject k) reply).mapError (·.about k key)) s' := by
  have hresult : (⟨look, some (o, reply)⟩ : Round k).result key change (clock s.2) =
      (heard (readObject k) reply).mapError (·.about k key) := rfl
  have hconflicts := Round.conflicts_iff key look o reply
  -- an object in the reply ends the loop, and so does any refusal but a conflict
  cases hheard : heard (readObject k) reply with
  | ok written =>
    have hquiet : ¬ (⟨look, some (o, reply)⟩ : Round k).Conflicts := by
      simp [hconflicts, hheard]
    have hpost := hend _ _ s' hregular hquiet hlog hwrote
    rwa [hresult, hheard] at hpost
  | error e =>
    rw [hheard] at hresult
    simp only [hheard, Except.error.injEq, exists_eq_left'] at hconflicts
    simp only [Attempt.mapError_error, amend.unlessConflict]
    split
    · next h => exact hconflict _ _ s' _ hregular (hconflicts.2 h) hlog hwrote hlooks hresult
    · next h =>
      have hpost := hend _ _ s' hregular (fun hc => h (hconflicts.1 hc)) hlog hwrote
      rwa [hresult] at hpost

/-- What an attempt to amend an object says to the server is one round. -/
theorem wp_attempt_noted (hchange : change.KeepsPlace) (hserver : ShowsVersions exchange k key)
    (hlook : (get k key).request = some request) :
    (amend.attempt half k key change onConflict).wp
      (Session.ticking (noted exchange) v clock).meaning post s := by
  rw [amend.wp_attempt, meaning_look hlook]
  generalize hreply : (exchange request s.1.server.1).1 = look
  have hshown := hserver request hlook s.1.server.1
  rw [hreply] at hshown
  have hlooked : (s.1.told exchange request).server.2 = s.1.server.2 ++ [(request, look)] := by
    simp [Session.told, hreply]
  have hidle : [(request, look)].map (Prod.map some id) =
      (⟨look, none⟩ : Round k).log half key := by simp [Round.log, hlook]
  -- what the look has found decides whether there is a write
  cases hfound : heard (readObject k) look with
  | error e =>
    have hpost := hend ⟨look, none⟩ _ (s.1.told exchange request, s.2)
      (Round.regular_unseen hfound) (Round.not_conflicts_idle look) hidle hlooked
    simpa [Round.result, Round.found, hfound, Attempt.mapError_error, Except.map] using hpost
  | ok o =>
    obtain ⟨hplace, version, hversion⟩ := hshown o hfound
    simp only [Attempt.mapError_ok, Attempt.unlessFailed_ok, meaning_time]
    split
    · next hflag =>
      obtain ⟨target, hwrite⟩ :=
        half.request_call (by rw [hlook]; rfl) (change (clock s.2) o).1
      rw [wp_write_noted (hchange.isAt hplace _) hwrite]
      -- the version that was read goes into the write, which makes it conditional
      have hsame : (change (clock s.2) o).1.metadata.version = some version :=
        (hchange.version _ o).trans hversion
      generalize hwritten : (change (clock s.2) o).1 = o' at hwrite hsame
      generalize hanswer : (exchange _ (s.1.told exchange request).server.1).1 = reply
      have hregular : (⟨look, some (o', reply)⟩ : Round k).Regular half key change (clock s.2) :=
        Round.regular_changed hfound hflag hwritten hwrite hversion hsame
      have hlog : [(request, look), (⟨half.method, target, some (half.content o')⟩, reply)].map
          (Prod.map some id) = (⟨look, some (o', reply)⟩ : Round k).log half key := by
        simp [Round.log, hlook, hwrite]
      have hwrote : ((s.1.told exchange request).told exchange
          ⟨half.method, target, some (half.content o')⟩).server.2 = s.1.server.2 ++
            [(request, look), (⟨half.method, target, some (half.content o')⟩, reply)] := by
        rw [Session.told, hlooked, hanswer, List.append_assoc]
        rfl
      exact wp_reply_noted s hend hconflict hregular hlog hwrote rfl
    · next hflag =>
      have hpost := hend ⟨look, none⟩ _ (s.1.told exchange request, s.2 + 1)
        (Round.regular_unchanged hfound (by simpa using hflag)) (Round.not_conflicts_idle look)
        hidle hlooked
      simpa [Round.result, Round.found, hfound, Attempt.mapError_ok, Except.map] using hpost

end Attempt

/-- All that an amendment says to the server is a dialogue. -/
theorem wp_go_noted (hchange : change.KeepsPlace) (hserver : ShowsVersions exchange k key)
    (hlook : (get k key).request = some request) (retries : Nat)
    (s : Session (σ × Log) τ × Nat) :
    (amend.go half k key change retries).wp (Session.ticking (noted exchange) v clock).meaning
      (fun result s' => ∃ log rounds, s'.1.server.2 = s.1.server.2 ++ log ∧
        Dialogue half key (retries + 1) change (fun j => clock (s.2 + j)) log rounds result) s := by
  induction retries generalizing s with
  | zero =>
    refine wp_attempt_noted s ?_ ?_ hchange hserver hlook
    · intro r log s' hr hquiet hlog hs'
      exact ⟨log, [r], hs', .single hr (fun hc => absurd hc hquiet) hlog⟩
    · intro r log s' err hr hc hlog hs' _ hresult
      have hend : Dialogue half key (0 + 1) change (fun j => clock (s.2 + j)) log [r]
          (r.result key change (clock s.2)) := .single hr (fun _ => rfl) hlog
      rw [hresult] at hend
      exact ⟨log, [r], hs', hend⟩
  | succ retries ih =>
    refine wp_attempt_noted s ?_ ?_ hchange hserver hlook
    · intro r log s' hr hquiet hlog hs'
      exact ⟨log, [r], hs', .single hr (fun hc => absurd hc hquiet) hlog⟩
    · intro r log s' err hr hc hlog hs' hlooks _
      refine Program.wp_mono (Handler.meaning_monotone _) ?_ _ (ih s')
      -- the later rounds make a dialogue of their own, which begins at the next look
      rintro result s'' ⟨log', rounds, hs'', hrest⟩
      refine ⟨log ++ log', r :: rounds, by rw [hs'', hs', List.append_assoc],
        .cons hr hc hlog ?_⟩
      rw [hlooks] at hrest
      simpa only [Nat.add_assoc, Nat.add_comm 1] using hrest

/-- If the place of the object cannot be told then nothing is said to the server. -/
theorem run_unplaced (hnone : (get k key).request = none) (attempts : Nat)
    (s : Session (σ × Log) τ × Nat) :
    (amend half k key attempts change).outcome.run (Session.ticking (noted exchange) v clock) s =
      (.error (.api .unanswered), s) := by
  have hanswer : (Session.ticking (noted exchange) v clock).answer (.get k key) s =
      (.error (.api .unanswered), s) := by
    have habout : s.1.about (noted exchange) k key (get k key) =
        (.error (.api .unanswered), s.1) := by
      unfold Session.about Call.run
      rw [hnone]
      rfl
    exact congrArg (fun a : Except AccessError (Object k) × Session (σ × Log) τ =>
      (a.1, (a.2, s.2))) habout
  -- without a place nothing is sent, so every attempt fails with its read
  have hattempt : ∀ onConflict : AccessError → Program (Except AccessError (Object k)),
      (amend.attempt half k key change onConflict).run
        (Session.ticking (noted exchange) v clock) s = (.error (.api .unanswered), s) := by
    intro onConflict
    refine (Program.run_bind _ (.ask (.get k key)) _ s).trans ?_
    simp only [Program.ask, Program.run, hanswer]
    rfl
  have hgo : ∀ retries, (amend.go half k key change retries).run
      (Session.ticking (noted exchange) v clock) s = (.error (.api .unanswered), s) := by
    intro retries
    cases retries with
    | zero => exact hattempt _
    | succ retries => exact hattempt _
  exact hgo (attempts - 1)

/-- Every write of an amendment is conditional, and there are as many as attempts at most.  Let an
object be amended through an API server that may reply whatever it likes, as long as it shows the
object under its own key and with a version.  Let the change be any that leaves the key and the
version alone; as the clock may show any times, it may be another one at every look.

Then what is said to the server is a dialogue in rounds.  It begins with a look, and looks and
writes alternate; a write carries exactly the version that was seen at the look before it; nothing
is written if there is no change; another round follows if and only if the write was refused because
of another writer and attempts are left; and the result is that of the last round. -/
theorem amendment_is_conditional (exchange : Exchange σ) (v : Vendors τ) (clock : Nat → Instant)
    (half : Half) {k : Kind} (key : Key) (attempts : Nat) {change : Change k}
    (hchange : change.KeepsPlace) (hserver : ShowsVersions exchange k key)
    (s : Session (σ × Log) τ) (looks : Nat) :
    let p := (amend half k key attempts change).outcome.run
      (Session.ticking (noted exchange) v clock) (s, looks)
    ((get k key).request = none → p = (.error (.api .unanswered), s, looks)) ∧
      ∀ request, (get k key).request = some request →
        request.method = .get ∧ request.body = none ∧
        ∃ log rounds, p.2.1.server.2 = s.server.2 ++ log ∧
          Dialogue half key (max attempts 1) change (fun j => clock (looks + j)) log rounds
            p.1 := by
  intro p
  refine ⟨fun hnone => run_unplaced hnone attempts (s, looks), fun request hlook => ?_⟩
  obtain ⟨hmethod, hbody⟩ := look_get hlook
  have hgo : (amend.go half k key change (attempts - 1)).wp
      (Session.ticking (noted exchange) v clock).meaning _ (s, looks) :=
    wp_go_noted hchange hserver hlook (attempts - 1) (s, looks)
  have hbudget : attempts - 1 + 1 = max attempts 1 := by omega
  rw [Program.wp_meaning, hbudget] at hgo
  exact ⟨hmethod, hbody, hgo⟩

/-- A config map as a server shows it. -/
def shownMap : Object .configMap where
  metadata := { name := some "m", ns := some "default", version := some "7" }
  spec := {}

/-- A server that shows the config map and accepts every write but the first one. -/
def contended : Exchange Nat := fun r writes =>
  match r.method, writes with
  | .get, writes => (some ⟨200, Utf8.ofString shownMap.toJson.text⟩, writes)
  | _, 0 =>
    let refusal : Refusal := ⟨"Failure", "another writer", "Conflict", 409⟩
    (some ⟨409, Utf8.ofString (Refusal.codec.write refusal).text⟩, 1)
  | _, writes => (some ⟨200, Utf8.ofString shownMap.toJson.text⟩, writes + 1)

/-- Adds a finalizer. -/
def guarding : Change .configMap := fun _ => Object.addFinalizer "guard"

/-- A write is refused, and the second one is accepted. -/
theorem amendment_is_conditional_contended :
    let key : Key := ⟨"default", "m"⟩
    let s : Session (Nat × Log) Unit := { server := (0, []), vendors := () }
    guarding.KeepsPlace ∧ ShowsVersions contended .configMap key ∧
      (∃ request, (get .configMap key).request = some request) ∧
      ∃ log rounds,
        ((amend .body .configMap key 3 guarding).outcome.run
          (Session.ticking (noted contended) .unreachable fun _ => ⟨0, 0⟩)
          (s, 0)).2.1.server.2 = log ∧
        log.length = 4 ∧
        Dialogue .body key 3 guarding (fun _ => ⟨0, 0⟩) log rounds
          ((amend .body .configMap key 3 guarding).outcome.run
            (Session.ticking (noted contended) .unreachable fun _ => ⟨0, 0⟩) (s, 0)).1 := by
  intro key s
  have hchange : guarding.KeepsPlace :=
    (Object.addFinalizer_ofFinalizers .configMap "guard").proper.keepsPlace
  have hshown : heard (readObject .configMap) (some ⟨200, Utf8.ofString shownMap.toJson.text⟩) =
      .ok shownMap := by decide +kernel
  have hserver : ShowsVersions contended .configMap key := by
    intro request hlook writes o ho
    have hreply : (contended request writes).1 =
        some ⟨200, Utf8.ofString shownMap.toJson.text⟩ := by
      unfold contended
      rw [(look_get hlook).1]
    rw [hreply, hshown] at ho
    obtain rfl := Except.ok.inj ho
    exact ⟨⟨rfl, rfl⟩, "7", rfl⟩
  have hplace : ((get .configMap key).request).isSome = true := by decide +kernel
  obtain ⟨request, hlook⟩ := Option.isSome_iff_exists.1 hplace
  obtain ⟨-, -, log, rounds, hlog, hdialogue⟩ :=
    (amendment_is_conditional contended .unreachable (fun _ => ⟨0, 0⟩) .body key 3 hchange hserver s
      0).2 request hlook
  have hlength : ((amend .body .configMap key 3 guarding).outcome.run
      (Session.ticking (noted contended) .unreachable fun _ => ⟨0, 0⟩)
      (s, 0)).2.1.server.2.length = 4 := by decide +kernel
  rw [hlog] at hlength
  exact ⟨hchange, hserver, ⟨request, hlook⟩, log, rounds, hlog, hlength, hdialogue⟩

end Api

end ModelKeeper

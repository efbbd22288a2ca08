import ModelKeeper.Proofs.Api.Status

/-!
# Rounds of an amendment through an API server

An amendment talks to the API server in rounds: a `Round` begins with a look at the object, and then
the object is written unless there is nothing to write.  `Api.Dialogue` says what the rounds of an
amendment are like.  Every write tells the server which version of the object has been looked at
(`Half.version?_content`), so that the server can refuse it if the object is another one by then;
such a refusal, and nothing else, leads to another round.
-/

namespace ModelKeeper

/-! ### Places -/

namespace Target

/-- Whether these characters can be read as a path and a query. -/
def fine (cs : List Char) : Bool :=
  (cs.takeWhile (· != '?')).all (allows ['<', '>', '\x60']) &&
    ((cs.dropWhile (· != '?')).drop 1).all (allows ['<', '>', '"'])

theorem isSome_ofText? (s : String) :
    (ofText? s).isSome = fine (s.toList.takeWhile (· != '#')) := by
  unfold ofText? fine
  simp only
  split <;> simp_all

theorem fine_append {cs ds : List Char} (h : fine cs = true)
    (hds : ∀ c ∈ ds, allows ['<', '>', '\x60'] c = true ∧ allows ['<', '>', '"'] c = true) :
    fine (cs ++ ds) = true := by
  induction cs with
  | nil =>
    have hpath : ∀ c ∈ ds.takeWhile (· != '?'), allows ['<', '>', '\x60'] c = true :=
      fun c hc => (hds c ((List.takeWhile_prefix _).mem hc)).1
    have hquery : ∀ c ∈ (ds.dropWhile (· != '?')).drop 1, allows ['<', '>', '"'] c = true :=
      fun c hc => (hds c ((List.dropWhile_suffix _).mem (List.mem_of_mem_drop hc))).2
    exact Bool.and_eq_true_iff.2 ⟨List.all_eq_true.2 hpath, List.all_eq_true.2 hquery⟩
  | cons c cs ih =>
    unfold fine at h ih ⊢
    by_cases hc : c = '?'
    · -- the query goes on to the end
      subst hc
      have hcs : ∀ d ∈ cs, allows ['<', '>', '"'] d = true := by simpa using h
      simpa using ⟨hcs, fun d hd => (hds d hd).2⟩
    · simp only [List.cons_append, List.takeWhile_cons, List.dropWhile_cons, bne_iff_ne, ne_eq, hc,
        not_false_eq_true, if_true, List.all_cons, Bool.and_assoc, Bool.and_eq_true] at h ih ⊢
      exact ⟨h.1, ih h.2⟩

/-- A place can be told with more at its end. -/
theorem isSome_ofText?_append {s t : String} (hs : (ofText? s).isSome = true)
    (ht : t.toList.all (fun c => allows ['<', '>', '\x60'] c && allows ['<', '>', '"'] c) = true) :
    (ofText? (s ++ t)).isSome = true := by
  have ht : ∀ c ∈ t.toList, allows ['<', '>', '\x60'] c = true ∧ allows ['<', '>', '"'] c = true :=
    fun c hc => Bool.and_eq_true_iff.1 (List.all_eq_true.1 ht c hc)
  rw [isSome_ofText?] at hs ⊢
  rw [String.toList_append, List.takeWhile_append]
  split
  · next hlength =>
    have hall : s.toList.takeWhile (· != '#') = s.toList :=
      (List.takeWhile_prefix _).eq_of_length hlength
    rw [hall] at hs
    exact fine_append hs fun c hc => ht c ((List.takeWhile_prefix _).mem hc)
  · exact hs

end Target

/-! ### The writes -/

namespace Half

variable {k : Kind}

/-- The call that writes half of an object. -/
def call (half : Half) (key : Key) (o : Object k) : Api.Call (Object k) :=
  match half with
  | .body => Api.update key o
  | .status => Api.updateStatus key o

/-- How half of an object is written. -/
def method : Half → Method
  | .body => .put
  | .status => .patch

/-- What stands for half of an object. -/
def content (half : Half) (o : Object k) : ContentType × Json :=
  match half with
  | .body => (.json, o.toJson)
  | .status => (.mergePatch, Api.statusPatch o)

/-- What is written tells the version of the object. -/
theorem version?_content (half : Half) (o : Object k) :
    Api.version? (half.content o).2 = o.metadata.version := by
  cases half
  · exact o.version?_toJson
  · exact Api.version?_statusPatch o

theorem read_call (half : Half) (key : Key) (o : Object k) :
    (half.call key o).read = Api.readObject k := by
  cases half <;> rfl

/-- What can be looked at can be written. -/
theorem request_call (half : Half) {key : Key} (h : (Api.get k key).request.isSome = true)
    (o : Object k) :
    ∃ target, (half.call key o).request = some ⟨half.method, target, some (half.content o)⟩ := by
  have hname : key.name ≠ "" := by
    intro hname
    simp [Api.get, Api.atObject, hname] at h
  have hplace : (Target.ofText? (k.objectPath key)).isSome = true := by
    simpa [Api.get, Api.atObject, hname, Api.lookup] using h
  -- where the object can be asked for, there it can be written
  have hlonger := fun t ht => Option.isSome_iff_exists.1
    (Target.isSome_ofText?_append (t := t) hplace ht)
  cases half with
  | body =>
    obtain ⟨target, htarget⟩ := hlonger "?" (by decide +kernel)
    exact ⟨target, by simp [call, Api.update, Api.atObject, hname, Api.change, htarget, method,
      content]⟩
  | status =>
    obtain ⟨target, htarget⟩ := hlonger ("/status" ++ "?") (by decide +kernel)
    rw [← String.append_assoc] at htarget
    exact ⟨target, by simp [call, Api.updateStatus, Api.atObject, hname, Api.change, htarget,
      method, content]⟩

end Half

theorem ApiError.isConflict_about {k : Kind} {key : Key} {e : ApiError} :
    (e.about k key).isConflict = true ↔
      ∃ refusal, e = .refused refusal ∧ refusal.code = 409 ∧ refusal.reason ≠ "AlreadyExists" := by
  cases e with
  | unanswered => simp [about, AccessError.isConflict]
  | refused refusal =>
    unfold about
    simp only [refused.injEq, exists_eq_left']
    -- not found, then the two meanings of 409, then the rest
    split
    · next h => simp [AccessError.isConflict, h]
    · split
      · next h =>
        split
        · next hreason => simp [AccessError.isConflict, hreason]
        · next hreason => simp [AccessError.isConflict, h, hreason]
      · next h => simp [AccessError.isConflict, h]

namespace Api

/-! ### What is said -/

/-- Requests to a server with their replies, in order. -/
abbrev Log : Type := List (ApiRequest × Option ApiReply)

/-- What a reply means, if there is one. -/
def heard {α : Type} (read : List UInt8 → Option α) : Option ApiReply → Except ApiError α
  | none => .error .unanswered
  | some reply => reply.result read

/-- The same exchanges, written down. -/
def noted {σ : Type} (exchange : Exchange σ) : Exchange (σ × Log) := fun r s =>
  let (reply, server) := exchange r s.1
  (reply, (server, s.2 ++ [(r, reply)]))

/-- A round of an amendment: the reply to the look, and what was written, with the reply. -/
structure Round (k : Kind) where
  look : Option ApiReply
  write : Option (Object k × Option ApiReply)

namespace Round

variable {k : Kind}

/-- The requests of a round, with their replies. -/
def log (half : Half) (key : Key) (r : Round k) : List (Option ApiRequest × Option ApiReply) :=
  ((get k key).request, r.look) ::
    (r.write.map fun (o, reply) => ((half.call key o).request, reply)).toList

/-- The object that was shown at the look. -/
def found (r : Round k) : Except ApiError (Object k) := heard (readObject k) r.look

/-- What comes of a round, if this is the time at which the object is changed. -/
def result (key : Key) (change : Change k) (now : Instant) (r : Round k) :
    Except AccessError (Object k) :=
  match r.write with
  | some (_, reply) => (heard (readObject k) reply).mapError (·.about k key)
  | none => (r.found.map fun o => (change now o).1).mapError (·.about k key)

/-- Whether the server refused the write because of another writer. -/
def Conflicts (r : Round k) : Prop :=
  ∃ o reply refusal, r.write = some (o, reply) ∧
    heard (readObject k) reply = .error (.refused refusal) ∧
    refusal.code = 409 ∧ refusal.reason ≠ "AlreadyExists"

/-- What a round is like, if this is the time at which the object is changed. -/
structure Regular (half : Half) (key : Key) (change : Change k) (now : Instant) (r : Round k) :
    Prop where
  /-- If no object is shown then nothing is written. -/
  unseen : ∀ e, r.found = .error e → r.write = none
  /-- If there is no change then nothing is written. -/
  unchanged : ∀ o, r.found = .ok o → (change now o).2 = false → r.write = none
  /-- A change is written. -/
  changed : ∀ o, r.found = .ok o → (change now o).2 = true →
    ∃ reply, r.write = some ((change now o).1, reply)
  /-- What is written carries the version of the object that was looked at. -/
  conditional : ∀ o o' reply, r.found = .ok o → r.write = some (o', reply) →
    ∃ target version, (half.call key o').request =
        some ⟨half.method, target, some (half.content o')⟩ ∧
      o.metadata.version = some version ∧ version? (half.content o').2 = some version

/-! ### Rounds of each sort -/

variable {half : Half} {key : Key} {change : Change k} {now : Instant}
  {look reply : Option ApiReply} {o o' : Object k}

theorem not_conflicts_idle (look : Option ApiReply) : ¬ (⟨look, none⟩ : Round k).Conflicts := by
  rintro ⟨o, reply, refusal, hwrite, -⟩
  cases hwrite

theorem conflicts_iff (key : Key) (look : Option ApiReply) (o : Object k)
    (reply : Option ApiReply) :
    (⟨look, some (o, reply)⟩ : Round k).Conflicts ↔
      ∃ e, heard (readObject k) reply = .error e ∧ (e.about k key).isConflict = true := by
  constructor
  · rintro ⟨o', reply', refusal, hwrite, hheard, hcode, hreason⟩
    obtain ⟨-, rfl⟩ := Prod.mk.inj (Option.some.inj hwrite)
    exact ⟨_, hheard, ApiError.isConflict_about.2 ⟨refusal, rfl, hcode, hreason⟩⟩
  · rintro ⟨e, hheard, hconflict⟩
    obtain ⟨refusal, rfl, hcode, hreason⟩ := ApiError.isConflict_about.1 hconflict
    exact ⟨o, reply, refusal, rfl, hheard, hcode, hreason⟩

theorem regular_unseen {e : ApiError} (hfound : heard (readObject k) look = .error e) :
    (⟨look, none⟩ : Round k).Regular half key change now where
  unseen _ _ := rfl
  unchanged _ _ _ := rfl
  changed _ ho := by cases hfound.symm.trans ho
  conditional _ _ _ ho := by cases hfound.symm.trans ho

theorem regular_unchanged (hfound : heard (readObject k) look = .ok o)
    (hflag : (change now o).2 = false) :
    (⟨look, none⟩ : Round k).Regular half key change now where
  unseen _ _ := rfl
  unchanged _ _ _ := rfl
  changed o' ho hchanged := by
    obtain rfl := Except.ok.inj (hfound.symm.trans ho)
    cases hflag.symm.trans hchanged
  conditional _ _ _ _ hwrite := by cases hwrite

theorem regular_changed {target : Target} {version : String}
    (hfound : heard (readObject k) look = .ok o) (hflag : (change now o).2 = true)
    (hwritten : (change now o).1 = o')
    (hrequest : (half.call key o').request =
      some ⟨half.method, target, some (half.content o')⟩)
    (hversion : o.metadata.version = some version) (hsame : o'.metadata.version = some version) :
    (⟨look, some (o', reply)⟩ : Round k).Regular half key change now where
  unseen _ he := by cases hfound.symm.trans he
  unchanged o ho hunchanged := by
    obtain rfl := Except.ok.inj (hfound.symm.trans ho)
    cases hflag.symm.trans hunchanged
  changed o ho _ := by
    obtain rfl := Except.ok.inj (hfound.symm.trans ho)
    exact ⟨reply, by rw [hwritten]⟩
  conditional o written reply' ho hsome := by
    obtain rfl := Except.ok.inj (hfound.symm.trans ho)
    obtain ⟨rfl, -⟩ := Prod.mk.inj (Option.some.inj hsome)
    exact ⟨target, version, hrequest, hversion, by rw [half.version?_content, hsame]⟩

end Round

/-- What the rounds of an amendment are like, with their log and the result.  The `j`-th change is
made at the time `time j`. -/
structure Dialogue {k : Kind} (half : Half) (key : Key) (attempts : Nat) (change : Change k)
    (time : Nat → Instant) (log : Log) (rounds : List (Round k))
    (result : Except AccessError (Object k)) : Prop where
  log : log.map (Prod.map some id) = rounds.flatMap (·.log half key)
  regular : ∀ j (hj : j < rounds.length), rounds[j].Regular half key change (time j)
  /-- There is another round if the server refused the write because of another writer, and attempts
  are left. -/
  again : ∀ j (hj : j < rounds.length),
    j + 1 < rounds.length ↔ rounds[j].Conflicts ∧ j + 1 < attempts
  /-- The requests alternate: between two looks there is a write. -/
  alternates : ∀ r ∈ rounds.dropLast, r.write ≠ none
  last : ∃ hlast : rounds.length - 1 < rounds.length,
    result = rounds[rounds.length - 1].result key change (time (rounds.length - 1))

/-- A dialogue goes on after a round in which another writer was in the way. -/
theorem Dialogue.cons {k : Kind} {half : Half} {key : Key} {retries : Nat} {change : Change k}
    {time : Nat → Instant} {start log : Log} {r : Round k} {rounds : List (Round k)}
    {result : Except AccessError (Object k)} (hr : r.Regular half key change (time 0))
    (hconflicts : r.Conflicts) (hstart : start.map (Prod.map some id) = r.log half key)
    (h : Dialogue half key (retries + 1) change (fun j => time (j + 1)) log rounds result) :
    Dialogue half key (retries + 1 + 1) change time (start ++ log) (r :: rounds) result where
  log := by rw [List.map_append, hstart, h.log, List.flatMap_cons]
  regular
    | 0, _ => hr
    | j + 1, hj => h.regular j (Nat.lt_of_succ_lt_succ hj)
  again
    | 0, _ => by
      -- the rest has a round, so the first one is followed by another
      obtain ⟨hlast, -⟩ := h.last
      simp only [List.length_cons, List.getElem_cons_zero, hconflicts, true_and]
      omega
    | j + 1, hj => by
      have hagain := h.again j (Nat.lt_of_succ_lt_succ hj)
      exact Nat.add_lt_add_iff_right.trans
        (hagain.trans (and_congr_right' Nat.add_lt_add_iff_right.symm))
  alternates := by
    cases rounds with
    | nil => simp
    | cons r' rounds =>
      rw [List.dropLast_cons_cons]
      refine List.forall_mem_cons.2 ⟨fun hnone => ?_, h.alternates⟩
      obtain ⟨o, reply, refusal, hwrite, -⟩ := hconflicts
      cases hnone.symm.trans hwrite
  last := by
    obtain ⟨hlast, hresult⟩ := h.last
    refine ⟨by simp, ?_⟩
    cases rounds with
    | nil => cases hlast
    | cons r' rounds => exact hresult

/-- A dialogue of a single round. -/
theorem Dialogue.single {k : Kind} {half : Half} {key : Key} {retries : Nat} {change : Change k}
    {time : Nat → Instant} {log : Log} {r : Round k} (hr : r.Regular half key change (time 0))
    (hend : r.Conflicts → retries = 0) (hlog : log.map (Prod.map some id) = r.log half key) :
    Dialogue half key (retries + 1) change time log [r] (r.result key change (time 0)) where
  log := by rw [hlog, List.flatMap_singleton]
  regular
    | 0, _ => hr
  again
    | 0, _ => by
      simp only [List.length_singleton, List.getElem_cons_zero]
      constructor
      · omega
      · rintro ⟨hconflicts, hlt⟩
        have hretries := hend hconflicts
        omega
  alternates := by simp
  last := ⟨by simp, rfl⟩

end Api

end ModelKeeper

import ModelKeeper.Resource.Kind

/-!
# Objects

An `Object k` is an object of kind `k`: its metadata, what is wanted of it and what is the case with
it.  `Object.codec` is its form as JSON.

A store keeps objects in that form, in which a datum that is no number cannot be told from one that
is absent; `Object.settled` is the object as it comes back.
-/

namespace ModelKeeper

/-- An object of a kind. -/
structure Object (k : Kind) where
  metadata : Metadata
  /-- What is wanted. -/
  spec : k.Spec
  /-- What is the case. -/
  status : Option k.Status := none
  deriving DecidableEq

/-- Where an object is stored: its namespace and its name. -/
structure Key where
  ns : String
  name : String
  deriving DecidableEq, Repr

/-- Keys are ordered by namespace, then by name. -/
instance : Ord Key where
  compare := compareLex (compareOn Key.ns) (compareOn Key.name)

instance : Std.TransOrd Key :=
  inferInstanceAs (Std.TransCmp (compareLex (compareOn Key.ns) (compareOn Key.name)))

instance : Std.LawfulEqOrd Key where
  eq_of_compare {a b} h := by
    have h : (compare a.ns b.ns).then (compare a.name b.name) = .eq := h
    rw [Ordering.then_eq_eq] at h
    cases a
    cases b
    simp only [Key.mk.injEq]
    exact ⟨Std.LawfulEqOrd.eq_of_compare h.1, Std.LawfulEqOrd.eq_of_compare h.2⟩

/-! ### Codecs -/

namespace Codec

/-- A record as an object that says what it is. -/
def stamped {α : Type} (apiVersion kind : String) (c : Codec α) : Codec α where
  write a :=
    match c.write a with
    | .obj members => .obj (("apiVersion", .str apiVersion) :: ("kind", .str kind) :: members)
    | other => other
  read := c.read

/-- Whether every member with this name is this text. -/
def agrees (name text : String) : List (Option String × Draft) → Bool
  | [] => true
  | (some n, .text (some s)) :: rest => (n != name || s = text) && agrees name text rest
  | (some n, _) :: rest => n != name && agrees name text rest
  | (none, _) :: rest => agrees name text rest

/-- A record as an object that says what it is, and must not say anything else when it is read. -/
def checked {α : Type} (apiVersion kind : String) (c : Codec α) : Codec α where
  write := (stamped apiVersion kind c).write
  read d :=
    match d with
    | .object members _ =>
      if agrees "apiVersion" apiVersion members && agrees "kind" kind members then c.read d
      else .error (.mismatch (.invalidValue .map (apiVersion ++ " " ++ kind)))
    | d => c.read d

end Codec

/-- What is wanted as JSON, if objects of the kind have a member for it. -/
def Kind.specJson? : (k : Kind) → k.Spec → Option Json
  | .llm, s => some (LlmSpec.codec.write s)
  | .model, s => some (ModelSpec.codec.write s)
  | .prompt, s => some (PromptSpec.codec.write s)
  | .worker, s => some (WorkerSpec.codec.write s)
  | .configMap, _ => none
  | .secret, _ => none
  | .claim, s => s.map ClaimSpec.codec.write
  | .service, s => s.map ServiceSpec.codec.write
  | .statefulSet, s => s.map StatefulSetSpec.codec.write

namespace Object

variable {k : Kind}

/-- Objects of a kind of the operator's own: metadata and what is wanted have to be there. -/
def customCodec (k : Kind) (spec : Codec k.Spec) (status : Codec k.Status) : Codec (Object k) :=
  .stamped k.apiVersion k.name <|
    .record k.name
      (.cons (.required "metadata" Metadata.codec) <|
        .cons (.required "spec" spec) <|
        .cons (.optionalPart "status" status) .nil)
      (fun o => (o.metadata, o.spec, o.status, ()))
      (fun (metadata, spec, status, ()) => ⟨metadata, spec, status⟩)

/-- Objects of one of the cluster's own kinds: everything may be left out. -/
def builtinCodec (k : Kind) {τ : Type} (fs : Fields τ) (fields : Object k → τ)
    (make : Metadata → τ → Object k) : Codec (Object k) :=
  .checked k.apiVersion k.name <|
    .lenient k.name
      (.cons (.withDefault "metadata" Metadata.codec {}) fs)
      (fun o => (o.metadata, fields o))
      (fun (metadata, t) => make metadata t)

/-- Objects as JSON. -/
def codec : (k : Kind) → Codec (Object k)
  | .llm => customCodec .llm LlmSpec.codec LlmStatus.codec
  | .model => customCodec .model ModelSpec.codec ModelStatus.codec
  | .prompt => customCodec .prompt PromptSpec.codec PromptStatus.codec
  | .worker => customCodec .worker WorkerSpec.codec WorkerStatus.codec
  | .configMap =>
    builtinCodec .configMap
      (.cons (.optional "data" (.dict .string)) .nil)
      (fun o => (o.spec.data, ()))
      (fun m (data, ()) => ⟨m, { data }, none⟩)
  | .secret =>
    builtinCodec .secret
      (.cons (.optional "data" (.dict Base64.codec)) <|
        .cons (.optional "stringData" (.dict .string)) <|
        .cons (.optional "type" .string) .nil)
      (fun o => (o.spec.data, o.spec.stringData, o.spec.type, ()))
      (fun m (data, stringData, type, ()) => ⟨m, { data, stringData, type }, none⟩)
  | .claim =>
    builtinCodec .claim
      (.cons (.optional "spec" ClaimSpec.codec) <|
        .cons (.optional "status" ClaimStatus.codec) .nil)
      (fun o => (o.spec, o.status, ()))
      (fun m (spec, status, ()) => ⟨m, spec, status⟩)
  | .service =>
    builtinCodec .service
      (.cons (.optional "spec" ServiceSpec.codec) <|
        .cons (.optional "status" ServiceStatus.codec) .nil)
      (fun o => (o.spec, o.status, ()))
      (fun m (spec, status, ()) => ⟨m, spec, status⟩)
  | .statefulSet =>
    builtinCodec .statefulSet
      (.cons (.optional "spec" StatefulSetSpec.codec) <|
        .cons (.optional "status" StatefulSetStatus.codec) .nil)
      (fun o => (o.spec, o.status, ()))
      (fun m (spec, status, ()) => ⟨m, spec, status⟩)

/-- The object as JSON. -/
def toJson (o : Object k) : Json := (codec k).write o

/-- The object that a JSON value describes. -/
def ofJson? (k : Kind) (v : Json) : Option (Object k) := (codec k).ofJson? v

/-! ### Parts -/

/-- The namespace, or nothing. -/
def nsOrEmpty (o : Object k) : String := o.metadata.ns.getD ""

/-- The name, or nothing. -/
def nameOrEmpty (o : Object k) : String := o.metadata.name.getD ""

/-- The finalizers. -/
def finalizers (o : Object k) : List String := o.metadata.finalizers.getD []

/-- Whether the deletion of the object was requested. -/
def isDeleted (o : Object k) : Bool := o.metadata.deletion.isSome

/-- The object with this finalizer list. -/
def withFinalizers (o : Object k) (fs : List String) : Object k :=
  { o with metadata := { o.metadata with finalizers := some fs } }

/-- Whether the same is wanted of two objects, as far as JSON can tell. -/
def sameSpec (o p : Object k) : Bool :=
  match k.specJson? o.spec, k.specJson? p.spec with
  | none, none => true
  | some v, some w => v.same w
  | _, _ => false

end Object

/-- A datum unless it is infinite or no number. -/
def Single.finite? (x : Single) : Option Single := if x.isFinite then some x else none

/-- Parameters without the data that are no numbers. -/
def Params.settled (p : Params) : Params :=
  { p with
    temperature := p.temperature.bind Single.finite?
    topP := p.topP.bind Single.finite? }

/-- What is wanted, as it comes back from a store. -/
def Kind.settle : (k : Kind) → k.Spec → k.Spec
  | .prompt, s => ({ s with params := s.params.map Params.settled } : PromptSpec)
  | .llm, s | .model, s | .worker, s | .configMap, s | .secret, s | .claim, s | .service, s
  | .statefulSet, s => s

/-- An object as it comes back from a store. -/
def Object.settled {k : Kind} (o : Object k) : Object k := { o with spec := k.settle o.spec }

end ModelKeeper

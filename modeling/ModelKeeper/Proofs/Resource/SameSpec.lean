import ModelKeeper.Proofs.Json.Same
import ModelKeeper.Proofs.Number.Rounding
import ModelKeeper.Resource.Object

/-!
# When two objects want the same

The store compares what is wanted of two objects by its JSON form (`Object.sameSpec`), and counts a
generation more if it differs.  For language models and models this is equality
(`Object.sameSpec_llm`, `Object.sameSpec_model`).  For prompts it is equality up to the sign of
zeros, as long as all data are numbers (`Object.sameSpec_prompt`).
-/

namespace ModelKeeper

/-! ### Exact codecs -/

@[simp]
theorem LocalReference.codec_exact : LocalReference.codec.Exact :=
  Codec.exact_of_fields (fun _ => rfl) (by decide) (by simp) (by rintro ⟨⟩ ⟨⟩; simp)

@[simp]
theorem TypedReference.codec_exact : TypedReference.codec.Exact :=
  Codec.exact_of_fields (fun _ => rfl) (by decide) (by simp) (by rintro ⟨⟩ ⟨⟩; simp)

@[simp]
theorem Endpoint.codec_exact : Endpoint.codec.Exact :=
  Codec.exact_of_fields (fun _ => rfl) (by decide) (by simp) (by rintro ⟨⟩ ⟨⟩; simp)

theorem LlmSpec.codec_exact : LlmSpec.codec.Exact :=
  Codec.exact_of_fields (fun _ => rfl) (by decide)
    (by simp [ProviderSpec.endpointField, ProviderSpec.workerField])
    (by rintro ⟨_, ⟨⟩, _⟩ ⟨_, ⟨⟩, _⟩; simp [and_assoc])

@[simp]
theorem KeyReference.codec_exact : KeyReference.codec.Exact :=
  Codec.exact_of_fields (fun _ => rfl) (by decide) (by simp) (by rintro ⟨⟩ ⟨⟩; simp)

@[simp]
theorem SourceReference.codec_exact : SourceReference.codec.Exact :=
  Codec.exact_of_fields (fun _ => rfl) (by decide) (by simp) (by rintro ⟨⟩ ⟨⟩; simp)

@[simp]
theorem FieldReference.codec_exact : FieldReference.codec.Exact :=
  Codec.exact_of_fields (fun _ => rfl) (by decide) (by simp) (by rintro ⟨⟩ ⟨⟩; simp)

@[simp]
theorem Quantity.codec_exact : Quantity.codec.Exact := fun a b => by simp [codec, Json.same]

@[simp]
theorem ResourceReference.codec_exact : ResourceReference.codec.Exact :=
  Codec.exact_of_fields (fun _ => rfl) (by decide) (by simp) (by rintro ⟨⟩ ⟨⟩; simp)

@[simp]
theorem EnvVarSource.codec_exact : EnvVarSource.codec.Exact :=
  Codec.exact_of_fields (fun _ => rfl) (by decide) (by simp) (by rintro ⟨⟩ ⟨⟩; simp)

@[simp]
theorem EnvVar.codec_exact : EnvVar.codec.Exact :=
  Codec.exact_of_fields (fun _ => rfl) (by decide) (by simp) (by rintro ⟨⟩ ⟨⟩; simp)

@[simp]
theorem EnvFromSource.codec_exact : EnvFromSource.codec.Exact :=
  Codec.exact_of_fields (fun _ => rfl) (by decide) (by simp) (by rintro ⟨⟩ ⟨⟩; simp)

@[simp]
theorem NameReference.codec_exact : NameReference.codec.Exact :=
  Codec.exact_of_fields (fun _ => rfl) (by decide) (by simp) (by rintro ⟨⟩ ⟨⟩; simp)

@[simp]
theorem ResourceRequirements.codec_exact : ResourceRequirements.codec.Exact :=
  Codec.exact_of_fields (fun _ => rfl) (by decide) (by simp) (by rintro ⟨⟩ ⟨⟩; simp)

@[simp]
theorem ModelVolume.codec_exact : ModelVolume.codec.Exact :=
  Codec.exact_of_fields (fun _ => rfl) (by decide) (by simp) (by rintro ⟨⟩ ⟨⟩; simp)

theorem ModelSpec.codec_exact : ModelSpec.codec.Exact :=
  Codec.exact_of_fields (fun _ => rfl) (by decide) (by simp [Codec.int32])
    (by rintro ⟨⟩ ⟨⟩; simp)

@[simp]
theorem Role.codec_exact : Role.codec.Exact := fun a b => by
  cases a <;> cases b <;> decide

@[simp]
theorem Message.codec_exact : Message.codec.Exact :=
  Codec.exact_of_fields (fun _ => rfl) (by decide) (by simp) (by rintro ⟨⟩ ⟨⟩; simp)

/-! ### Parameters -/

/-- Whether all data of some parameters are numbers. -/
structure Params.IsFinite (p : Params) : Prop where
  temperature : ∀ x, p.temperature = some x → x.isFinite
  topP : ∀ x, p.topP = some x → x.isFinite

/-- Whether two data are equal as numbers, or both absent. -/
def Single.SameIfAny : Option Single → Option Single → Prop
  | none, none => True
  | some x, some y => x.toDouble.sameNumber y.toDouble
  | _, _ => False

theorem Params.same_iff {p q : Params} :
    p.same q ↔ p.method = q.method ∧ p.model = q.model ∧
      Single.SameIfAny p.temperature q.temperature ∧ Single.SameIfAny p.topP q.topP ∧
      p.conversation = q.conversation ∧ p.taskId = q.taskId ∧ p.incremental = q.incremental := by
  obtain ⟨method, model, temperature, topP, conversation, taskId, incremental⟩ := p
  obtain ⟨method', model', temperature', topP', conversation', taskId', incremental'⟩ := q
  cases temperature <;> cases temperature' <;> cases topP <;> cases topP' <;>
    simp [same, Single.SameIfAny, and_assoc]

theorem Single.same_written {x y : Option Single} (hx : ∀ z, x = some z → z.isFinite)
    (hy : ∀ z, y = some z → z.isFinite) (name : String) :
    Json.sameIfAny ((Field.optional name Codec.single).write x)
      ((Field.optional name Codec.single).write y) ↔ SameIfAny x y := by
  cases x <;> cases y <;>
    simp_all [Field.optional, Codec.single, Json.sameIfAny, SameIfAny, Json.same, Number.same,
      Number.datum?]

theorem Params.same_written {p q : Params} (hp : p.IsFinite) (hq : q.IsFinite) :
    (codec.write p).same (codec.write q) ↔ p.same q := by
  refine (Fields.same_members (by decide) _ _).trans ?_
  simp only [Fields.Agree, Single.same_written hp.temperature hq.temperature,
    Single.same_written hp.topP hq.topP, same_iff, and_true]
  rw [Field.exact_optional Codec.exact_string, Field.exact_unlessDefault Codec.exact_string,
    Field.exact_withDefault (Codec.exact_list Message.codec_exact),
    Field.exact_optional Codec.exact_string, Field.exact_unlessDefault Codec.exact_bool]

namespace Single.SameIfAny

theorem refl {x : Option Single} (h : ∀ z, x = some z → z.isFinite) : SameIfAny x x := by
  cases x with
  | none => trivial
  | some x => exact sameNumber_self (h x rfl)

theorem trans {x y z : Option Single} (hxy : SameIfAny x y) (hyz : SameIfAny y z) :
    SameIfAny x z := by
  cases x <;> cases y <;> cases z <;> try contradiction
  · trivial
  · exact Double.sameNumber_trans hxy hyz

end Single.SameIfAny

theorem Params.same_self {p : Params} (h : p.IsFinite) : p.same p :=
  same_iff.2 ⟨rfl, rfl, .refl h.temperature, .refl h.topP, rfl, rfl, rfl⟩

theorem Params.same_trans {p q r : Params} (hpq : p.same q) (hqr : q.same r) : p.same r := by
  rw [same_iff] at *
  obtain ⟨hmethod, hmodel, htemperature, htopP, hconversation, htask, hincremental⟩ := hpq
  obtain ⟨hmethod', hmodel', htemperature', htopP', hconversation', htask', hincremental'⟩ := hqr
  exact ⟨hmethod.trans hmethod', hmodel.trans hmodel', htemperature.trans htemperature',
    htopP.trans htopP', hconversation.trans hconversation', htask.trans htask',
    hincremental.trans hincremental'⟩

/-- Whether two lists of parameters are equal, or both left to the default. -/
def Params.SameIfAny : Option Params → Option Params → Prop
  | none, none => True
  | some p, some q => p.same q
  | _, _ => False

namespace Params.SameIfAny

theorem refl {p : Option Params} (h : ∀ q, p = some q → q.IsFinite) : SameIfAny p p := by
  cases p with
  | none => trivial
  | some p => exact same_self (h p rfl)

theorem trans {p q r : Option Params} (hpq : SameIfAny p q) (hqr : SameIfAny q r) :
    SameIfAny p r := by
  cases p <;> cases q <;> cases r <;> try contradiction
  · trivial
  · exact same_trans hpq hqr

end Params.SameIfAny

/-! ### Objects -/

namespace Object

/-- Whether all data of an object are numbers.  Only prompts have any. -/
def IsFinite : {k : Kind} → Object k → Prop
  | .prompt, o => ∀ p, o.spec.params = some p → p.IsFinite
  | _, _ => True

theorem settled_of_isFinite {k : Kind} {o : Object k} (h : o.IsFinite) : o.settled = o := by
  -- only a prompt has numbers that may be none
  cases k with
  | prompt =>
    obtain ⟨metadata, ⟨llm, params⟩, status⟩ := o
    have hparams : params.map Params.settled = params := by
      cases params with
      | none => rfl
      | some p =>
        obtain ⟨htemperature, htopP⟩ := h p rfl
        obtain ⟨method, model, temperature, topP, conversation, taskId, incremental⟩ := p
        cases temperature <;> cases topP <;>
          simp_all [Params.settled, Single.finite?]
    simp only [settled, Kind.settle, hparams]
  | _ => rfl

theorem sameSpec_llm (o p : Object .llm) : o.sameSpec p ↔ o.spec = p.spec :=
  LlmSpec.codec_exact o.spec p.spec

theorem sameSpec_model (o p : Object .model) : o.sameSpec p ↔ o.spec = p.spec :=
  ModelSpec.codec_exact o.spec p.spec

theorem sameSpec_prompt {o p : Object .prompt} (ho : o.IsFinite) (hp : p.IsFinite) :
    o.sameSpec p ↔ o.spec.llm = p.spec.llm ∧ Params.SameIfAny o.spec.params p.spec.params := by
  refine (Fields.same_members (by decide) _ _).trans ?_
  simp only [Fields.Agree, and_true]
  refine and_congr (Field.exact_optional TypedReference.codec_exact _ _ _) ?_
  cases hq : o.spec.params with
  | none => cases p.spec.params <;> simp [Field.optional, Json.sameIfAny, Params.SameIfAny]
  | some q =>
    cases hr : p.spec.params with
    | none => simp [Field.optional, Json.sameIfAny, Params.SameIfAny]
    | some r => exact Params.same_written (ho q hq) (hp r hr)

theorem sameSpec_prompt_self {o : Object .prompt} (h : o.IsFinite) : o.sameSpec o :=
  (sameSpec_prompt h h).2 ⟨rfl, .refl h⟩

end Object

end ModelKeeper

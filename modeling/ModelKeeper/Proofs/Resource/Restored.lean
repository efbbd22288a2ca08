import ModelKeeper.Proofs.Json.Sorted
import ModelKeeper.Proofs.Time.Timestamp
import ModelKeeper.Resource.Object

/-!
# Objects come back from JSON

The objects of the operator's own kinds are restored from what is written of them
(`Object.codec_restores`), record by record: a record comes back if all of its fields do.

Three sorts of data do not always come back, and an object without them is plain
(`Object.IsPlain`): integers with more bits than their type has, moments in years that four digits
do not tell, and floating-point data.
-/

namespace ModelKeeper

/-! ### Numbers and times -/

/-- Whether an integer has 32 bits. -/
def IsInt32 (n : Int) : Prop := -0x80000000 ≤ n ∧ n ≤ 0x7FFFFFFF

/-- Whether an integer has 64 bits. -/
def IsInt64 (n : Int) : Prop := -0x8000000000000000 ≤ n ∧ n ≤ 0x7FFFFFFFFFFFFFFF

instance (n : Int) : Decidable (IsInt64 n) := inferInstanceAs (Decidable (_ ∧ _))

theorem Codec.restores_int32 {n : Int} (h : IsInt32 n) : int32.Restores n :=
  restores_int h.1 h.2 _

theorem Codec.restores_int64 {n : Int} (h : IsInt64 n) : int64.Restores n :=
  restores_int h.1 h.2 _

theorem Stamp.codec_restores {t : Stamp} (h : t.instant.IsPlain) : Stamp.codec.Restores t where
  notNull := nofun
  read := by
    have hstamp : t.instant.stamp = t := by
      obtain ⟨t, hwhole⟩ := t
      simp only [Instant.stamp, hwhole]
    simp only [codec, Codec.imap, Instant.codec, Draft.ofJson, Instant.ofTimestamp?_timestamp h,
      Except.map, hstamp]

/-! ### Names -/

@[simp]
theorem ConditionType.codec_restores (t : ConditionType) : ConditionType.codec.Restores t := by
  cases t <;> exact ⟨nofun, rfl⟩

@[simp]
theorem ConditionStatus.codec_restores (s : ConditionStatus) :
    ConditionStatus.codec.Restores s := by
  cases s <;> exact ⟨nofun, rfl⟩

@[simp]
theorem Role.codec_restores (r : Role) : Role.codec.Restores r := by
  cases r <;> exact ⟨nofun, rfl⟩

/-! ### Parts of many records -/

@[simp]
theorem OwnerReference.codec_restores (o : OwnerReference) : OwnerReference.codec.Restores o :=
  Codec.restores_lenient (by decide) rfl (by simp) _

@[simp]
theorem LocalReference.codec_restores (r : LocalReference) : LocalReference.codec.Restores r :=
  Codec.restores_lenient (by decide) rfl (by simp) _

@[simp]
theorem TypedReference.codec_restores (r : TypedReference) : TypedReference.codec.Restores r :=
  Codec.restores_lenient (by decide) rfl (by simp) _

@[simp]
theorem Condition.codec_restores (c : Condition) : Condition.codec.Restores c :=
  Codec.restores_record (by decide) rfl (by simp) _

/-- A time that can be written, if there is one. -/
theorem Field.restores_stamp {t : Option Stamp} (h : ∀ x, t = some x → x.instant.IsPlain)
    (name : String) : (Field.optional name Stamp.codec).Restores t :=
  Field.restores_optional (fun x hx => Stamp.codec_restores (h x hx)) name

theorem ManagedFields.codec_restores {f : ManagedFields}
    (h : ∀ t, f.time = some t → t.instant.IsPlain) : ManagedFields.codec.Restores f :=
  Codec.restores_lenient (by decide) rfl (by simp [Field.restores_stamp h]) _

/-- Metadata whose times can be written and whose numbers have 64 bits. -/
structure Metadata.IsPlain (m : Metadata) : Prop where
  creation : ∀ t, m.creation = some t → t.instant.IsPlain
  deletion : ∀ t, m.deletion = some t → t.instant.IsPlain
  managed : ∀ fs, m.managed = some fs → ∀ f ∈ fs, ∀ t, f.time = some t → t.instant.IsPlain
  generation : ∀ n, m.generation = some n → IsInt64 n
  grace : ∀ n, m.grace = some n → IsInt64 n

theorem Metadata.codec_restores {m : Metadata} (h : m.IsPlain) : Metadata.codec.Restores m := by
  have hmanaged : ∀ fs, m.managed = some fs → (Codec.list ManagedFields.codec).Restores fs :=
    fun fs hfs => Codec.restores_list fun f hf =>
      ManagedFields.codec_restores (h.managed fs hfs f hf)
  have hgeneration : ∀ n, m.generation = some n → Codec.int64.Restores n :=
    fun n hn => Codec.restores_int64 (h.generation n hn)
  have hgrace : ∀ n, m.grace = some n → Codec.int64.Restores n :=
    fun n hn => Codec.restores_int64 (h.grace n hn)
  exact Codec.restores_lenient (by decide) rfl
    (by simp [Field.restores_stamp h.creation, Field.restores_stamp h.deletion,
      Field.restores_optional hmanaged, Field.restores_optional hgeneration,
      Field.restores_optional hgrace]) _

/-! ### Language models -/

@[simp]
theorem Endpoint.codec_restores (e : Endpoint) : Endpoint.codec.Restores e :=
  Codec.restores_record (by decide) rfl (by simp) _

theorem LocalReference.codec_fits (room : Nat) : LocalReference.codec.Fits (room + 1) :=
  Codec.fits_of_fields (fun _ => rfl) (by simp)

theorem TypedReference.codec_fits (room : Nat) : TypedReference.codec.Fits (room + 1) :=
  Codec.fits_of_fields (fun _ => rfl) (by simp)

theorem Endpoint.codec_fits (room : Nat) : Endpoint.codec.Fits (room + 2) :=
  Codec.fits_of_fields (fun _ => rfl) (by simp [LocalReference.codec_fits])

/-- The provider's fields are collected, since they are nested no deeper than an endpoint. -/
theorem LlmSpec.codec_restores (s : LlmSpec) : LlmSpec.codec.Restores s := by
  have hendpoint : Endpoint.codec.Fits (Draft.depthLimit - 2) := Endpoint.codec_fits _
  have hworker : TypedReference.codec.Fits (Draft.depthLimit - 2) := TypedReference.codec_fits _
  exact Codec.restores_nested (by decide) rfl
    (by simp [ProviderSpec.endpointField, ProviderSpec.workerField])
    (by simp [ProviderSpec.endpointField, ProviderSpec.workerField, hendpoint, hworker,
      Field.withDefault, Field.unlessEmpty]) _

theorem LlmStatus.codec_restores (s : LlmStatus) : LlmStatus.codec.Restores s :=
  Codec.restores_record (by decide) rfl (by simp) _

/-! ### Models -/

@[simp]
theorem KeyReference.codec_restores (r : KeyReference) : KeyReference.codec.Restores r :=
  Codec.restores_lenient (by decide) rfl (by simp) _

@[simp]
theorem SourceReference.codec_restores (r : SourceReference) :
    SourceReference.codec.Restores r :=
  Codec.restores_lenient (by decide) rfl (by simp) _

@[simp]
theorem FieldReference.codec_restores (r : FieldReference) : FieldReference.codec.Restores r :=
  Codec.restores_lenient (by decide) rfl (by simp) _

@[simp]
theorem Quantity.codec_restores (s : String) : Quantity.codec.Restores s := ⟨nofun, rfl⟩

@[simp]
theorem ResourceReference.codec_restores (r : ResourceReference) :
    ResourceReference.codec.Restores r :=
  Codec.restores_lenient (by decide) rfl (by simp) _

@[simp]
theorem EnvVarSource.codec_restores (s : EnvVarSource) : EnvVarSource.codec.Restores s :=
  Codec.restores_lenient (by decide) rfl (by simp) _

@[simp]
theorem EnvVar.codec_restores (v : EnvVar) : EnvVar.codec.Restores v :=
  Codec.restores_lenient (by decide) rfl (by simp) _

@[simp]
theorem EnvFromSource.codec_restores (s : EnvFromSource) : EnvFromSource.codec.Restores s :=
  Codec.restores_lenient (by decide) rfl (by simp) _

@[simp]
theorem NameReference.codec_restores (r : NameReference) : NameReference.codec.Restores r :=
  Codec.restores_lenient (by decide) rfl (by simp) _

@[simp]
theorem ResourceRequirements.codec_restores (r : ResourceRequirements) :
    ResourceRequirements.codec.Restores r :=
  Codec.restores_lenient (by decide) rfl (by simp) _

@[simp]
theorem ModelVolume.codec_restores (v : ModelVolume) : ModelVolume.codec.Restores v :=
  Codec.restores_record (by decide) rfl (by simp) _

theorem ModelSpec.codec_restores {s : ModelSpec} (h : ∀ n, s.replicas = some n → IsInt32 n) :
    ModelSpec.codec.Restores s := by
  have hreplicas : ∀ n, s.replicas = some n → Codec.int32.Restores n :=
    fun n hn => Codec.restores_int32 (h n hn)
  exact Codec.restores_record (by decide) rfl (by simp [Field.restores_optional hreplicas]) _

/-- Counts that have 32 bits. -/
structure ModelStatus.IsPlain (s : ModelStatus) : Prop where
  replicas : IsInt32 s.replicas
  readyReplicas : IsInt32 s.readyReplicas
  availableReplicas : IsInt32 s.availableReplicas
  unavailableReplicas : IsInt32 s.unavailableReplicas

theorem ModelStatus.codec_restores {s : ModelStatus} (h : s.IsPlain) :
    ModelStatus.codec.Restores s :=
  Codec.restores_record (by decide) rfl
    (by simp [Codec.restores_int32 h.replicas, Codec.restores_int32 h.readyReplicas,
      Codec.restores_int32 h.availableReplicas, Codec.restores_int32 h.unavailableReplicas]) _

/-! ### Prompts -/

@[simp]
theorem Message.codec_restores (m : Message) : Message.codec.Restores m :=
  Codec.restores_record (by decide) rfl (by simp) _

/-- Parameters without data that are no whole numbers. -/
structure Params.IsPlain (p : Params) : Prop where
  temperature : p.temperature = none
  topP : p.topP = none

theorem Params.codec_restores {p : Params} (h : p.IsPlain) : Params.codec.Restores p :=
  Codec.restores_record (by decide) rfl (by simp [h.temperature, h.topP]) _

theorem PromptSpec.codec_restores {s : PromptSpec} (h : ∀ p, s.params = some p → p.IsPlain) :
    PromptSpec.codec.Restores s := by
  have hparams : ∀ p, s.params = some p → Params.codec.Restores p :=
    fun p hp => Params.codec_restores (h p hp)
  exact Codec.restores_record (by decide) rfl (by simp [Field.restores_optional hparams]) _

theorem PromptStatus.codec_restores {s : PromptStatus}
    (h : ∀ n, s.observedGeneration = some n → IsInt64 n) : PromptStatus.codec.Restores s := by
  have hobserved : ∀ n, s.observedGeneration = some n → Codec.int64.Restores n :=
    fun n hn => Codec.restores_int64 (h n hn)
  exact Codec.restores_record (by decide) rfl (by simp [Field.restores_optional hobserved]) _

/-! ### Workers -/

theorem WorkerSpec.codec_restores {s : WorkerSpec} (h : ∀ n, s.replicas = some n → IsInt32 n) :
    WorkerSpec.codec.Restores s := by
  have hreplicas : ∀ n, s.replicas = some n → Codec.int32.Restores n :=
    fun n hn => Codec.restores_int32 (h n hn)
  exact Codec.restores_record (by decide) rfl (by simp [Field.restores_optional hreplicas]) _

theorem WorkerStatus.codec_restores (s : WorkerStatus) : WorkerStatus.codec.Restores s :=
  Codec.restores_record (by decide) rfl (by simp) _

/-! ### Objects -/

/-- What an object says about what it is, is passed over. -/
theorem Codec.restores_stamped {σ τ : Type} {fs : Fields τ} {fields : σ → τ} {make : τ → σ} {s : σ}
    (hnodup : fs.names.Nodup) (hversion : "apiVersion" ∉ fs.names) (hkind : "kind" ∉ fs.names)
    (hmake : make (fields s) = s) (h : fs.Restores (fields s)) (apiVersion kind expected : String) :
    (stamped apiVersion kind (record expected fs fields make)).Restores s where
  notNull := nofun
  read := by
    obtain ⟨slots, hread, hfinish⟩ := Fields.readMembers_members .strict hnodup h
    simp only [stamped, record, Draft.ofJson, Draft.ofMembers,
      Fields.readMembers_unknown hversion (d := .text (some apiVersion)) rfl,
      Fields.readMembers_unknown hkind (d := .text (some kind)) rfl, hread, readStop, bind,
      Except.bind, hfinish, Except.map, hmake]

/-- Whether what is wanted is plain: numbers have the bits of their types, and there are no data
that are no whole numbers. -/
def Kind.PlainSpec : (k : Kind) → k.Spec → Prop
  | .model, s => ∀ n, s.replicas = some n → IsInt32 n
  | .prompt, s => ∀ p, s.params = some p → p.IsPlain
  | .worker, s => ∀ n, s.replicas = some n → IsInt32 n
  | _, _ => True

/-- Whether the numbers of a status have the bits of their types. -/
def Kind.PlainStatus : (k : Kind) → k.Status → Prop
  | .model, s => s.IsPlain
  | .prompt, s => ∀ n, s.observedGeneration = some n → IsInt64 n
  | _, _ => True

namespace Object

variable {k : Kind} {o : Object k}

/-- Whether all of an object is plain. -/
structure IsPlain (o : Object k) : Prop where
  metadata : o.metadata.IsPlain
  spec : k.PlainSpec o.spec
  status : ∀ s, o.status = some s → k.PlainStatus s

theorem customCodec_restores {spec : Codec k.Spec} {status : Codec k.Status}
    (hmetadata : o.metadata.IsPlain) (hspec : spec.Restores o.spec)
    (hstatus : ∀ s, o.status = some s → status.Restores s) :
    (customCodec k spec status).Restores o :=
  Codec.restores_stamped (by simp [Fields.names, Field.required, Field.optionalPart])
    (by simp [Fields.names, Field.required, Field.optionalPart])
    (by simp [Fields.names, Field.required, Field.optionalPart]) rfl
    (by simp [Metadata.codec_restores hmetadata, hspec, Field.restores_optionalPart hstatus]) _ _ _

/-- **A plain object of one of the operator's kinds is read from its JSON.** -/
theorem codec_restores (hcustom : k.isCustom) (h : o.IsPlain) : (codec k).Restores o := by
  obtain ⟨hmetadata, hspec, hstatus⟩ := h
  cases k with
  | llm =>
    exact customCodec_restores hmetadata (LlmSpec.codec_restores o.spec)
      fun s _ => LlmStatus.codec_restores s
  | model =>
    exact customCodec_restores hmetadata (ModelSpec.codec_restores hspec)
      fun s hs => ModelStatus.codec_restores (hstatus s hs)
  | prompt =>
    exact customCodec_restores hmetadata (PromptSpec.codec_restores hspec)
      fun s hs => PromptStatus.codec_restores (hstatus s hs)
  | worker =>
    exact customCodec_restores hmetadata (WorkerSpec.codec_restores hspec)
      fun s _ => WorkerStatus.codec_restores s
  | _ => cases hcustom

end Object

end ModelKeeper

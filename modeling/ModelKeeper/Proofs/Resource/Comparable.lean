import ModelKeeper.Proofs.Json.Sorted
import ModelKeeper.Proofs.Resource.SameSpec

/-!
# Comparing what is wanted again and again

A run compares what is wanted of an object at many moments, so the comparison of JSON forms has to
be reflexive and transitive (`Codec.Comparable`).  Most codecs are exact.  That of metadata need not
be: times are compared by their texts, and in the values of any shape that metadata hold the two
zeros are the same number.

So objects of all kinds want the same as themselves (`Object.sameSpec_self`), and what wants the
same as a third one wants the same (`Object.sameSpec_trans`), as long as all data are numbers.
-/

namespace ModelKeeper

/-! ### Workers, claims and services -/

theorem WorkerSpec.codec_exact : WorkerSpec.codec.Exact :=
  Codec.exact_of_fields (fun _ => rfl) (by decide) (by simp [Codec.int32])
    (by rintro ⟨⟩ ⟨⟩; simp)

@[simp]
theorem StorageRequirements.codec_exact : StorageRequirements.codec.Exact :=
  Codec.exact_of_fields (fun _ => rfl) (by decide) (by simp) (by rintro ⟨⟩ ⟨⟩; simp)

theorem ClaimSpec.codec_exact : ClaimSpec.codec.Exact :=
  Codec.exact_of_fields (fun _ => rfl) (by decide) (by simp) (by rintro ⟨⟩ ⟨⟩; simp)

@[simp]
theorem PortReference.codec_exact : PortReference.codec.Exact := fun a b => by
  cases a <;> cases b <;> simp [codec, Json.int, Json.same, Number.same]

@[simp]
theorem ServicePort.codec_exact : ServicePort.codec.Exact :=
  Codec.exact_of_fields (fun _ => rfl) (by decide) (by simp [Codec.int32])
    (by rintro ⟨⟩ ⟨⟩; simp)

theorem ServiceSpec.codec_exact : ServiceSpec.codec.Exact :=
  Codec.exact_of_fields (fun _ => rfl) (by decide) (by simp) (by rintro ⟨⟩ ⟨⟩; simp)

/-! ### Sets of pods -/

@[simp]
theorem ContainerPort.codec_exact : ContainerPort.codec.Exact :=
  Codec.exact_of_fields (fun _ => rfl) (by decide) (by simp [Codec.int32])
    (by rintro ⟨⟩ ⟨⟩; simp)

@[simp]
theorem VolumeMount.codec_exact : VolumeMount.codec.Exact :=
  Codec.exact_of_fields (fun _ => rfl) (by decide) (by simp) (by rintro ⟨⟩ ⟨⟩; simp)

@[simp]
theorem HttpGet.codec_exact : HttpGet.codec.Exact :=
  Codec.exact_of_fields (fun _ => rfl) (by decide) (by simp) (by rintro ⟨⟩ ⟨⟩; simp)

@[simp]
theorem Probe.codec_exact : Probe.codec.Exact :=
  Codec.exact_of_fields (fun _ => rfl) (by decide) (by simp [Codec.int32])
    (by rintro ⟨⟩ ⟨⟩; simp)

@[simp]
theorem Container.codec_exact : Container.codec.Exact :=
  Codec.exact_of_fields (fun _ => rfl) (by decide) (by simp)
    (by
      rintro ⟨⟩ ⟨⟩
      simp only [Prod.mk.injEq, Container.mk.injEq]
      tauto)

@[simp]
theorem ClaimReference.codec_exact : ClaimReference.codec.Exact :=
  Codec.exact_of_fields (fun _ => rfl) (by decide) (by simp) (by rintro ⟨⟩ ⟨⟩; simp)

@[simp]
theorem Volume.codec_exact : Volume.codec.Exact :=
  Codec.exact_of_fields (fun _ => rfl) (by decide) (by simp) (by rintro ⟨⟩ ⟨⟩; simp)

@[simp]
theorem PodSpec.codec_exact : PodSpec.codec.Exact :=
  Codec.exact_of_fields (fun _ => rfl) (by decide) (by simp) (by rintro ⟨⟩ ⟨⟩; simp)

@[simp]
theorem OwnerReference.codec_exact : OwnerReference.codec.Exact :=
  Codec.exact_of_fields (fun _ => rfl) (by decide) (by simp)
    (by
      rintro ⟨⟩ ⟨⟩
      simp only [Prod.mk.injEq, OwnerReference.mk.injEq]
      tauto)

/-- Moments are compared by their texts. -/
theorem Stamp.codec_comparable : Stamp.codec.Comparable where
  refl a := by simp [codec, Codec.imap, Instant.codec, Json.same]
  trans a b d := by
    simp only [codec, Codec.imap, Instant.codec, Json.same, beq_iff_eq]
    exact Eq.trans

theorem ManagedFields.codec_comparable : ManagedFields.codec.Comparable := by
  refine Codec.comparable_of_fields (fun _ => rfl) (by decide) ⟨?apiVersion, ?fieldsType, ?fields,
    ?manager, ?operation, ?subresource, ?time, trivial⟩
  case fields => exact SortedJson.codec_comparable.optional _
  case time => exact Stamp.codec_comparable.optional _
  all_goals exact Field.Exact.comparable (by simp)

theorem Metadata.codec_comparable : Metadata.codec.Comparable := by
  refine Codec.comparable_of_fields (fun _ => rfl) (by decide) ⟨?annotations, ?creation, ?grace,
    ?deletion, ?finalizers, ?namePrefix, ?generation, ?labels, ?managed, ?name, ?ns, ?owners,
    ?version, ?selfLink, ?uid, trivial⟩
  case creation => exact Stamp.codec_comparable.optional _
  case deletion => exact Stamp.codec_comparable.optional _
  case managed => exact ManagedFields.codec_comparable.list.optional _
  all_goals exact Field.Exact.comparable (by simp [Codec.int64])

theorem PodTemplate.codec_comparable : PodTemplate.codec.Comparable :=
  Codec.comparable_of_fields (fun _ => rfl) (by decide)
    ⟨Metadata.codec_comparable.optional _, PodSpec.codec_exact.comparable.optional _, trivial⟩

@[simp]
theorem StatefulSetSpec.selectorCodec_exact : StatefulSetSpec.selectorCodec.Exact :=
  Codec.exact_of_fields (fun _ => rfl) (by decide) (by simp) (by simp)

theorem StatefulSetSpec.codec_comparable : StatefulSetSpec.codec.Comparable := by
  refine Codec.comparable_of_fields (fun _ => rfl) (by decide) ⟨?replicas, ?selector, ?serviceName,
    ?template, trivial⟩
  case template => exact PodTemplate.codec_comparable.withDefault _ _
  all_goals exact Field.Exact.comparable (by simp [Codec.int32])

/-! ### Objects -/

namespace Object

variable {k : Kind} {o p q : Object k}

theorem sameSpec_worker (o p : Object .worker) : o.sameSpec p ↔ o.spec = p.spec :=
  WorkerSpec.codec_exact o.spec p.spec

/-- For the operator's own kinds other than prompts, to want the same is to have the same there. -/
theorem spec_eq_of_sameSpec (hcustom : k.isCustom) (hprompt : k ≠ .prompt) (h : o.sameSpec p) :
    o.spec = p.spec := by
  cases k with
  | llm => exact (sameSpec_llm o p).1 h
  | model => exact (sameSpec_model o p).1 h
  | worker => exact (sameSpec_worker o p).1 h
  | prompt => exact absurd rfl hprompt
  | _ => cases hcustom

theorem sameSpec_iff_sameIfAny :
    o.sameSpec p ↔ Json.sameIfAny (k.specJson? o.spec) (k.specJson? p.spec) := by
  unfold sameSpec
  cases k.specJson? o.spec <;> cases k.specJson? p.spec <;> simp [Json.sameIfAny]

theorem sameSpec_self (h : o.IsFinite) : o.sameSpec o := by
  rw [sameSpec_iff_sameIfAny]
  cases k with
  | llm => exact LlmSpec.codec_exact.comparable.refl o.spec
  | model => exact ModelSpec.codec_exact.comparable.refl o.spec
  | prompt => exact sameSpec_iff_sameIfAny.1 (sameSpec_prompt_self h)
  | worker => exact WorkerSpec.codec_exact.comparable.refl o.spec
  | configMap => trivial
  | secret => trivial
  | claim => exact (ClaimSpec.codec_exact.comparable.optional "spec").refl o.spec
  | service => exact (ServiceSpec.codec_exact.comparable.optional "spec").refl o.spec
  | statefulSet => exact (StatefulSetSpec.codec_comparable.optional "spec").refl o.spec

theorem sameSpec_trans (ho : o.IsFinite) (hp : p.IsFinite) (hq : q.IsFinite) (h : o.sameSpec p)
    (h' : p.sameSpec q) : o.sameSpec q := by
  cases k with
  | prompt =>
    rw [sameSpec_prompt ho hp] at h
    rw [sameSpec_prompt hp hq] at h'
    exact (sameSpec_prompt ho hq).2 ⟨h.1.trans h'.1, h.2.trans h'.2⟩
  | llm => exact LlmSpec.codec_exact.comparable.trans _ _ _ h h'
  | model => exact ModelSpec.codec_exact.comparable.trans _ _ _ h h'
  | worker => exact WorkerSpec.codec_exact.comparable.trans _ _ _ h h'
  | configMap => rfl
  | secret => rfl
  | claim =>
    rw [sameSpec_iff_sameIfAny] at h h' ⊢
    exact (ClaimSpec.codec_exact.comparable.optional "spec").trans _ _ _ h h'
  | service =>
    rw [sameSpec_iff_sameIfAny] at h h' ⊢
    exact (ServiceSpec.codec_exact.comparable.optional "spec").trans _ _ _ h h'
  | statefulSet =>
    rw [sameSpec_iff_sameIfAny] at h h' ⊢
    exact (StatefulSetSpec.codec_comparable.optional "spec").trans _ _ _ h h'

end Object

end ModelKeeper

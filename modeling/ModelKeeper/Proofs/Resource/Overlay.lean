import ModelKeeper.Proofs.Json.Merge
import ModelKeeper.Proofs.Resource.Comparable

/-!
# A status laid over another one

A status that is merged into an older one need not be what is there afterwards: a field that it
leaves out stays as it was, and so does an entry of a map.  `Kind.overlay` is what is there
(`Kind.mergesTo_overlay`).  The statuses of prompts, claims, services and sets of pods may leave
something out; of the other kinds the new status replaces the old one
(`Kind.overlay?_of_leavesOut`).
-/

namespace ModelKeeper

open Json (MergesTo)

/-! ### Conditions -/

@[simp]
theorem ConditionType.codec_exact : ConditionType.codec.Exact := fun a b => by
  cases a <;> cases b <;> decide

@[simp]
theorem ConditionStatus.codec_exact : ConditionStatus.codec.Exact := fun a b => by
  cases a <;> cases b <;> decide

@[simp]
theorem Condition.codec_exact : Condition.codec.Exact :=
  Codec.exact_of_fields (fun _ => rfl) (by decide) (by simp) (by rintro ⟨⟩ ⟨⟩; simp)

theorem StatefulSetCondition.codec_comparable : StatefulSetCondition.codec.Comparable := by
  refine Codec.comparable_of_fields (fun _ => rfl) (by decide) ⟨?lastTransition, ?message, ?reason,
    ?status, ?type, trivial⟩
  case lastTransition => exact Stamp.codec_comparable.optional _
  all_goals exact Field.Exact.comparable (by simp)

theorem ServiceCondition.codec_comparable : ServiceCondition.codec.Comparable := by
  refine Codec.comparable_of_fields (fun _ => rfl) (by decide) ⟨?lastTransition, ?message,
    ?observedGeneration, ?reason, ?status, ?type, trivial⟩
  case lastTransition => exact Stamp.codec_comparable.withDefault _ _
  all_goals exact Field.Exact.comparable (by simp [Codec.int64])

theorem ClaimCondition.codec_comparable : ClaimCondition.codec.Comparable := by
  refine Codec.comparable_of_fields (fun _ => rfl) (by decide) ⟨?lastProbe, ?lastTransition,
    ?message, ?reason, ?status, ?type, trivial⟩
  case lastProbe => exact Stamp.codec_comparable.optional _
  case lastTransition => exact Stamp.codec_comparable.optional _
  all_goals exact Field.Exact.comparable (by simp)

/-! ### Load balancers and volumes -/

@[simp]
theorem PortStatus.codec_exact : PortStatus.codec.Exact :=
  Codec.exact_of_fields (fun _ => rfl) (by decide) (by simp [Codec.int32])
    (by rintro ⟨⟩ ⟨⟩; simp)

@[simp]
theorem LoadBalancerIngress.codec_exact : LoadBalancerIngress.codec.Exact :=
  Codec.exact_of_fields (fun _ => rfl) (by decide) (by simp) (by rintro ⟨⟩ ⟨⟩; simp)

@[simp]
theorem LoadBalancerStatus.codec_exact : LoadBalancerStatus.codec.Exact :=
  Codec.exact_of_fields (fun _ => rfl) (by decide) (by simp) (by rintro ⟨⟩ ⟨⟩; simp)

@[simp]
theorem ModifyVolumeStatus.codec_exact : ModifyVolumeStatus.codec.Exact :=
  Codec.exact_of_fields (fun _ => rfl) (by decide) (by simp) (by rintro ⟨⟩ ⟨⟩; simp)

/-- The places of the new status, if it tells any. -/
def LoadBalancerStatus.overlaid (old : Option LoadBalancerStatus) (new : LoadBalancerStatus) :
    LoadBalancerStatus where
  ingress := new.ingress <|> old.bind (·.ingress)

theorem LoadBalancerStatus.mergesTo_overlaid (old : Option LoadBalancerStatus)
    (new : LoadBalancerStatus) :
    MergesTo (fun s => some (codec.write s)) old new (overlaid old new) := by
  have hingress := Codec.replaces_list LoadBalancerIngress.codec_exact.comparable
  refine Codec.mergesTo_of_fields (fun _ => rfl) (by decide) (by rintro ⟨⟩ ⟨⟩ ⟨⟩; rfl) ?_
  cases old <;> exact ⟨Field.mergesTo_optional_of_replaces hingress _, trivial⟩

/-- The new change, with the class that the old one names if the new one names none. -/
def ModifyVolumeStatus.overlaid (old : Option ModifyVolumeStatus) (new : ModifyVolumeStatus) :
    ModifyVolumeStatus where
  status := new.status
  target := new.target <|> old.bind (·.target)

theorem ModifyVolumeStatus.mergesTo_overlaid (old : Option ModifyVolumeStatus)
    (new : ModifyVolumeStatus) :
    MergesTo (fun s => some (codec.write s)) old new (overlaid old new) := by
  refine Codec.mergesTo_of_fields (fun _ => rfl) (by decide) (by rintro ⟨⟩ ⟨⟩ ⟨⟩; rfl) ?_
  cases old <;>
    exact ⟨Field.mergesTo_withDefault Codec.replaces_string _ _ _ _,
      Field.mergesTo_optional_of_replaces Codec.replaces_string _, trivial⟩

/-! ### Statuses -/

theorem LlmStatus.codec_exact : LlmStatus.codec.Exact :=
  Codec.exact_of_fields (fun _ => rfl) (by decide) (by simp) (by rintro ⟨⟩ ⟨⟩; simp)

theorem ModelStatus.codec_exact : ModelStatus.codec.Exact :=
  Codec.exact_of_fields (fun _ => rfl) (by decide) (by simp [Codec.int32])
    (by rintro ⟨⟩ ⟨⟩; simp)

theorem PromptStatus.codec_exact : PromptStatus.codec.Exact :=
  Codec.exact_of_fields (fun _ => rfl) (by decide) (by simp [Codec.int64])
    (by rintro ⟨⟩ ⟨⟩; simp)

theorem WorkerStatus.codec_exact : WorkerStatus.codec.Exact :=
  Codec.exact_of_fields (fun _ => rfl) (by decide) (by simp) (by rintro ⟨⟩ ⟨⟩; simp)

theorem StatefulSetStatus.codec_comparable : StatefulSetStatus.codec.Comparable := by
  refine Codec.comparable_of_fields (fun _ => rfl) (by decide) ⟨?availableReplicas,
    ?collisionCount, ?conditions, ?currentReplicas, ?currentRevision, ?observedGeneration,
    ?readyReplicas, ?replicas, ?updateRevision, ?updatedReplicas, trivial⟩
  case conditions => exact StatefulSetCondition.codec_comparable.list.optional _
  all_goals exact Field.Exact.comparable (by simp [Codec.int32, Codec.int64])

theorem ServiceStatus.codec_comparable : ServiceStatus.codec.Comparable :=
  Codec.comparable_of_fields (fun _ => rfl) (by decide)
    ⟨ServiceCondition.codec_comparable.list.optional _,
      LoadBalancerStatus.codec_exact.comparable.optional _, trivial⟩

theorem ClaimStatus.codec_comparable : ClaimStatus.codec.Comparable := by
  refine Codec.comparable_of_fields (fun _ => rfl) (by decide) ⟨?accessModes, ?statuses,
    ?resources, ?capacity, ?conditions, ?attributesClass, ?modifyVolume, ?phase, trivial⟩
  case conditions => exact ClaimCondition.codec_comparable.list.optional _
  all_goals exact Field.Exact.comparable (by simp)

/-! ### What lies over them -/

/-- The status of a prompt, with the generation and the answer of the old one where the new one has
none. -/
def PromptStatus.overlaid (old : Option PromptStatus) (new : PromptStatus) : PromptStatus where
  conditions := new.conditions
  observedGeneration := new.observedGeneration <|> old.bind (·.observedGeneration)
  data := new.data <|> old.bind (·.data)

theorem PromptStatus.mergesTo_overlaid (old : Option PromptStatus) (new : PromptStatus) :
    MergesTo (fun s => some (codec.write s)) old new (overlaid old new) := by
  have hconditions := Codec.replaces_list Condition.codec_exact.comparable
  refine Codec.mergesTo_of_fields (fun _ => rfl) (by decide) (by rintro ⟨⟩ ⟨⟩ ⟨⟩; rfl) ?_
  cases old <;>
    exact ⟨Field.mergesTo_withDefault hconditions _ _ _ _,
      Field.mergesTo_optional_of_replaces (Codec.replaces_int ..) _,
      Field.mergesTo_optional_of_replaces Codec.replaces_string _, trivial⟩

def StatefulSetStatus.overlaid (old : Option StatefulSetStatus) (new : StatefulSetStatus) :
    StatefulSetStatus where
  replicas := new.replicas
  readyReplicas := new.readyReplicas <|> old.bind (·.readyReplicas)
  availableReplicas := new.availableReplicas <|> old.bind (·.availableReplicas)
  currentReplicas := new.currentReplicas <|> old.bind (·.currentReplicas)
  currentRevision := new.currentRevision <|> old.bind (·.currentRevision)
  updatedReplicas := new.updatedReplicas <|> old.bind (·.updatedReplicas)
  updateRevision := new.updateRevision <|> old.bind (·.updateRevision)
  collisionCount := new.collisionCount <|> old.bind (·.collisionCount)
  observedGeneration := new.observedGeneration <|> old.bind (·.observedGeneration)
  conditions := new.conditions <|> old.bind (·.conditions)

theorem StatefulSetStatus.mergesTo_overlaid (old : Option StatefulSetStatus)
    (new : StatefulSetStatus) :
    MergesTo (fun s => some (codec.write s)) old new (overlaid old new) := by
  have hconditions := Codec.replaces_list StatefulSetCondition.codec_comparable
  have hcount : Codec.int32.Replaces := Codec.replaces_int ..
  have hgeneration : Codec.int64.Replaces := Codec.replaces_int ..
  have hrevision := Codec.replaces_string
  refine Codec.mergesTo_of_fields (fun _ => rfl) (by decide) (by rintro ⟨⟩ ⟨⟩ ⟨⟩; rfl) ?_
  cases old <;>
    exact ⟨Field.mergesTo_optional_of_replaces hcount _,
      Field.mergesTo_optional_of_replaces hcount _,
      Field.mergesTo_optional_of_replaces hconditions _,
      Field.mergesTo_optional_of_replaces hcount _,
      Field.mergesTo_optional_of_replaces hrevision _,
      Field.mergesTo_optional_of_replaces hgeneration _,
      Field.mergesTo_optional_of_replaces hcount _,
      Field.mergesTo_withDefault hcount _ _ _ _,
      Field.mergesTo_optional_of_replaces hrevision _,
      Field.mergesTo_optional_of_replaces hcount _, trivial⟩

/-- The status of a service.  What is told of its load balancer is laid over as well. -/
def ServiceStatus.overlaid (old : Option ServiceStatus) (new : ServiceStatus) : ServiceStatus where
  conditions := new.conditions <|> old.bind (·.conditions)
  loadBalancer :=
    let balancer := old.bind (·.loadBalancer)
    new.loadBalancer.map (LoadBalancerStatus.overlaid balancer) <|> balancer

theorem ServiceStatus.mergesTo_overlaid (old : Option ServiceStatus) (new : ServiceStatus) :
    MergesTo (fun s => some (codec.write s)) old new (overlaid old new) := by
  have hconditions := Codec.replaces_list ServiceCondition.codec_comparable
  refine Codec.mergesTo_of_fields (fun _ => rfl) (by decide) (by rintro ⟨⟩ ⟨⟩ ⟨⟩; rfl) ?_
  cases old <;>
    exact ⟨Field.mergesTo_optional_of_replaces hconditions _,
      Field.mergesTo_optional (LoadBalancerStatus.mergesTo_overlaid _) _, trivial⟩

/-- The status of a claim.  Its maps keep the entries that the new ones do not have. -/
def ClaimStatus.overlaid (old : Option ClaimStatus) (new : ClaimStatus) : ClaimStatus where
  accessModes := new.accessModes <|> old.bind (·.accessModes)
  allocatedResourceStatuses :=
    let statuses := old.bind (·.allocatedResourceStatuses)
    new.allocatedResourceStatuses.map (Dict.overlaid statuses) <|> statuses
  allocatedResources :=
    let resources := old.bind (·.allocatedResources)
    new.allocatedResources.map (Dict.overlaid resources) <|> resources
  capacity :=
    let capacity := old.bind (·.capacity)
    new.capacity.map (Dict.overlaid capacity) <|> capacity
  conditions := new.conditions <|> old.bind (·.conditions)
  attributesClass := new.attributesClass <|> old.bind (·.attributesClass)
  modifyVolume :=
    let change := old.bind (·.modifyVolume)
    new.modifyVolume.map (ModifyVolumeStatus.overlaid change) <|> change
  phase := new.phase <|> old.bind (·.phase)

theorem Quantity.codec_replaces : Quantity.codec.Replaces :=
  ⟨fun _ => rfl, Quantity.codec_exact.comparable.refl⟩

theorem ClaimStatus.mergesTo_overlaid (old : Option ClaimStatus) (new : ClaimStatus) :
    MergesTo (fun s => some (codec.write s)) old new (overlaid old new) := by
  have hmodes := Codec.replaces_list Codec.exact_string.comparable
  have hconditions := Codec.replaces_list ClaimCondition.codec_comparable
  have htext := Codec.replaces_string
  refine Codec.mergesTo_of_fields (fun _ => rfl) (by decide) (by rintro ⟨⟩ ⟨⟩ ⟨⟩; rfl) ?_
  cases old <;>
    exact ⟨Field.mergesTo_optional_of_replaces hmodes _,
      Field.mergesTo_optional (Codec.mergesTo_dict htext _) _,
      Field.mergesTo_optional (Codec.mergesTo_dict Quantity.codec_replaces _) _,
      Field.mergesTo_optional (Codec.mergesTo_dict Quantity.codec_replaces _) _,
      Field.mergesTo_optional_of_replaces hconditions _,
      Field.mergesTo_optional_of_replaces htext _,
      Field.mergesTo_optional (ModifyVolumeStatus.mergesTo_overlaid _) _,
      Field.mergesTo_optional_of_replaces htext _, trivial⟩

theorem ModelStatus.mergesTo_self (old : Option ModelStatus) (new : ModelStatus) :
    MergesTo (fun s => some (codec.write s)) old new new := by
  have hconditions := Codec.replaces_list Condition.codec_exact.comparable
  have hcount : Codec.int32.Replaces := Codec.replaces_int ..
  exact Codec.mergesTo_of_fields (fun _ => rfl) (by decide) (by rintro ⟨⟩ ⟨⟩ ⟨⟩; rfl)
    ⟨Field.mergesTo_withDefault hcount _ _ _ _, Field.mergesTo_withDefault hcount _ _ _ _,
      Field.mergesTo_withDefault hcount _ _ _ _, Field.mergesTo_withDefault hcount _ _ _ _,
      Field.mergesTo_withDefault hconditions _ _ _ _, trivial⟩

/-! ### Kinds -/

namespace Kind

/-- What is the case as JSON. -/
def statusJson : (k : Kind) → k.Status → Json
  | .llm, s => LlmStatus.codec.write s
  | .model, s => ModelStatus.codec.write s
  | .prompt, s => PromptStatus.codec.write s
  | .worker, s => WorkerStatus.codec.write s
  | .claim, s => ClaimStatus.codec.write s
  | .service, s => ServiceStatus.codec.write s
  | .statefulSet, s => StatefulSetStatus.codec.write s

theorem statusJson_self {k : Kind} (s : k.Status) : (k.statusJson s).same (k.statusJson s) := by
  cases k with
  | llm => exact LlmStatus.codec_exact.comparable.refl s
  | model => exact ModelStatus.codec_exact.comparable.refl s
  | prompt => exact PromptStatus.codec_exact.comparable.refl s
  | worker => exact WorkerStatus.codec_exact.comparable.refl s
  | claim => exact ClaimStatus.codec_comparable.refl s
  | service => exact ServiceStatus.codec_comparable.refl s
  | statefulSet => exact StatefulSetStatus.codec_comparable.refl s
  | configMap | secret => nomatch s

/-- Whether a status of the kind may leave something out. -/
def leavesOut : Kind → Bool
  | .prompt | .claim | .service | .statefulSet => true
  | .llm | .model | .worker | .configMap | .secret => false

/-- A status laid over another one, which may be missing: what the new one leaves out is as in the
old one. -/
def overlay : (k : Kind) → Option k.Status → k.Status → k.Status
  | .prompt, old, new => PromptStatus.overlaid old new
  | .claim, old, new => ClaimStatus.overlaid old new
  | .service, old, new => ServiceStatus.overlaid old new
  | .statefulSet, old, new => StatefulSetStatus.overlaid old new
  | .llm, _, new | .model, _, new | .worker, _, new => new

/-- The same where there may be no new status, and then is none afterwards. -/
def overlay? (k : Kind) (old new : Option k.Status) : Option k.Status := new.map (k.overlay old)

/-- Of the other kinds, nothing of the old status is left. -/
theorem overlay?_of_leavesOut {k : Kind} (h : k.leavesOut = false) (old new : Option k.Status) :
    k.overlay? old new = new := by
  cases new with
  | none => rfl
  | some t =>
    cases k with
    | llm | model | worker => rfl
    | prompt | claim | service | statefulSet => cases h
    | configMap | secret => nomatch t

/-- **What is there after a status has been merged into another one.** -/
theorem mergesTo_overlay {k : Kind} (old : Option k.Status) (new : k.Status) :
    MergesTo (fun s => some (k.statusJson s)) old new (k.overlay old new) := by
  have hconditions := Codec.replaces_list Condition.codec_exact.comparable
  cases k with
  | llm | worker =>
    exact Codec.mergesTo_of_fields (fun _ => rfl) (by decide) (by rintro ⟨⟩ ⟨⟩ ⟨⟩; rfl)
      ⟨Field.mergesTo_withDefault hconditions _ _ _ _, trivial⟩
  | model => exact ModelStatus.mergesTo_self old new
  | prompt => exact PromptStatus.mergesTo_overlaid old new
  | claim => exact ClaimStatus.mergesTo_overlaid old new
  | service => exact ServiceStatus.mergesTo_overlaid old new
  | statefulSet => exact StatefulSetStatus.mergesTo_overlaid old new
  | configMap | secret => nomatch new

end Kind

end ModelKeeper

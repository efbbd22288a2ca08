import ModelKeeper.Json.Sorted
import ModelKeeper.Time.Instant

/-!
# Metadata of objects

What every object carries: its name and namespace, labels, annotations, finalizers, owners, and what
the store keeps about it (version, generation, unique id, time of creation and of the request to
delete it, and who manages which of its fields).

The times are stamps: objects are sent and kept as JSON, where a finer time that somebody puts there
is cut to the second.
-/

namespace ModelKeeper

/-- A timestamp, read and written to the whole second. -/
def Instant.codec : Codec Instant where
  write t := .str t.timestamp
  read
    | .text (some s) =>
      match Instant.ofTimestamp? s with
      | some t => .ok t
      | none => .error (.mismatch (.invalidValue (.text s) "a timestamp"))
    | d => d.mismatch "a timestamp"

def Stamp.codec : Codec Stamp := Instant.codec.imap Instant.stamp Stamp.instant

/-- An object that owns another one. -/
structure OwnerReference where
  apiVersion : String
  kind : String
  name : String
  uid : String
  blockOwnerDeletion : Option Bool := none
  /-- Whether it is the one that looks after the other. -/
  controller : Option Bool := none
  deriving DecidableEq

/-- The fields of an object that somebody manages. -/
structure ManagedFields where
  apiVersion : Option String := none
  /-- The form in which the fields are told. -/
  fieldsType : Option String := none
  fields : Option SortedJson := none
  manager : Option String := none
  operation : Option String := none
  subresource : Option String := none
  time : Option Stamp := none
  deriving DecidableEq

/-- The metadata of an object. -/
structure Metadata where
  name : Option String := none
  ns : Option String := none
  labels : Option (Dict String) := none
  annotations : Option (Dict String) := none
  /-- Who has to agree before the object goes away. -/
  finalizers : Option (List String) := none
  /-- When the deletion of the object was requested. -/
  deletion : Option Stamp := none
  /-- How many seconds are left to the object from then on. -/
  grace : Option Int := none
  /-- The version of the object, a new one with every write. -/
  version : Option String := none
  uid : Option String := none
  /-- Counts the changes of what is wanted. -/
  generation : Option Int := none
  creation : Option Stamp := none
  owners : Option (List OwnerReference) := none
  managed : Option (List ManagedFields) := none
  /-- What the server puts before a name that it makes up. -/
  namePrefix : Option String := none
  selfLink : Option String := none
  deriving DecidableEq, Inhabited

/-- A reference to an object of any kind in the same namespace. -/
structure LocalReference where
  apiGroup : Option String := none
  kind : String := ""
  name : String := ""
  deriving DecidableEq, Inhabited

/-- A reference to an object of any kind. -/
structure TypedReference where
  apiGroup : Option String := none
  kind : String := ""
  name : String := ""
  ns : Option String := none
  deriving DecidableEq, Inhabited

def OwnerReference.codec : Codec OwnerReference :=
  .lenient "OwnerReference"
    (.cons (.withDefault "apiVersion" .string "") <|
      .cons (.optional "blockOwnerDeletion" .bool) <|
      .cons (.optional "controller" .bool) <|
      .cons (.withDefault "kind" .string "") <|
      .cons (.withDefault "name" .string "") <|
      .cons (.withDefault "uid" .string "") .nil)
    (fun o => (o.apiVersion, o.blockOwnerDeletion, o.controller, o.kind, o.name, o.uid, ()))
    (fun (apiVersion, block, controller, kind, name, uid, ()) =>
      ⟨apiVersion, kind, name, uid, block, controller⟩)

def ManagedFields.codec : Codec ManagedFields :=
  .lenient "ManagedFieldsEntry"
    (.cons (.optional "apiVersion" .string) <|
      .cons (.optional "fieldsType" .string) <|
      .cons (.optional "fieldsV1" SortedJson.codec) <|
      .cons (.optional "manager" .string) <|
      .cons (.optional "operation" .string) <|
      .cons (.optional "subresource" .string) <|
      .cons (.optional "time" Stamp.codec) .nil)
    (fun f => (f.apiVersion, f.fieldsType, f.fields, f.manager, f.operation, f.subresource, f.time,
      ()))
    (fun (apiVersion, fieldsType, fields, manager, operation, subresource, time, ()) =>
      ⟨apiVersion, fieldsType, fields, manager, operation, subresource, time⟩)

def Metadata.codec : Codec Metadata :=
  .lenient "ObjectMeta"
    (.cons (.optional "annotations" (.dict .string)) <|
      .cons (.optional "creationTimestamp" Stamp.codec) <|
      .cons (.optional "deletionGracePeriodSeconds" .int64) <|
      .cons (.optional "deletionTimestamp" Stamp.codec) <|
      .cons (.optional "finalizers" (.list .string)) <|
      .cons (.optional "generateName" .string) <|
      .cons (.optional "generation" .int64) <|
      .cons (.optional "labels" (.dict .string)) <|
      .cons (.optional "managedFields" (.list ManagedFields.codec)) <|
      .cons (.optional "name" .string) <|
      .cons (.optional "namespace" .string) <|
      .cons (.optional "ownerReferences" (.list OwnerReference.codec)) <|
      .cons (.optional "resourceVersion" .string) <|
      .cons (.optional "selfLink" .string) <|
      .cons (.optional "uid" .string) .nil)
    (fun m => (m.annotations, m.creation, m.grace, m.deletion, m.finalizers, m.namePrefix,
      m.generation, m.labels, m.managed, m.name, m.ns, m.owners, m.version, m.selfLink, m.uid, ()))
    (fun (annotations, creation, grace, deletion, finalizers, namePrefix, generation, labels,
        managed, name, ns, owners, version, selfLink, uid, ()) =>
      { name, ns, labels, annotations, finalizers, deletion, grace, version, uid, generation,
        creation, owners, managed, namePrefix, selfLink })

def LocalReference.codec : Codec LocalReference :=
  .lenient "TypedLocalObjectReference"
    (.cons (.optional "apiGroup" .string) <|
      .cons (.withDefault "kind" .string "") <|
      .cons (.withDefault "name" .string "") .nil)
    (fun r => (r.apiGroup, r.kind, r.name, ()))
    (fun (apiGroup, kind, name, ()) => ⟨apiGroup, kind, name⟩)

def TypedReference.codec : Codec TypedReference :=
  .lenient "TypedObjectReference"
    (.cons (.optional "apiGroup" .string) <|
      .cons (.withDefault "kind" .string "") <|
      .cons (.withDefault "name" .string "") <|
      .cons (.optional "namespace" .string) .nil)
    (fun r => (r.apiGroup, r.kind, r.name, r.ns, ()))
    (fun (apiGroup, kind, name, ns, ()) => ⟨apiGroup, kind, name, ns⟩)

end ModelKeeper

import ModelKeeper.Resource.Metadata

/-!
# The environment of a container

Environment variables, given by value or taken from configuration and secrets, and the resources
that a container may use.
-/

namespace ModelKeeper

/-- One entry of a configuration or secret. -/
structure KeyReference where
  key : String := ""
  name : String := ""
  /-- Whether the entry may be missing. -/
  isOptional : Option Bool := none
  deriving DecidableEq

/-- A whole configuration or secret. -/
structure SourceReference where
  name : String := ""
  /-- Whether it may be missing. -/
  isOptional : Option Bool := none
  deriving DecidableEq

/-- A field of the pod. -/
structure FieldReference where
  apiVersion : Option String := none
  path : String := ""
  deriving DecidableEq

/-- A limit or request of a container. -/
structure ResourceReference where
  containerName : Option String := none
  /-- The unit in which it is told. -/
  divisor : Option String := none
  resource : String := ""
  deriving DecidableEq

/-- Where the value of a variable comes from. -/
structure EnvVarSource where
  configMapKey : Option KeyReference := none
  field : Option FieldReference := none
  resource : Option ResourceReference := none
  secretKey : Option KeyReference := none
  deriving DecidableEq

/-- An environment variable. -/
structure EnvVar where
  name : String := ""
  value : Option String := none
  valueFrom : Option EnvVarSource := none
  deriving DecidableEq, Inhabited

/-- A source of environment variables. -/
structure EnvFromSource where
  configMap : Option SourceReference := none
  /-- What is put before the names. -/
  namePrefix : Option String := none
  secret : Option SourceReference := none
  deriving DecidableEq

/-- An object that is known by its name alone. -/
structure NameReference where
  name : String := ""
  deriving DecidableEq

/-- The resources that a container asks for and may use. -/
structure ResourceRequirements where
  claims : Option (List NameReference) := none
  limits : Option (Dict String) := none
  requests : Option (Dict String) := none
  deriving DecidableEq

def KeyReference.codec : Codec KeyReference :=
  .lenient "KeySelector"
    (.cons (.withDefault "key" .string "") <|
      .cons (.withDefault "name" .string "") <|
      .cons (.optional "optional" .bool) .nil)
    (fun r => (r.key, r.name, r.isOptional, ()))
    (fun (key, name, isOptional, ()) => ⟨key, name, isOptional⟩)

def SourceReference.codec : Codec SourceReference :=
  .lenient "EnvSource"
    (.cons (.withDefault "name" .string "") <|
      .cons (.optional "optional" .bool) .nil)
    (fun r => (r.name, r.isOptional, ()))
    (fun (name, isOptional, ()) => ⟨name, isOptional⟩)

/-- A quantity of a resource: text, for which a whole number will do. -/
def Quantity.codec : Codec String where
  write := .str
  read
    | .text (some s) => .ok s
    | .number (some (.int n)) => .ok (toString n)
    | d => d.mismatch "a quantity"

def FieldReference.codec : Codec FieldReference :=
  .lenient "ObjectFieldSelector"
    (.cons (.optional "apiVersion" .string) <|
      .cons (.withDefault "fieldPath" .string "") .nil)
    (fun r => (r.apiVersion, r.path, ()))
    (fun (apiVersion, path, ()) => ⟨apiVersion, path⟩)

def ResourceReference.codec : Codec ResourceReference :=
  .lenient "ResourceFieldSelector"
    (.cons (.optional "containerName" .string) <|
      .cons (.optional "divisor" Quantity.codec) <|
      .cons (.withDefault "resource" .string "") .nil)
    (fun r => (r.containerName, r.divisor, r.resource, ()))
    (fun (containerName, divisor, resource, ()) => ⟨containerName, divisor, resource⟩)

def EnvVarSource.codec : Codec EnvVarSource :=
  .lenient "EnvVarSource"
    (.cons (.optional "configMapKeyRef" KeyReference.codec) <|
      .cons (.optional "fieldRef" FieldReference.codec) <|
      .cons (.optional "resourceFieldRef" ResourceReference.codec) <|
      .cons (.optional "secretKeyRef" KeyReference.codec) .nil)
    (fun s => (s.configMapKey, s.field, s.resource, s.secretKey, ()))
    (fun (configMapKey, field, resource, secretKey, ()) =>
      ⟨configMapKey, field, resource, secretKey⟩)

def EnvVar.codec : Codec EnvVar :=
  .lenient "EnvVar"
    (.cons (.withDefault "name" .string "") <|
      .cons (.optional "value" .string) <|
      .cons (.optional "valueFrom" EnvVarSource.codec) .nil)
    (fun v => (v.name, v.value, v.valueFrom, ()))
    (fun (name, value, valueFrom, ()) => ⟨name, value, valueFrom⟩)

def EnvFromSource.codec : Codec EnvFromSource :=
  .lenient "EnvFromSource"
    (.cons (.optional "configMapRef" SourceReference.codec) <|
      .cons (.optional "prefix" .string) <|
      .cons (.optional "secretRef" SourceReference.codec) .nil)
    (fun s => (s.configMap, s.namePrefix, s.secret, ()))
    (fun (configMap, namePrefix, secret, ()) => ⟨configMap, namePrefix, secret⟩)

def NameReference.codec : Codec NameReference :=
  .lenient "LocalObjectReference"
    (.cons (.withDefault "name" .string "") .nil)
    (fun r => (r.name, ()))
    (fun (name, ()) => ⟨name⟩)

def ResourceRequirements.codec : Codec ResourceRequirements :=
  .lenient "ResourceRequirements"
    (.cons (.optional "claims" (.list NameReference.codec)) <|
      .cons (.optional "limits" (.dict Quantity.codec)) <|
      .cons (.optional "requests" (.dict Quantity.codec)) .nil)
    (fun r => (r.claims, r.limits, r.requests, ()))
    (fun (claims, limits, requests, ()) => ⟨claims, limits, requests⟩)

end ModelKeeper

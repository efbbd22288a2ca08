import ModelKeeper.Json.Basic

/-!
# Schemas

A `Schema` tells the form of JSON values.  It is made from the schemas of texts, numbers, lists and
objects, and more may be said about each: what it is for, its default, that it may be null.
-/

namespace ModelKeeper

/-- The form of JSON values. -/
structure Schema where
  type : String
  format : Option String := none
  description : Option String := none
  default : Option Json := none
  nullable : Bool := false
  /-- The texts that are allowed; any if there are none. -/
  choices : List String := []
  /-- The form of the items of a list. -/
  items : Option Json := none
  /-- The form of members with arbitrary names. -/
  others : Option Json := none
  /-- The form of each member. -/
  properties : List (String × Json) := []
  /-- The members that have to be there. -/
  required : List String := []

namespace Schema

/-- A member that is there only if there is something to say. -/
def unlessNone (name : String) : Option Json → List (String × Json)
  | some v => [(name, v)]
  | none => []

/-- A list that is there only if it has items. -/
def unlessEmpty (name : String) (texts : List String) : List (String × Json) :=
  if texts.isEmpty then [] else [(name, .arr (texts.map .str))]

/-- The schema as JSON. -/
def toJson (s : Schema) : Json :=
  .obj (unlessNone "additionalProperties" s.others ++
    unlessNone "default" s.default ++
    unlessNone "description" (s.description.map .str) ++
    unlessEmpty "enum" s.choices ++
    unlessNone "format" (s.format.map .str) ++
    unlessNone "items" s.items ++
    (if s.nullable then [("nullable", .bool true)] else []) ++
    (if s.properties.isEmpty then [] else [("properties", .obj s.properties)]) ++
    unlessEmpty "required" s.required ++
    [("type", .str s.type)])

/-- Texts. -/
def string : Schema := { type := "string" }

/-- Flags. -/
def boolean : Schema := { type := "boolean" }

/-- Integers of 32 bits. -/
def int32 : Schema := { type := "integer", format := some "int32" }

/-- Integers of 64 bits. -/
def int64 : Schema := { type := "integer", format := some "int64" }

/-- Data of 32 bits. -/
def float : Schema := { type := "number", format := some "float" }

/-- One of some texts. -/
def choice (texts : List String) : Schema := { type := "string", choices := texts }

/-- Lists. -/
def list (item : Schema) : Schema := { type := "array", items := some item.toJson }

/-- Objects with arbitrary members. -/
def dict (value : Schema) : Schema := { type := "object", others := some value.toJson }

/-- Objects with these members, of which some have to be there. -/
def object (properties : List (String × Schema)) (required : List String) : Schema :=
  { type := "object"
    properties := properties.map (fun p => (p.1, p.2.toJson))
    required }

/-- The schema with a description. -/
def about (text : String) (s : Schema) : Schema := { s with description := some text }

/-- The schema with a default. -/
def orElse (default : Json) (s : Schema) : Schema := { s with default := some default }

/-- The schema with null among the values. -/
def orNull (s : Schema) : Schema := { s with nullable := true }

end Schema

end ModelKeeper

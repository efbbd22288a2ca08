import ModelKeeper.Number.Numeral

/-!
# JSON values

A JSON value, with the members of an object in the order in which they are written.

`Json.get?` reads a member, `Json.set` changes one, `Json.same` compares two values (the order of
members does not count), `Json.merge` applies a merge patch, and `Json.pointer?` follows a pointer.
-/

namespace ModelKeeper

/-- A JSON value. -/
inductive Json where
  | null
  | bool (b : Bool)
  | num (n : Number)
  | str (s : String)
  | arr (items : List Json)
  | obj (members : List (String × Json))
  deriving Inhabited, Repr

namespace Json

/-- An integer as a JSON value. -/
def int (n : Int) : Json := .num (.int n)

/-- The first member with this name. -/
def member? (name : String) : List (String × Json) → Option Json
  | [] => none
  | (n, v) :: rest => if n = name then some v else member? name rest

/-- The member of an object with this name. -/
def get? (v : Json) (name : String) : Option Json :=
  match v with
  | .obj members => member? name members
  | _ => none

/-- The members with `v` under `name`: in place if the name occurs, else at the end. -/
def putMember (name : String) (v : Json) : List (String × Json) → List (String × Json)
  | [] => [(name, v)]
  | (n, w) :: rest => if n = name then (n, v) :: rest else (n, w) :: putMember name v rest

/-- The object with `v` under `name`. -/
def set (o : Json) (name : String) (v : Json) : Json :=
  match o with
  | .obj members => .obj (putMember name v members)
  | other => other

mutual

/-- Whether two values are equal.  Objects are compared as maps. -/
def same : Json → Json → Bool
  | .null, .null => true
  | .bool a, .bool b => a == b
  | .num a, .num b => a.same b
  | .str a, .str b => a == b
  | .arr as, .arr bs => sameItems as bs
  | .obj as, .obj bs => as.length == bs.length && sameMembers as bs
  | _, _ => false

def sameItems : List Json → List Json → Bool
  | [], [] => true
  | a :: as, b :: bs => same a b && sameItems as bs
  | _, _ => false

/-- Whether every member on the left has an equal one on the right. -/
def sameMembers : List (String × Json) → List (String × Json) → Bool
  | [], _ => true
  | (name, a) :: as, bs =>
    (match member? name bs with
      | some b => same a b
      | none => false) && sameMembers as bs

end

mutual

/-- A merge patch applied to a value: a patch that is no object replaces it; an object is merged
into it member by member, and a null removes the member. -/
def merge (target : Json) : Json → Json
  | .obj changes =>
    let members := match target with
      | .obj members => members
      | _ => []
    .obj (mergeMembers members changes)
  | patch => patch

def mergeMembers (members : List (String × Json)) :
    List (String × Json) → List (String × Json)
  | [] => members
  | (name, .null) :: changes =>
    mergeMembers (members.filter (fun m => m.1 != name)) changes
  | (name, patch) :: changes =>
    let old := (member? name members).getD .null
    mergeMembers (putMember name (merge old patch) members) changes

end

/-- The reference tokens of a JSON pointer; a text that neither is empty nor starts with a slash is
no pointer. -/
def pointerTokens? (pointer : String) : Option (List String) :=
  if pointer = "" then some []
  else
    match pointer.splitOn "/" with
    | "" :: tokens =>
      some (tokens.map (fun t => (t.replace "~1" "/").replace "~0" "~"))
    | _ => none

/-- The number that a token spells as a position in an array: digits without a leading zero. -/
def position? (token : String) : Option Nat :=
  let digits := token.toList
  if digits.isEmpty || (digits.length != 1 && digits.head? == some '0') then none
  else if digits.all Char.isDigit then
    some (digits.foldl (fun n c => n * 10 + (c.toNat - '0'.toNat)) 0)
  else none

/-- The part of a value that a list of reference tokens leads to. -/
def follow? (v : Json) : List String → Option Json
  | [] => some v
  | token :: rest =>
    match v with
    | .obj members =>
      match member? token members with
      | some w => follow? w rest
      | none => none
    | .arr items =>
      match (position? token).bind (fun i => items[i]?) with
      | some w => follow? w rest
      | none => none
    | _ => none

/-- The part of a value under a JSON pointer. -/
def pointer? (v : Json) (pointer : String) : Option Json :=
  (pointerTokens? pointer).bind (follow? v)

end Json

end ModelKeeper

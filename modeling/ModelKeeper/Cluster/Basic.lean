import ModelKeeper.Cluster.Error

/-!
# The objects of a cluster

A `Cluster` keeps objects of all kinds, each under its namespace and name, and gives every write a
new version.

* `Cluster.create`, `Cluster.update`, `Cluster.updateStatus` and `Cluster.delete` are the operations
  of its clients.  A write that carries a version other than the stored one is refused with a
  conflict, `update` leaves the status alone and `updateStatus` everything else.
* An object with finalizers is only marked by a `delete`; it goes away with the update that leaves
  it without any.
* `Cluster.insert` and `Cluster.modify` put an object there as it is, as another actor would.
* `Cluster.injectConflicts` makes the next writes fail as if another writer had come first.

Every operation gives its answer and the cluster after it.
-/

namespace ModelKeeper

/-- The objects of one kind. -/
abbrev Table (k : Kind) : Type := SortedMap Key (Object k)

/-- The objects of a cluster. -/
structure Cluster where
  tables : (k : Kind) → Table k
  /-- The number of versions that have been given out. -/
  version : Nat := 0
  /-- How many of the next writes fail. -/
  injectedConflicts : Nat := 0

namespace Cluster

variable {k : Kind}

/-- A cluster without objects. -/
def empty : Cluster := { tables := fun _ => .empty }

instance : Inhabited Cluster := ⟨empty⟩

/-- The answer of an operation, and the cluster after it. -/
abbrev Answer (α : Type) : Type := Except AccessError α × Cluster

/-- The cluster with other objects of one kind. -/
def setTable (c : Cluster) (k : Kind) (t : Table k) : Cluster :=
  { c with tables := fun j => if h : j = k then h ▸ t else c.tables j }

/-- The object as it is stored. -/
def stored? (c : Cluster) (k : Kind) (key : Key) : Option (Object k) := (c.tables k).get? key

/-- The cluster with `o` stored under `key`. -/
def store (c : Cluster) (key : Key) (o : Object k) : Cluster :=
  c.setTable k ((c.tables k).insert key o)

/-- The cluster with nothing stored under `key`. -/
def remove (c : Cluster) (k : Kind) (key : Key) : Cluster :=
  c.setTable k ((c.tables k).erase key)

/-- The cluster after another version has been given out. -/
def nextVersion (c : Cluster) : Cluster := { c with version := c.version + 1 }

/-- The last version that was given out. -/
def versionText (c : Cluster) : String := toString c.version

/-- The unique id of an object that gets the last version. -/
def uidText (c : Cluster) : String := "uid-" ++ c.versionText

/-! ### Reading -/

/-- The object under a key. -/
def get (c : Cluster) (k : Kind) (key : Key) : Except AccessError (Object k) :=
  match c.stored? k key with
  | some o => .ok o.settled
  | none => .error (.notFound k.name key)

/-- Whether there is an object under a key. -/
def contains (c : Cluster) (k : Kind) (key : Key) : Bool := (c.stored? k key).isSome

/-- The objects of a kind in a namespace, in the order of their names. -/
def list (c : Cluster) (k : Kind) (ns : String) : List (Object k) :=
  ((c.tables k).entries.filter (fun e => e.1.ns = ns)).map (fun e => e.2.settled)

/-! ### Seeding -/

/-- Stores an object as it is, in place of any other under its key. -/
def insert (c : Cluster) (o : Object k) : Answer (Object k) :=
  match o.requireKey with
  | .error e => (.error e, c)
  | .ok key =>
    let c := c.nextVersion
    let o := { o with
      metadata := { o.metadata with
        version := some c.versionText
        generation := some (o.metadata.generation.getD 1)
        uid := some (o.metadata.uid.getD c.uidText) } }
    (.ok o, c.store key o)

/-- Changes a stored object, as another actor would. -/
def modify (c : Cluster) (k : Kind) (key : Key) (change : Object k → Object k) :
    Answer (Object k) :=
  match c.get k key with
  | .error e => (.error e, c)
  | .ok o =>
    let o := change o
    let c := c.nextVersion
    let o := { o with metadata := { o.metadata with version := some c.versionText } }
    (.ok o, c.store key o)

/-- Makes the next writes of existing objects fail, as many as this. -/
def injectConflicts (c : Cluster) (count : Nat) : Cluster := { c with injectedConflicts := count }

/-! ### Writing -/

/-- Stores an object that is not there yet. -/
def create (c : Cluster) (o : Object k) : Answer (Object k) :=
  match o.requireKey with
  | .error e => (.error e, c)
  | .ok key =>
    if c.contains k key then (.error (.alreadyExists k.name key), c)
    else
      let c := c.nextVersion
      let o := { o with
        metadata := { o.metadata with
          uid := some c.uidText
          version := some c.versionText
          generation := some 1
          deletion := none } }
      (.ok o, c.store key o)

/-- The stored object that a write may replace.  An injected conflict is used up by it. -/
def checkVersion (c : Cluster) (key : Key) (incoming : Object k) : Answer (Object k) :=
  match c.stored? k key with
  | none => (.error (.notFound k.name key), c)
  | some stored =>
    -- even a write with the right version meets an injected conflict
    if c.injectedConflicts ≠ 0 then
      (.error (.conflict k.name key "injected conflict"),
        { c with injectedConflicts := c.injectedConflicts - 1 })
    else if incoming.metadata.version.isNone ∨
        incoming.metadata.version = stored.metadata.version then
      (.ok stored, c)
    else
      (.error (.conflict k.name key
        "the object has been modified; please apply your changes to the latest version"), c)

/-- The generation after a change of what is wanted, in 64 bits. -/
def nextGeneration (g : Int) : Int := Int.bmod (g + 1) 0x10000000000000000

/-- What an update stores: the incoming object with the status, the unique id and the mark of
deletion of the stored one.  The generation grows if something else is wanted. -/
def merged (stored incoming : Object k) (version : String) : Object k :=
  let g := stored.metadata.generation.getD 1
  { incoming with
    status := stored.status
    metadata := { incoming.metadata with
      generation := some (if incoming.sameSpec stored then g else nextGeneration g)
      uid := stored.metadata.uid
      -- a mark that is stored stays as it is, but a new one may come from the caller
      deletion := stored.metadata.deletion <|> incoming.metadata.deletion
      version := some version } }

/-- Replaces everything but the status.  An object that is marked for deletion goes away if this
leaves it without finalizers. -/
def update (c : Cluster) (o : Object k) : Answer (Object k) :=
  match o.requireKey with
  | .error e => (.error e, c)
  | .ok key =>
    match c.checkVersion key o with
    | (.error e, c) => (.error e, c)
    | (.ok stored, c) =>
      let c := c.nextVersion
      let o := merged stored o c.versionText
      if o.isDeleted && o.finalizers.isEmpty then (.ok o.settled, c.remove k key)
      else (.ok o.settled, c.store key o)

/-- Replaces the status. -/
def updateStatus (c : Cluster) (o : Object k) : Answer (Object k) :=
  match o.requireKey with
  | .error e => (.error e, c)
  | .ok key =>
    match c.checkVersion key o with
    | (.error e, c) => (.error e, c)
    | (.ok stored, c) =>
      let c := c.nextVersion
      let o := { stored with
        status := o.status
        metadata := { stored.metadata with version := some c.versionText } }
      (.ok o.settled, c.store key o)

/-- Requests the deletion of an object: it goes away if it has no finalizers, and is marked
otherwise. -/
def delete (c : Cluster) (k : Kind) (key : Key) (now : Instant) : Answer Unit :=
  match c.stored? k key with
  | none => (.error (.notFound k.name key), c)
  | some stored =>
    if stored.finalizers.isEmpty then (.ok (), c.remove k key)
    else if stored.isDeleted then (.ok (), c)
    else
      let c := c.nextVersion
      let o := { stored with
        metadata := { stored.metadata with
          deletion := some now.stamp
          version := some c.versionText } }
      (.ok (), c.store key o)

end Cluster

end ModelKeeper

import ModelKeeper.Operator.Program

/-!
# Amending an object that others write too

`amend` reads an object, changes it and writes it back.  The write carries the version that was
read, so it fails with a conflict if another writer came in between; then everything is done again
with a new read, as often as attempts are left.
-/

namespace ModelKeeper

/-- The part of an object that a write replaces. -/
inductive Half where
  /-- Everything but the status. -/
  | body
  | status
  deriving DecidableEq, Repr

/-- What becomes of an object at a moment: the object then, and whether it has to be written. -/
abbrev Change (k : Kind) : Type := Instant → Object k → Object k × Bool

/-- Writes half of an object. -/
def Half.write {k : Kind} : Half → Object k → Attempt AccessError (Object k)
  | .body, o => Objects.update o
  | .status, o => Objects.updateStatus o

/-- One attempt to amend an object.  `onConflict` is what is done if another writer came first. -/
def amend.attempt (half : Half) (k : Kind) (key : Key) (change : Change k)
    (onConflict : AccessError → Program (Except AccessError (Object k))) :
    Program (Except AccessError (Object k)) := do
  match ← Program.ask (.get k key) with
  | .error e => pure (.error e)
  | .ok o =>
    let now ← Program.ask .now
    let (o, changed) := change now o
    -- without a change nothing is written, so no other writer can be in the way
    if !changed then pure (.ok o)
    else
      match ← (half.write o).outcome with
      | .ok o => pure (.ok o)
      | .error e => if e.isConflict then onConflict e else pure (.error e)

/-- One attempt to amend an object, and as many more after conflicts. -/
def amend.go (half : Half) (k : Kind) (key : Key) (change : Change k) :
    Nat → Program (Except AccessError (Object k))
  | 0 => amend.attempt half k key change (fun e => pure (.error e))
  | retries + 1 =>
    amend.attempt half k key change (fun _ => amend.go half k key change retries)

/-- Amends the object under a key, in at most this many attempts and at least one. -/
def amend (half : Half) (k : Kind) (key : Key) (attempts : Nat) (change : Change k) :
    Attempt AccessError (Object k) :=
  .of (amend.go half k key change (attempts - 1))

end ModelKeeper

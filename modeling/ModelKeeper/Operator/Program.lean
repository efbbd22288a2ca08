import ModelKeeper.Chat.Error
import ModelKeeper.Cluster.Error
import ModelKeeper.Number.Binary
import ModelKeeper.Operator.Event
import ModelKeeper.Operator.Metric

/-!
# Programs

What the operator does is written as a `Program`: a tree of requests to the world around it, each
with what is done after every answer.  A program by itself changes nothing.  A `Handler` answers
requests, and `Program.run` runs a program under one; several programs can be run in turns, request
by request.
-/

namespace ModelKeeper

/-- How to reach a vendor. -/
structure Connection where
  vendor : Vendor
  apiKey : String
  baseUrl : String
  deriving DecidableEq, Repr

/-- An option of a trial request. -/
inductive CallOption where
  | model (name : String)
  | temperature (x : Single)
  | maxTokens (n : Nat)
  deriving DecidableEq, Repr

/-- The answer of a vendor: as text for people, and as bytes to be kept. -/
structure Reply where
  text : String
  bytes : List UInt8
  deriving DecidableEq, Repr

/-- A request to the world. -/
inductive Request where
  | get (k : Kind) (key : Key)
  | create (k : Kind) (o : Object k)
  /-- Replace everything but the status. -/
  | update (k : Kind) (o : Object k)
  /-- Replace the status. -/
  | updateStatus (k : Kind) (o : Object k)
  | delete (k : Kind) (key : Key)
  /-- Look at the clock. -/
  | now
  | emit (e : Event)
  | count (m : Metric)
  /-- See whether there is a client for a vendor. -/
  | connect (c : Connection)
  /-- Try a vendor. -/
  | validate (c : Connection) (options : List CallOption)
  /-- Send parameters to a vendor. -/
  | call (c : Connection) (payload : List UInt8)

/-- The answers to a request. -/
@[reducible]
def Request.Answer : Request → Type
  | .get k _ | .create k _ | .update k _ | .updateStatus k _ => Except AccessError (Object k)
  | .delete _ _ => Except AccessError Unit
  | .now => Instant
  | .emit _ | .count _ => Unit
  | .connect _ => Except ChatError Unit
  | .validate _ _ | .call _ _ => Except ChatError Reply

/-- A computation that makes requests. -/
inductive Program (α : Type) : Type where
  | done (a : α)
  | step (r : Request) (next : r.Answer → Program α)

namespace Program

variable {α β : Type}

/-- One program, then another that depends on its result. -/
def bind : Program α → (α → Program β) → Program β
  | .done a, f => f a
  | .step r next, f => .step r (fun answer => bind (next answer) f)

instance : Monad Program where
  pure := .done
  bind := bind

/-- The program that makes one request. -/
def ask (r : Request) : Program r.Answer := .step r .done

end Program

/-- Something that answers requests and keeps a state. -/
structure Handler (σ : Type) where
  answer : (r : Request) → σ → r.Answer × σ

/-- The result of a program under a handler, and the state after it. -/
def Program.run {σ α : Type} (h : Handler σ) : Program α → σ → α × σ
  | .done a, s => (a, s)
  | .step r next, s =>
    let (answer, s) := h.answer r s
    (next answer).run h s

/-! ### Requests that may fail -/

/-- A program that may fail. -/
abbrev Attempt (ε α : Type) : Type := ExceptT ε Program α

namespace Attempt

variable {ε α : Type}

/-- The result of a program that gives one or fails. -/
def of (p : Program (Except ε α)) : Attempt ε α := p

/-- A program that does not fail. -/
def always (p : Program α) : Attempt ε α := ExceptT.lift p

/-- The outcome of a program that may fail, which is then at hand instead of ending the program. -/
def outcome (p : Attempt ε α) : Program (Except ε α) := p

/-- The program with its errors turned into others. -/
def mapError {δ : Type} (f : ε → δ) (p : Attempt ε α) : Attempt δ α :=
  of (p.outcome.bind (fun r => .done (r.mapError f)))

end Attempt

namespace Objects

/-- The object under a key. -/
def get (k : Kind) (key : Key) : Attempt AccessError (Object k) :=
  .of (.ask (.get k key))

/-- The object under a key, if there is one. -/
def find? (k : Kind) (key : Key) : Attempt AccessError (Option (Object k)) :=
  .of do
    match ← Program.ask (.get k key) with
    | .ok o => pure (.ok (some o))
    | .error e => pure (if e.isNotFound then .ok none else .error e)

def create {k : Kind} (o : Object k) : Attempt AccessError (Object k) :=
  .of (.ask (.create k o))

def update {k : Kind} (o : Object k) : Attempt AccessError (Object k) :=
  .of (.ask (.update k o))

def updateStatus {k : Kind} (o : Object k) : Attempt AccessError (Object k) :=
  .of (.ask (.updateStatus k o))

def delete (k : Kind) (key : Key) : Attempt AccessError Unit :=
  .of (.ask (.delete k key))

end Objects

/-- Reports about an object. -/
def report (subject : Subject) (reason message : String) : Program Unit :=
  .ask (.emit ⟨subject, .normal, reason, message⟩)

end ModelKeeper

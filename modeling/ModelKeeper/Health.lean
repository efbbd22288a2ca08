/-!
# The operator's own server

The operator answers requests about itself: its metrics, whether it is alive, and whether it is
ready.
-/

namespace ModelKeeper.Health

/-- What the server has under a path. -/
inductive Page where
  | metrics
  | alive
  | ready
  deriving DecidableEq, Repr

/-- The answer of the server, without its body. -/
structure Answer where
  status : Nat
  contentType : Option String := none
  /-- The methods that would have been allowed. -/
  allow : Option String := none
  deriving DecidableEq, Repr

/-- The page under a path; what follows a question mark does not count. -/
def page? (path : String) : Option Page :=
  match String.ofList (path.toList.takeWhile (· != '?')) with
  | "/metrics" => some .metrics
  | "/healthz" => some .alive
  | "/readyz" => some .ready
  | _ => none

/-- The answer to a request.  Pages can be read, but nothing else can be done with them. -/
def answer (isReady : Bool) (method path : String) : Answer :=
  match page? path with
  | none => { status := 404 }
  | some page =>
    if method != "GET" && method != "HEAD" then { status := 405, allow := some "GET,HEAD" }
    else
      match page with
      | .metrics =>
        { status := 200, contentType := some "text/plain; version=0.0.4; charset=utf-8" }
      | .alive => { status := 200 }
      | .ready => { status := if isReady then 200 else 503 }

end ModelKeeper.Health

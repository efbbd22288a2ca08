import ModelKeeper.Api.Publisher
import ModelKeeper.World.Basic

/-!
# Programs with an API server

A `Session` answers the requests of programs with the help of an API server: objects are read and
written there, and events are published there.  `Session.handler` lets programs run in it, for any
exchange with the server.
-/

namespace ModelKeeper

/-- What programs act upon through an API server whose state is of type `σ`, with vendors whose
state is of type `τ`. -/
structure Session (σ τ : Type) where
  server : σ
  clock : Instant := ⟨1700000000, 0⟩
  publisher : Publisher := {}
  counters : Counters := []
  vendors : τ

namespace Session

variable {σ τ : Type}

/-- The session after a call about the object under a key, with the answer. -/
def about {α : Type} (exchange : Api.Exchange σ) (w : Session σ τ) (k : Kind) (key : Key)
    (c : Api.Call α) : Except AccessError α × Session σ τ :=
  let (answer, server) := c.run exchange w.server
  (answer.mapError (·.about k key), { w with server })

/-- The session after a call about an object that has to tell its place, with the answer. -/
def aboutOwn {α : Type} {k : Kind} (exchange : Api.Exchange σ) (w : Session σ τ) (o : Object k)
    (c : Key → Api.Call α) : Except AccessError α × Session σ τ :=
  match o.requireKey with
  | .error e => (.error e, w)
  | .ok key => w.about exchange k key (c key)

/-- The session after an event is published. -/
def publish (exchange : Api.Exchange σ) (w : Session σ τ) (e : Event) : Session σ τ :=
  let (publisher, server) := w.publisher.publish exchange e w.clock w.server
  { w with publisher, server }

/-- The session after a request to a vendor, with the answer. -/
def withVendors {α : Type} (w : Session σ τ) (a : α × τ) : α × Session σ τ :=
  (a.1, { w with vendors := a.2 })

/-- The answer to a request, and the session after it. -/
def answer (exchange : Api.Exchange σ) (v : Vendors τ) :
    (r : Request) → Session σ τ → r.Answer × Session σ τ
  | .get k key, w => w.about exchange k key (Api.get k key)
  | .create _ o, w => w.aboutOwn exchange o (fun key => Api.create key o)
  | .update _ o, w => w.aboutOwn exchange o (fun key => Api.update key o)
  | .updateStatus _ o, w => w.aboutOwn exchange o (fun key => Api.updateStatus key o)
  | .delete k key, w => w.about exchange k key (Api.delete k key)
  | .now, w => (w.clock, w)
  | .emit e, w => ((), w.publish exchange e)
  | .count m, w => ((), { w with counters := w.counters.increment m })
  | .connect c, w => (v.connect c, w)
  | .validate c options, w => w.withVendors (v.validate c options w.vendors)
  | .call c payload, w => w.withVendors (v.call c payload w.vendors)

/-- The session as a place where programs run. -/
def handler (exchange : Api.Exchange σ) (v : Vendors τ) : Handler (Session σ τ) :=
  ⟨answer exchange v⟩

end Session

end ModelKeeper

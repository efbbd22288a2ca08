import ModelKeeper.Api.EventRecord

/-!
# Publishing events

A `Publisher` makes the records of events, and keeps those that may still be changed.  Nothing
depends on whether an event arrives: what the server refuses is lost.
-/

namespace ModelKeeper

/-- What makes two events the same: all but the message. -/
structure EventKey where
  subject : Subject
  type : EventType
  reason : String
  deriving DecidableEq

/-- The event without its message. -/
def Event.key (e : Event) : EventKey := ⟨e.subject, e.type, e.reason⟩

/-- Publishes events. -/
structure Publisher where
  reporter : Reporter := {}
  /-- The records that may still be changed. -/
  recent : List (EventKey × EventRecord) := []

namespace Publisher

/-- The publisher without the records that may no longer be changed. -/
def trim (p : Publisher) (now : Instant) : Publisher :=
  { p with recent := p.recent.filter (fun e => e.2.isOpen now) }

/-- The record for an event: the next one of its series, or a first one. -/
def next (p : Publisher) (e : Event) (now : Instant) : EventRecord :=
  match p.recent.lookup e.key with
  | some r => r.again now
  | none => p.reporter.record e now

/-- The publisher after a record has arrived. -/
def remember (p : Publisher) (key : EventKey) (r : EventRecord) : Publisher :=
  { p with recent := (key, r) :: p.recent.filter (fun e => e.1 ≠ key) }

/-- Publishes an event. -/
def publish {σ : Type} (exchange : Api.Exchange σ) (p : Publisher) (e : Event) (now : Instant)
    (s : σ) : Publisher × σ :=
  let p := p.trim now
  let r := p.next e now
  match r.publish.run exchange s with
  | (.ok (), s) => (p.remember e.key r, s)
  | (.error _, s) => (p, s)

end Publisher

end ModelKeeper

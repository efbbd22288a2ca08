import ModelKeeper.Api.Objects
import ModelKeeper.Operator.Event

/-!
# Events on the API server

On the API server an event is an object of its own, an `EventRecord`.  When the same is reported
again within a few minutes (`EventRecord.isOpen`), no other record is made: the first one is changed
to tell how often it was seen, and when for the last time (`EventRecord.again`).
-/

namespace ModelKeeper

namespace Instant

/-- The moment to the microsecond: `2023-11-14T22:13:20.000000Z`. -/
def microText (t : Instant) : String :=
  t.secondText ++ "." ++ padded 6 (t.nanos % nanosPerSecond / 1000) ++ "Z"

/-- A moment, written to the microsecond. -/
def microCodec : Codec Instant where
  write t := .str t.microText
  read := codec.read

/-- Some seconds later. -/
def plus (t : Instant) (seconds : Nat) : Instant := { t with seconds := t.seconds + seconds }

/-- Whether a moment is before another one. -/
def isBefore (t u : Instant) : Bool :=
  t.seconds < u.seconds || (t.seconds = u.seconds && t.nanos < u.nanos)

/-- The moment in nanoseconds; in seconds, if these are too many for 64 bits. -/
def tick (t : Instant) : Int :=
  let nanos := t.seconds * nanosPerSecond + t.nanos
  if -0x8000000000000000 ≤ nanos ∧ nanos < 0x8000000000000000 then nanos else t.seconds

/-- The moment as a part of a name: its tick in hexadecimal digits, modulo 64 bits. -/
def tickText (t : Instant) : String :=
  String.ofList (Nat.toDigits 16 (t.tick % 0x10000000000000000).toNat)

end Instant

/-- An object, or a part of one, as events refer to it. -/
structure Regarded where
  apiVersion : Option String := none
  fieldPath : Option String := none
  kind : Option String := none
  name : Option String := none
  ns : Option String := none
  version : Option String := none
  uid : Option String := none
  deriving DecidableEq

/-- How often an event was seen, and when for the last time. -/
structure EventSeries where
  count : Int
  lastSeen : Instant
  deriving DecidableEq

/-- Who reported an event, as it was told before there were reporters. -/
structure EventOrigin where
  component : Option String := none
  host : Option String := none
  deriving DecidableEq

/-- An event on the server.  How often it was seen, when and by whom was told in another way before;
records may still have those parts. -/
structure EventRecord where
  metadata : Metadata := {}
  time : Option Instant := none
  action : Option String := none
  reason : Option String := none
  note : Option String := none
  type : Option String := none
  regarding : Option Regarded := none
  related : Option Regarded := none
  controller : Option String := none
  instanceName : Option String := none
  series : Option EventSeries := none
  formerCount : Option Int := none
  formerFirst : Option Instant := none
  formerLast : Option Instant := none
  formerOrigin : Option EventOrigin := none
  deriving DecidableEq

def Regarded.codec : Codec Regarded :=
  .lenient "ObjectReference"
    (.cons (.optional "apiVersion" .string) <|
      .cons (.optional "fieldPath" .string) <|
      .cons (.optional "kind" .string) <|
      .cons (.optional "name" .string) <|
      .cons (.optional "namespace" .string) <|
      .cons (.optional "resourceVersion" .string) <|
      .cons (.optional "uid" .string) .nil)
    (fun r => (r.apiVersion, r.fieldPath, r.kind, r.name, r.ns, r.version, r.uid, ()))
    (fun (apiVersion, fieldPath, kind, name, ns, version, uid, ()) =>
      ⟨apiVersion, fieldPath, kind, name, ns, version, uid⟩)

def EventSeries.codec : Codec EventSeries :=
  .lenient "EventSeries"
    (.cons (.withDefault "count" .int32 0) <|
      .cons (.required "lastObservedTime" Instant.microCodec) .nil)
    (fun s => (s.count, s.lastSeen, ()))
    (fun (count, lastSeen, ()) => ⟨count, lastSeen⟩)

def EventOrigin.codec : Codec EventOrigin :=
  .lenient "EventSource"
    (.cons (.optional "component" .string) <|
      .cons (.optional "host" .string) .nil)
    (fun o => (o.component, o.host, ()))
    (fun (component, host, ()) => ⟨component, host⟩)

def EventRecord.codec : Codec EventRecord :=
  .checked "events.k8s.io/v1" "Event" <|
    .lenient "Event"
      (.cons (.optional "action" .string) <|
        .cons (.optional "deprecatedCount" .int32) <|
        .cons (.optional "deprecatedFirstTimestamp" Instant.codec) <|
        .cons (.optional "deprecatedLastTimestamp" Instant.codec) <|
        .cons (.optional "deprecatedSource" EventOrigin.codec) <|
        .cons (.optional "eventTime" Instant.microCodec) <|
        .cons (.withDefault "metadata" Metadata.codec {}) <|
        .cons (.optional "note" .string) <|
        .cons (.optional "reason" .string) <|
        .cons (.optional "regarding" Regarded.codec) <|
        .cons (.optional "related" Regarded.codec) <|
        .cons (.optional "reportingController" .string) <|
        .cons (.optional "reportingInstance" .string) <|
        .cons (.optional "series" EventSeries.codec) <|
        .cons (.optional "type" .string) .nil)
      (fun r => (r.action, r.formerCount, r.formerFirst, r.formerLast, r.formerOrigin, r.time,
        r.metadata, r.note, r.reason, r.regarding, r.related, r.controller, r.instanceName,
        r.series, r.type, ()))
      (fun (action, formerCount, formerFirst, formerLast, formerOrigin, time, metadata, note,
          reason, regarding, related, controller, instanceName, series, type, ()) =>
        { metadata, time, action, reason, note, type, regarding, related, controller,
          instanceName, series, formerCount, formerFirst, formerLast, formerOrigin })

/-- Who reports. -/
structure Reporter where
  controller : String := "llm-operator"
  /-- The one of several reporters, if they have names. -/
  instanceName : Option String := none
  deriving DecidableEq

/-- The object that an event is about as the record refers to it. -/
def Subject.regarded (s : Subject) : Regarded where
  apiVersion := some s.kind.apiVersion
  kind := some s.kind.name
  name := s.name
  ns := s.ns
  uid := s.uid

/-- The name of an event type. -/
def EventType.name : EventType → String
  | .normal => "Normal"
  | .warning => "Warning"

/-- The first record of an event. -/
def Reporter.record (r : Reporter) (e : Event) (now : Instant) : EventRecord where
  metadata :=
    { name := some (e.subject.name.getD r.controller ++ "." ++ now.tickText)
      ns := e.subject.ns }
  time := some now
  action := some "Reconcile"
  reason := some e.reason
  note := some e.message
  type := some e.type.name
  regarding := some e.subject.regarded
  controller := some r.controller
  instanceName := some (r.instanceName.getD r.controller)

namespace EventRecord

/-- The record of an event that was seen once more. -/
def again (r : EventRecord) (now : Instant) : EventRecord :=
  let count := match r.series with
    | some s => s.count + 1
    | none => 2
  { r with series := some ⟨count, now⟩ }

/-- When the event was seen for the last time. -/
def lastSeen (r : EventRecord) : Option Instant :=
  match r.series with
  | some s => some s.lastSeen
  | none => r.time

/-- How many seconds a record may still be changed after the event was seen. -/
def seriesSpan : Nat := 360

/-- Whether the record may still be changed. -/
def isOpen (r : EventRecord) (now : Instant) : Bool :=
  match r.lastSeen with
  | some t => now.isBefore (t.plus seriesSpan)
  | none => true

/-- The namespace in which the record is kept. -/
def home (r : EventRecord) : String := r.metadata.ns.getD "default"

/-- The path of the records in the namespace. -/
def collectionPath (r : EventRecord) : String :=
  s!"/apis/events.k8s.io/v1/namespaces/{r.home}/events"

/-- Publishes a record: a first one is new, one of a series is changed. -/
def publish (r : EventRecord) : Api.Call Unit where
  request :=
    if r.series.isSome then
      let name := r.metadata.name.getD ""
      Api.change .patch s!"{r.collectionPath}/{name}" .mergePatch (codec.write r)
    else Api.change .post r.collectionPath .json (codec.write r)
  read body := (codec.readText body).toOption.map (fun _ => ())

end EventRecord

end ModelKeeper

import ModelKeeper.Number.Power
import ModelKeeper.Operator.Schedule
import ModelKeeper.SortedMap
import ModelKeeper.Text.Utf8

/-!
# Settings

How the operator works, as set by environment variables (`Settings.ofEnvironment`).  A variable that
is not set, that is no text, or that does not spell a number of the right size, leaves its setting
at the default.
-/

namespace ModelKeeper

/-- How the operator works. -/
structure Settings where
  intervals : Intervals := {}
  /-- How often a write is tried when others come first. -/
  writeAttempts : Nat := 5
  metricsPort : Nat := 5000
  serverStartupTimeout : Duration := ⟨10, 0⟩
  /-- In milliseconds. -/
  serverPollInterval : Nat := 50
  logLevel : String := "INFO"
  logFormat : String := "json"
  /-- How many objects of a kind are passed over at the same time. -/
  concurrency : Nat := 10
  storageSize : String := "100Gi"
  storageClass : Option String := none
  image : String := "ollama/ollama"
  requestTimeout : Duration := ⟨300, 0⟩
  /-- The name under which events are reported. -/
  controllerName : String := "llm-operator"
  deriving DecidableEq, Repr

instance : Inhabited Settings := ⟨{}⟩

namespace Settings

/-- The number of at most `bits` bits that a text spells: digits, and maybe a plus sign before them.
-/
def wordOfText? (bits : Nat) (s : String) : Option Nat :=
  let digits := match s.toList with
    | '+' :: rest => rest
    | cs => cs
  if digits.isEmpty || !digits.all Char.isDigit then none
  else
    let n := digits.foldl (fun n c => n * 10 + (c.toNat - '0'.toNat)) 0
    if n < twoTo bits then some n else none

/-- The settings that these environment variables make. -/
def ofEnvironment (env : Dict (List UInt8)) : Settings :=
  let text? (name : String) : Option String := (env.get? name).bind Utf8.decode?
  let text (name default : String) : String := (text? name).getD default
  let word (bits : Nat) (name : String) (default : Nat) : Nat :=
    ((text? name).bind (wordOfText? bits)).getD default
  let span (name : String) (default : Nat) : Duration := ⟨word 64 name default, 0⟩
  { intervals :=
      { short := span "REQUEUE_SHORT_SECS" 3
        medium := span "REQUEUE_MEDIUM_SECS" 60
        long := span "REQUEUE_LONG_SECS" 3600 }
    writeAttempts := max (word 32 "STATUS_UPDATE_RETRIES" 5) 1
    metricsPort := word 16 "METRICS_PORT" 5000
    serverStartupTimeout := span "SERVER_STARTUP_TIMEOUT_SECS" 10
    serverPollInterval := word 64 "SERVER_POLL_INTERVAL_MS" 50
    logLevel := text "LOG_LEVEL" "INFO"
    logFormat := text "LOG_FORMAT" "json"
    concurrency := word 16 "MAX_CONCURRENT_RECONCILIATIONS" 10
    storageSize := text "IMAGE_STORE_STORAGE_SIZE" "100Gi"
    storageClass := (text? "IMAGE_STORE_STORAGE_CLASS").filter (· != "")
    image := text "IMAGE_STORE_IMAGE" "ollama/ollama"
    requestTimeout := span "LLM_REQUEST_TIMEOUT_SECS" 300
    controllerName := text "CONTROLLER_NAME" "llm-operator" }

end Settings

/-! ### Logging -/

/-- The form of log lines. -/
inductive LogFormat where
  | json
  | text
  deriving DecidableEq, Repr

namespace LogFormat

/-- Everything but the word text, in any case, means JSON. -/
def ofName (s : String) : LogFormat := if s.map Char.toLower = "text" then .text else .json

def name : LogFormat → String
  | .json => "json"
  | .text => "text"

/-- Which lines are logged at a level. -/
def directive (level : String) : String := "llm_operator=" ++ level.map Char.toLower

end LogFormat

end ModelKeeper

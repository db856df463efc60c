import CertWatch.Config
import CertWatch.Time.Reading

/-!
# Settings from the environment

The embedding program takes its settings from environment variables. The first fault in the order of
the variables below ends the start-up.
-/

namespace CertWatch.Startup
set_option autoImplicit false

/-- The variables of a process. -/
abbrev Environment := String → Option String

/-- Why a text is no natural number below 2^64. -/
inductive WordFault where
  | empty
  | badDigit
  | tooLarge
  deriving DecidableEq, Repr

/-- The fault in words. -/
def WordFault.message : WordFault → String
  | empty => "cannot parse integer from empty string"
  | badDigit => "invalid digit found in string"
  | tooLarge => "number too large to fit in target type"

/-- Reads decimal digits after the number `n`, from left to right. -/
def wordFrom : Nat → List Char → Except WordFault Nat
  | n, [] => .ok n
  | n, c :: rest =>
    if !c.isDigit then .error .badDigit
    else
      let n' := 10 * n + (c.toNat - 48)
      if n' < 0x10000000000000000 then wordFrom n' rest else .error .tooLarge

/-- Reads a natural number below 2^64, which may have a plus sign. -/
def word (cs : List Char) : Except WordFault Nat :=
  match cs with
  | [] => .error .empty
  | ['+'] => .error .badDigit
  | '+' :: rest => wordFrom 0 rest
  | _ => wordFrom 0 cs

/-- A fault of the environment. -/
inductive Fault where
  | notATime (raw : String) (fault : Timestamp.Fault)
  | notAWord (name : String) (raw : String) (fault : WordFault)
  | notALevel (raw : String)
  | refused (failure : Failure)
  deriving DecidableEq, Repr

/-- The fault in words. -/
def Fault.message : Fault → String
  | notATime raw fault =>
    "CERTSYNC_KEY_PREFIX_REFRESH_BEFORE '" ++ raw ++ "' is not RFC 3339: " ++ fault.message
  | notAWord name raw fault => name ++ " '" ++ raw ++ "' is not valid: " ++ fault.message
  | notALevel raw =>
    "CERTSYNC_LOG_LEVEL '" ++ raw ++ "' is not valid. Valid levels: trace, debug, info, warn, error"
  | refused failure => "Invalid certsync configuration: " ++ failure.message

/-- A variable that holds a number. -/
def wordVariable (env : Environment) (name : String) : Except Fault (Option Nat) :=
  match env name with
  | none => .ok none
  | some raw =>
    match word (Text.trim raw).toList with
    | .ok n => .ok (some n)
    | .error fault => .error (.notAWord name raw fault)

/-- The cutoff for stored prefixes. -/
def refreshVariable (env : Environment) : Except Fault (Option Timestamp) :=
  match env "CERTSYNC_KEY_PREFIX_REFRESH_BEFORE" with
  | none => .ok none
  | some raw =>
    match Timestamp.ofRfc3339 raw with
    | .ok t => .ok (some t)
    | .error fault => .error (.notATime raw fault)

/-- The names of the log levels. -/
def levels : List String := ["trace", "debug", "info", "warn", "error"]

/-- The log level, in any case. -/
def levelVariable (env : Environment) : Except Fault Unit :=
  let raw := (env "CERTSYNC_LOG_LEVEL").getD "info"
  if String.ofList (raw.toList.map Char.toLower) ∈ levels then .ok () else .error (.notALevel raw)

/-- The settings of the environment. -/
def settings (env : Environment) : Except Fault Config := do
  let fixed := (env "CERTSYNC_KEY_PREFIX").filter fun p => !Text.blank p
  let base := Config.default (env "HOSTNAME")
  let refresh ← refreshVariable env
  let recordMs ← wordVariable env "CERTSYNC_RECORD_POLL_MS"
  let bundleMs ← wordVariable env "CERTSYNC_GROUP_POLL_MS"
  levelVariable env
  let _ ← wordVariable env "CERTSYNC_DEMO_SECS"
  let config : Config := { base with
    allocation := { base.allocation with
      host := (env "CERTSYNC_HOST").getD base.allocation.host
      staticPrefix := fixed
      refreshBefore := refresh }
    sealing := { secret := env "CERTSYNC_AES_KEY" }
    records := { intervalMs := recordMs.getD base.records.intervalMs }
    bundles := { base.bundles with intervalMs := bundleMs.getD base.bundles.intervalMs } }
  match config.validate with
  | .ok () => .ok config
  | .error failure => .error (.refused failure)

/-- The exit code and the text for standard error of a start from the environment. -/
def run (env : Environment) : Nat × String :=
  match settings env with
  | .ok _ => (0, "")
  | .error fault => (1, "Configuration error: " ++ fault.message ++ "\n")

end CertWatch.Startup

import CertWatch.Sealing
import CertWatch.Time.Timestamp

/-!
# Settings

The settings of the watching service, their defaults and their validation. Validation stops at the
first fault; `Config.Invalid.message` words it.
-/

namespace CertWatch
set_option autoImplicit false

namespace Config

/-- A fault of the settings. -/
inductive Invalid where
  | blankStaticPrefix
  | blankHost
  | noLease
  | noRetryDelay
  | noPollInterval (part : String)
  | blankRootFolder
  | noRoles
  | blankRole
  | repeatedRole (role : String)
  | noErrorInterval
  deriving DecidableEq, Repr

/-- The fault in words. -/
def Invalid.message : Invalid → String
  | blankStaticPrefix => "Static key prefix cannot be blank"
  | blankHost => "Namespace host cannot be empty"
  | noLease => "lock_lease_secs must be > 0"
  | noRetryDelay => "lock_retry_delay_ms must be > 0"
  | noPollInterval part => part ++ ".poll_interval_ms must be > 0"
  | blankRootFolder => "Group root folder cannot be empty"
  | noRoles => "At least one group role is required"
  | blankRole => "Group role cannot be blank"
  | repeatedRole role => "Duplicate group role: " ++ role
  | noErrorInterval => "decrypt_error_log_interval_secs must be > 0"

/-- The fault as a failure. -/
def Invalid.failure (i : Invalid) : Failure := .validation i.message

/-- The host that settings name by default: the machine's name unless it is blank. -/
def defaultHost (hostname : Option String) : String :=
  match hostname with
  | some name => if Text.blank name then "localhost" else name
  | none => "localhost"

end Config

open Config (Invalid)

/-- How the namespace prefix is found. -/
structure NamespaceConfig where
  /-- The host; it names the stored prefix and begins generated ones. -/
  host : String
  /-- A fixed prefix, which needs no coordination. -/
  staticPrefix : Option String := none
  /-- Stored prefixes that are older are replaced. -/
  refreshBefore : Option Timestamp := none
  /-- The length of the allocation lease in seconds. -/
  leaseSeconds : Nat := 10
  /-- The pause between two attempts to take the lease, in milliseconds. -/
  retryDelayMs : Nat := 100
  /-- How long to try for the lease, in seconds; for ever if absent. -/
  acquireTimeoutSeconds : Option Nat := none
  deriving DecidableEq, Repr

/-- A fixed prefix makes all other settings irrelevant. -/
def NamespaceConfig.validate (c : NamespaceConfig) : Except Invalid Unit :=
  match c.staticPrefix with
  | some fixed => if Text.blank fixed then .error .blankStaticPrefix else .ok ()
  | none =>
    if Text.blank c.host then .error .blankHost
    else if c.leaseSeconds = 0 then .error .noLease
    else if c.retryDelayMs = 0 then .error .noRetryDelay
    else .ok ()

/-- How values are sealed. -/
structure SealConfig where
  /-- The secret; without one, values are stored in the open. -/
  secret : Option String := none
  deriving DecidableEq, Repr

/-- The key of the secret, if there is one. -/
def SealConfig.key (c : SealConfig) : Except Failure (Option SealKey) :=
  match c.secret with
  | none => .ok none
  | some s => (SealKey.ofSecret s).map some

/-- Whether the secret is acceptable. -/
def SealConfig.validate (c : SealConfig) : Except Failure Unit := c.key.map fun _ => ()

/-- What a developer sees of the settings: not the secret. -/
def SealConfig.summary (c : SealConfig) : String :=
  "CryptoConfig \x7b aes_key: " ++
    (if c.secret.isSome then "Some(\"[REDACTED]\")" else "None") ++ " \x7d"

/-- How often records are polled. -/
structure PollConfig where
  /-- The time between two polls, in milliseconds. -/
  intervalMs : Nat := 1000
  deriving DecidableEq, Repr

/-- The interval has to be positive. -/
def PollConfig.validate (c : PollConfig) (part : String) : Except Invalid Unit :=
  if c.intervalMs = 0 then .error (.noPollInterval part) else .ok ()

/-- How bundles are put together. -/
structure BundleConfig where
  /-- The time between two polls, in milliseconds. -/
  intervalMs : Nat := 5000
  /-- The first segment under the namespace of every record that belongs to a bundle. -/
  rootFolder : String := "certificates"
  /-- The roles that a bundle needs, by file extension. -/
  roles : List String := ["json", "key", "crt"]
  deriving DecidableEq, Repr

/-- Roles must not be blank, and none may occur after itself in `seen`. -/
def BundleConfig.validateRoles : List String → List String → Except Invalid Unit
  | _, [] => .ok ()
  | seen, role :: rest =>
    if Text.blank role then .error .blankRole
    else if role ∈ seen then .error (.repeatedRole role)
    else validateRoles (role :: seen) rest

/-- Whether the settings can make bundles. -/
def BundleConfig.validate (c : BundleConfig) : Except Invalid Unit :=
  if c.intervalMs = 0 then .error (.noPollInterval "groups")
  else if Text.blank c.rootFolder then .error .blankRootFolder
  else if c.roles = [] then .error .noRoles
  else validateRoles [] c.roles

/-- The settings of the service. -/
structure Config where
  allocation : NamespaceConfig
  sealing : SealConfig := {}
  records : PollConfig := {}
  bundles : BundleConfig := {}
  /-- For how long a repeated failure to open a value is not logged again, in seconds. -/
  errorIntervalSeconds : Nat := 10
  deriving DecidableEq, Repr

namespace Config

/-- The default settings on a machine. -/
def default (hostname : Option String) : Config :=
  { allocation := { host := defaultHost hostname } }

/-- Turns a fault into a failure. -/
def orFail (r : Except Invalid Unit) : Except Failure Unit := r.mapError Invalid.failure

/-- Whether the settings are acceptable; the first fault in the order of the parts. -/
def validate (c : Config) : Except Failure Unit := do
  orFail c.allocation.validate
  c.sealing.validate
  orFail (c.records.validate "records")
  orFail c.bundles.validate
  if c.errorIntervalSeconds = 0 then .error Invalid.noErrorInterval.failure else .ok ()

end Config
end CertWatch

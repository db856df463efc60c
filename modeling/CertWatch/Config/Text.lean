import CertWatch.Config
import CertWatch.Json.Record
import CertWatch.Time.Reading

/-!
# Settings as JSON

Settings are read from JSON records whose missing fields take their defaults, and written with every
field in its order. What is written is read back as the same settings.
-/

namespace CertWatch
set_option autoImplicit false

namespace Timestamp

/-- Reads a timestamp in a JSON string. -/
def read (bs : Bytes) : Option Timestamp := do (ofRelaxed (← Json.readString bs)).toOption

/-- The JSON text of a timestamp. -/
def jsonText (t : Timestamp) : List Char := Json.quote t.toZuluText

end Timestamp

namespace NamespaceConfig

/-- The field names, in order. -/
def fieldNames : List String :=
  ["host", "static_prefix", "refresh_before", "lock_lease_secs", "lock_retry_delay_ms",
   "lock_acquire_timeout_secs"]

/-- Reads the settings; the host defaults to the machine's. -/
def read (hostname : Option String) (bs : Bytes) : Option NamespaceConfig := do
  let field ← Json.fields? fieldNames bs
  return {
    host := ← Json.fieldOr (Config.defaultHost hostname) Json.readString (field "host")
    staticPrefix := ← Json.fieldOr none (Json.readOption Json.readString) (field "static_prefix")
    refreshBefore := ← Json.fieldOr none (Json.readOption Timestamp.read) (field "refresh_before")
    leaseSeconds := ← Json.fieldOr 10 Json.readWord (field "lock_lease_secs")
    retryDelayMs := ← Json.fieldOr 100 Json.readWord (field "lock_retry_delay_ms")
    acquireTimeoutSeconds :=
      ← Json.fieldOr none (Json.readOption Json.readWord) (field "lock_acquire_timeout_secs") }

/-- The JSON text of the settings. -/
def text (c : NamespaceConfig) : List Char :=
  Json.recordText [
    ("host", Json.quote c.host),
    ("static_prefix", Json.optionText Json.quote c.staticPrefix),
    ("refresh_before", Json.optionText Timestamp.jsonText c.refreshBefore),
    ("lock_lease_secs", Json.wordText c.leaseSeconds),
    ("lock_retry_delay_ms", Json.wordText c.retryDelayMs),
    ("lock_acquire_timeout_secs", Json.optionText Json.wordText c.acquireTimeoutSeconds)]

end NamespaceConfig

namespace SealConfig

/-- Reads the settings. -/
def read (bs : Bytes) : Option SealConfig := do
  let field ← Json.fields? ["aes_key"] bs
  return { secret := ← Json.fieldOr none (Json.readOption Json.readString) (field "aes_key") }

/-- The JSON text of the settings. -/
def text (c : SealConfig) : List Char :=
  Json.recordText [("aes_key", Json.optionText Json.quote c.secret)]

end SealConfig

namespace PollConfig

/-- Reads the settings. -/
def read (bs : Bytes) : Option PollConfig := do
  let field ← Json.fields? ["poll_interval_ms"] bs
  return { intervalMs := ← Json.fieldOr 1000 Json.readWord (field "poll_interval_ms") }

/-- The JSON text of the settings. -/
def text (c : PollConfig) : List Char :=
  Json.recordText [("poll_interval_ms", Json.wordText c.intervalMs)]

end PollConfig

namespace BundleConfig

/-- Reads the settings. -/
def read (bs : Bytes) : Option BundleConfig := do
  let field ← Json.fields? ["poll_interval_ms", "root_folder", "roles"] bs
  return {
    intervalMs := ← Json.fieldOr 5000 Json.readWord (field "poll_interval_ms")
    rootFolder := ← Json.fieldOr "certificates" Json.readString (field "root_folder")
    roles := ← Json.fieldOr ["json", "key", "crt"] Json.readStrings (field "roles") }

/-- The JSON text of the settings. -/
def text (c : BundleConfig) : List Char :=
  Json.recordText [
    ("poll_interval_ms", Json.wordText c.intervalMs),
    ("root_folder", Json.quote c.rootFolder),
    ("roles", Json.listText (c.roles.map Json.quote))]

end BundleConfig

namespace Config

/-- The field names, in order. -/
def fieldNames : List String :=
  ["namespace", "crypto", "records", "groups", "decrypt_error_log_interval_secs"]

/-- Reads settings; the host defaults to the machine's. -/
def read (hostname : Option String) (bs : Bytes) : Option Config := do
  let field ← Json.fields? fieldNames bs
  return {
    allocation := ← Json.fieldOr (Config.default hostname).allocation
      (NamespaceConfig.read hostname)
      (field "namespace")
    sealing := ← Json.fieldOr {} SealConfig.read (field "crypto")
    records := ← Json.fieldOr {} PollConfig.read (field "records")
    bundles := ← Json.fieldOr {} BundleConfig.read (field "groups")
    errorIntervalSeconds :=
      ← Json.fieldOr 10 Json.readWord (field "decrypt_error_log_interval_secs") }

/-- The JSON text of settings. -/
def text (c : Config) : List Char :=
  Json.recordText [
    ("namespace", c.allocation.text),
    ("crypto", c.sealing.text),
    ("records", c.records.text),
    ("groups", c.bundles.text),
    ("decrypt_error_log_interval_secs", Json.wordText c.errorIntervalSeconds)]

end Config
end CertWatch

import CertWatch.Startup

/-!
# The command

Starts from the variables of the environment and tells on standard error what is wrong with them.
-/

open CertWatch

/-- The variables that a start looks at. -/
def startupVariables : List String :=
  ["HOSTNAME", "CERTSYNC_HOST", "CERTSYNC_KEY_PREFIX", "CERTSYNC_KEY_PREFIX_REFRESH_BEFORE",
    "CERTSYNC_RECORD_POLL_MS", "CERTSYNC_GROUP_POLL_MS", "CERTSYNC_LOG_LEVEL", "CERTSYNC_AES_KEY",
    "CERTSYNC_DEMO_SECS"]

def main : IO UInt32 := do
  let values ← startupVariables.mapM fun name => do return (name, ← IO.getEnv name)
  let (code, message) := Startup.run fun name => (values.find? fun v => v.1 = name).bind Prod.snd
  IO.eprint message
  return UInt32.ofNat code

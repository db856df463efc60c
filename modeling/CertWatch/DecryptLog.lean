import CertWatch.Digest
import CertWatch.Failure
import CertWatch.Text.Utf8

/-!
# The log of failures to open values

A value that cannot be opened is met again at every poll. The log writes one line for it and then
keeps silent about the same key with the same bytes for a window of time.
-/

namespace CertWatch
set_option autoImplicit false

/-- The log: the length of its window, what was logged when within the window, and how many lines it
has written. Times and lengths are in nanoseconds. -/
structure DecryptLog where
  interval : Nat
  seen : List (Digest × Nat) := []
  emitted : Nat := 0
  deriving DecidableEq

namespace DecryptLog

/-- The line for a failure to open the value of a key. -/
def line (key : String) (failure : DecryptFailure) : String :=
  "failed to decrypt key value. key:" ++ key ++ " error:" ++ failure.reason

/-- What stands for a key with its bytes. -/
def fingerprint (key : String) (cipher : Bytes) : Digest :=
  Digest.ofFields [Utf8.encode key, cipher]

/-- The entries that are younger than the window. -/
def current (log : DecryptLog) (now : Nat) : List (Digest × Nat) :=
  log.seen.filter fun e => now - e.2 < log.interval

/-- Takes note of a failure at a time; the answer is whether a line is written. -/
def record (log : DecryptLog) (now : Nat) (key : String) (cipher : Bytes) : DecryptLog × Bool :=
  let seen := log.current now
  let mark := fingerprint key cipher
  if seen.any fun e => e.1 = mark then ({ log with seen := seen }, false)
  else ({ log with seen := (mark, now) :: seen, emitted := log.emitted + 1 }, true)

end DecryptLog
end CertWatch

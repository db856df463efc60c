/-!
# Notices

Lines that the service writes to its log for an operator: warnings about what will be tried again,
and errors about what was lost.
-/

namespace CertWatch
set_option autoImplicit false

/-- A line of the log. -/
inductive Notice where
  | warning (text : String)
  | error (text : String)
  deriving DecidableEq, Repr

/-- The line as it is written: its level and its text. -/
def Notice.line : Notice → String
  | warning text => "WARN " ++ text
  | error text => "ERROR " ++ text

end CertWatch

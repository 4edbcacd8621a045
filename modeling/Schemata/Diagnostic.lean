/-!
# Diagnostics

What a failure tells its reader: a message, a stable code for tools, and, where there is advice
to give, a line of help.
-/

namespace Schemata

/-- The report of a failure. -/
structure Diagnostic where
  /-- What went wrong. -/
  message : String
  /-- The stable code of the kind of failure. -/
  code : String
  /-- Advice, if there is any. -/
  help : Option String := none
  deriving DecidableEq

end Schemata

/-!
This module contains log records.
-/

namespace ReactiveView

/--
The levels of log records.
-/
inductive Level where
  | debug | warn | error
  deriving Repr, DecidableEq

/--
A log record.
-/
structure LogRecord where
  /-- The level. -/
  level : Level
  /-- The message. -/
  message : String
  /-- Further fields, as texts. -/
  fields : List (String × String)

end ReactiveView

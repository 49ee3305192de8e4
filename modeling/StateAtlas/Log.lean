set_option autoImplicit false

/-!
# Log records

What a run reports beside its results: warnings and errors that do not stop it.
-/

namespace StateAtlas

/-- How serious a record is. -/
inductive LogLevel where
  | warning
  | error
  deriving DecidableEq, Repr

/-- A reported event. -/
structure LogRecord where
  level : LogLevel
  message : String
  deriving DecidableEq, Repr

/-- The text of a record: its level and its message. -/
def LogRecord.text (r : LogRecord) : String :=
  (match r.level with
    | .warning => "WARNING "
    | .error => "ERROR ") ++ r.message

end StateAtlas

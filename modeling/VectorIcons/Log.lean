/-!
# Log entries

Drawing, loading and building each tell what they do as a list of events, in
order.  An event becomes an entry with a level and a message.
-/

namespace VectorIcons

/-- How serious an entry is. -/
inductive LogLevel where
  | error
  | warn
  | info
  | debug
deriving DecidableEq, Repr

def LogLevel.text : LogLevel → String
  | .error => "ERROR"
  | .warn => "WARN"
  | .info => "INFO"
  | .debug => "DEBUG"

structure LogEntry where
  level : LogLevel
  message : String
deriving DecidableEq, Repr

def LogEntry.text (entry : LogEntry) : String := entry.level.text ++ " " ++ entry.message

end VectorIcons

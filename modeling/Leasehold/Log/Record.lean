/-! Log records: how grave a message is, and its text. -/

namespace Leasehold

namespace Log

/-- How grave a message is. Only messages from warnings up are kept. -/
inductive Level
  | info
  | warning
  | error
deriving DecidableEq, Repr

def Level.name : Level → String
  | info => "INFO"
  | warning => "WARNING"
  | error => "ERROR"

structure Record where
  level : Level
  text : String
deriving DecidableEq, Repr

def warning (text : String) : Record := ⟨.warning, text⟩

def error (text : String) : Record := ⟨.error, text⟩

end Log

end Leasehold

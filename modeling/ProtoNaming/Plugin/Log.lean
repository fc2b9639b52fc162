namespace ProtoNaming

/-- How much is told, from all to errors only. -/
inductive LogLevel where
  | log | trace | debug | info | warn | error
  deriving DecidableEq

structure LogEntry where
  title : LogLevel
  message : String
  deriving DecidableEq

namespace LogLevel

def all : List LogLevel := [log, trace, debug, info, warn, error]

def rank : LogLevel → Nat
  | log => 0
  | trace => 1
  | debug => 2
  | info => 3
  | warn => 4
  | error => 5

def name : LogLevel → String
  | log => "log"
  | trace => "trace"
  | debug => "debug"
  | info => "info"
  | warn => "warn"
  | error => "error"

def ofName? (name : String) : Option LogLevel := all.find? (·.name = name)

/-- Whether an entry is printed at this level; what is below `info` never is. -/
def prints (level title : LogLevel) : Bool := info.rank ≤ title.rank && level.rank ≤ title.rank

def printed (level : LogLevel) (entries : List LogEntry) : List LogEntry :=
  entries.filter fun e => level.prints e.title

/-- The level after a name has been asked for, with the entry printed about an unknown one. -/
def change (level : LogLevel) (name : String) : LogLevel × List LogEntry :=
  match ofName? name with
  | some level => (level, [])
  | none => (level, level.printed [⟨warn, "Ignoring unknown log level " ++ name⟩])

theorem ofName?_eq_some_iff {s : String} {l : LogLevel} : ofName? s = some l ↔ l.name = s := by
  constructor
  · intro h
    simpa using List.find?_some h
  · rintro rfl
    cases l <;> decide

end LogLevel

end ProtoNaming

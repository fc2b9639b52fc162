import ProtoNaming.Plugin.Run

namespace ProtoNaming.Plugin

inductive Step where
  | setLevel (name : String)
  | log (title : LogLevel) (message : String)
  | options (parameter : String)
  | run (bytes : List UInt8)

inductive Result where
  | done
  | options (result : Except NamingError Options)
  | response (response : Response)

structure Reply where
  entries : List LogEntry
  result : Result

def initialLevel : LogLevel := .info

/-- One step at a level, and the level after it. -/
def step (level : LogLevel) : Step → LogLevel × Reply
  | .setLevel name => ((level.change name).1, ⟨(level.change name).2, .done⟩)
  | .log title message => (level, ⟨level.printed [⟨title, message⟩], .done⟩)
  | .options parameter => (level, ⟨[], .options (Options.parse parameter)⟩)
  | .run bytes =>
    let outcome := run level bytes
    (outcome.level, ⟨outcome.entries, .response outcome.response⟩)

def replies (level : LogLevel) : List Step → List Reply
  | [] => []
  | s :: steps => (step level s).2 :: replies (step level s).1 steps

/-- The steps of the command itself: a greeting, then the request that it reads. -/
def command (bytes : List UInt8) : List Step :=
  [.log .info "protoc-gen-symbols starting", .run bytes]

end ProtoNaming.Plugin

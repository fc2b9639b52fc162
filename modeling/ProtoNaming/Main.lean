import ProtoNaming.Plugin.Session

namespace ProtoNaming

/-- Reads a request from the standard input and answers on the standard output; entries go to the
error stream. -/
def serve : IO UInt32 := do
  let bytes ← (← IO.getStdin).readBinToEnd
  let out ← IO.getStdout
  for reply in Plugin.replies Plugin.initialLevel (Plugin.command bytes.toList) do
    for entry in reply.entries do
      IO.eprintln ("[" ++ entry.title.name ++ "] " ++ entry.message)
    match reply.result with
    | .response response => out.write ⟨response.encode.toArray⟩
    | _ => pure ()
  out.flush
  return 0

end ProtoNaming

def main : IO UInt32 := ProtoNaming.serve

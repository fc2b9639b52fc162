import ProtoNaming.Manifest.Build
import ProtoNaming.Manifest.Json
import ProtoNaming.Plugin.Log
import ProtoNaming.Plugin.Options
import ProtoNaming.Plugin.Request
import ProtoNaming.Plugin.Response
import ProtoNaming.Schema.Build

namespace ProtoNaming.Plugin

inductive RunError where
  | request (cause : Wire.DecodeError)
  | naming (cause : NamingError)

def RunError.message : RunError → String
  | request cause => cause.message
  | naming cause => cause.message

structure Product where
  file : OutputFile
  typeCount : Nat

def product (targets : List Target) (d : FileDescriptor) : Except NamingError (Option Product) := do
  let file ← d.build
  if file.hasDeclarations then
    let manifest ← file.manifest targets
    return some ⟨⟨SourcePath.manifestPath file.name, manifest.render⟩, manifest.types.length⟩
  else
    return none

/-- What a run tells and makes: all that it tells stands, also when it fails. -/
structure Progress where
  entries : List LogEntry
  files : Except NamingError (List OutputFile)

/-- Goes through the files in order up to the first that has no names; those that were not
requested count for nothing. -/
def generate (targets : List Target) (requested : List String) : List FileDescriptor → Progress
  | [] => ⟨[], .ok []⟩
  | d :: ds =>
    let name := d.name.getD ""
    if name ∈ requested then
      let start : LogEntry := ⟨.info, "Resolving symbols for " ++ name⟩
      match product targets d with
      | .error e => ⟨[start], .error e⟩
      | .ok none =>
        let later := generate targets requested ds
        ⟨start :: ⟨.info, "No declarations in " ++ name ++ ", skipping"⟩ :: later.entries,
          later.files⟩
      | .ok (some p) =>
        let later := generate targets requested ds
        ⟨start :: ⟨.info, "Generated " ++ p.file.name ++ " (" ++ toString p.typeCount
            ++ " types)"⟩ :: later.entries,
          later.files.map (p.file :: ·)⟩
    else generate targets requested ds

structure Outcome where
  level : LogLevel
  entries : List LogEntry
  response : Response

def Outcome.fail (level : LogLevel) (before : List LogEntry) (e : RunError) : Outcome :=
  ⟨level, before ++ level.printed [⟨.error, "Plugin error: " ++ e.message⟩],
    .make (some e.message) []⟩

/-- The level a request asks for; an empty name asks for none. -/
def applyLevel (level : LogLevel) (options : Options) : LogLevel × List LogEntry :=
  match options.logLevel with
  | none | some "" => (level, [])
  | some name => level.change name

def respond (level : LogLevel) (request : Request) : Outcome :=
  match Options.parse (request.parameter.getD "") with
  | .error e => .fail level [] (.naming e)
  | .ok options =>
    let (level, warned) := applyLevel level options
    let requested := request.filesToGenerate.eraseDups
    let processing : LogEntry := ⟨.info, "Processing " ++ toString request.files.length
      ++ " proto file(s), generating for " ++ toString requested.length⟩
    let progress := generate options.targets requested request.files
    let told := warned ++ level.printed (processing :: progress.entries)
    match progress.files with
    | .error e => .fail level told (.naming e)
    | .ok files => ⟨level, told, .make none files⟩

/-- Answers the bytes of a request. Whatever is wrong with them becomes an error in the answer. -/
def run (level : LogLevel) (bytes : List UInt8) : Outcome :=
  match Request.decode bytes with
  | .error e => .fail level [] (.request e)
  | .ok request => respond level request

end ProtoNaming.Plugin

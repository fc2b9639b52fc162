import ProtoNaming.Text.Split

namespace ProtoNaming.SourcePath

open Text

/-- The endings of a source file's name, of which no more than one is taken off. -/
def endings : List (List Char) := [".protodevel".toList, ".proto".toList]

def withoutEnding (cs : List Char) : List Char :=
  (endings.findSome? fun ending => ending.isSuffixOf? cs).getD cs

def baseName (path : String) : String :=
  String.ofList (withoutEnding (afterLast '/' path.toList))

/-- Where the manifest of a source file is written: `foo/my_file.proto` gives
`foo/my_file.symbols.json`. -/
def manifestPath (path : String) : String :=
  String.ofList (withoutEnding path.toList ++ ".symbols.json".toList)

end ProtoNaming.SourcePath

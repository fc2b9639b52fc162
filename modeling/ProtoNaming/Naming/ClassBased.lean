import ProtoNaming.SourcePath
import ProtoNaming.Naming.Namespaced

namespace ProtoNaming

namespace File

def classPackage (file : File) : String := file.javaPackage.getD file.package

def declares (file : File) (name : String) : Bool :=
  file.messages.any (·.place.decl.name = name) || file.enums.any (·.place.decl.name = name)

/-- The outer class's name where no option gives it: the file's own, made longer if a top-level
declaration has that name. -/
def defaultOuterClass (file : File) : String :=
  let name := Identifier.classCamel (SourcePath.baseName file.name) true
  if file.declares name then name ++ "OuterClass" else name

def outerClass (file : File) : String :=
  match file.javaOuterClassname with
  | none | some "" => file.defaultOuterClass
  | some name => name

/-- The class of a message or enum, inside the outer class unless each has a source of its own. -/
def className (file : File) (d : Decl) : Except NamingError String :=
  (file.relativeName d).map fun relative =>
    let outer := if file.javaMultipleFiles then [] else [file.outerClass]
    ".".intercalate (((file.classPackage :: outer) ++ [relative]).filter (· ≠ ""))

/-- The outer class with its package, which holds the file's own extensions. -/
def extensionClass (file : File) : String :=
  if file.classPackage = "" then file.outerClass else file.classPackage ++ "." ++ file.outerClass

end File

def Field.memberName (f : Field) : String := Identifier.classCamel f.name false

end ProtoNaming

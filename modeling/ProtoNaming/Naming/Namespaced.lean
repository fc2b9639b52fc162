import ProtoNaming.Identifier
import ProtoNaming.Schema.FieldTraits

namespace ProtoNaming

def rootObject : String := "proto"

namespace File

/-- What full names in the file start with; nothing outside packages. -/
def packagePrefix (file : File) : String := if file.package = "" then "" else file.package ++ "."

def relativeName (file : File) (d : Decl) : Except NamingError String :=
  match file.packagePrefix.toList.isPrefixOf? d.fullName.toList with
  | some cs => .ok (String.ofList cs)
  | none => .error (.outsidePackage d.fullName file.packagePrefix)

def rootName (file : File) : String :=
  if file.package = "" then rootObject else rootObject ++ "." ++ file.package

/-- The object of a message or enum: its relative name under the root, `proto.foo.Outer.Inner`. -/
def objectName (file : File) (d : Decl) : Except NamingError String :=
  (file.relativeName d).map fun relative => file.rootName ++ "." ++ relative

end File

/-- The name of a field or extension on its object; a repeated one has the word `List` after it. -/
def Field.accessor (f : Field) : String :=
  if f.isRepeated then Identifier.lowerCamel f.name ++ "List" else Identifier.lowerCamel f.name

theorem Field.accessor_of_repeated {f : Field} (h : f.isRepeated = true) :
    f.accessor = Identifier.lowerCamel f.name ++ "List" := if_pos h

theorem Field.accessor_of_not_repeated {f : Field} (h : f.isRepeated = false) :
    f.accessor = Identifier.lowerCamel f.name := by
  rw [accessor, h]
  rfl

end ProtoNaming

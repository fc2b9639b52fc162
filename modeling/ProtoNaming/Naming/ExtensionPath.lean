import ProtoNaming.Naming.Target
import ProtoNaming.Naming.ClassBased

namespace ProtoNaming

/-- The message whose symbol holds an extension: the declaring one with classes, and the outermost
around it with namespaces. A file's own extension has none. -/
def Field.holder (f : Field) : Target → Option Place
  | .classBased => f.scope
  | .namespaced => f.scope.map Place.outermost

def Field.checkExtension (f : Field) : Except NamingError Unit :=
  if f.isExtension then .ok () else .error (.notExtension f.name)

namespace File

def scopeObject (file : File) : Option Place → Except NamingError String
  | some scope => file.objectName scope.decl
  | none => .ok file.rootName

def scopeClass (file : File) : Option Place → Except NamingError String
  | some scope => file.className scope.decl
  | none => .ok file.extensionClass

/-- The expression that reaches an extension: `foo.Outer.Inner.myExt.getDescriptor()` with classes
and `proto.foo.Outer.myExt` with namespaces. -/
def accessPath (file : File) (f : Field) (target : Target) : Except NamingError String := do
  f.checkExtension
  match target with
  | .classBased =>
    return (← file.scopeClass (f.holder .classBased)) ++ "." ++ f.memberName ++ ".getDescriptor()"
  | .namespaced =>
    return (← file.scopeObject (f.holder .namespaced)) ++ "." ++ f.accessor

/-- The symbol a module imports to reach an extension: its holder, or the extension of the file
itself. -/
def importName (file : File) (f : Field) : Except NamingError String := do
  f.checkExtension
  match f.holder .namespaced with
  | some scope => file.objectName scope.decl
  | none => return file.rootName ++ "." ++ f.accessor

def lookupName (file : File) (f : Field) : Except NamingError String := do
  f.checkExtension
  return (← file.scopeObject f.scope) ++ "." ++ f.accessor

end File

end ProtoNaming

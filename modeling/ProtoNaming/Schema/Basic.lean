import ProtoNaming.Schema.FieldType

namespace ProtoNaming

/-- A declared name with its dotted form from the package down. The index tells it from the other
messages, or enums, that are declared beside it, which may have the same name. -/
structure Decl where
  name : String
  fullName : String
  index : Nat
  deriving DecidableEq

/-- A declaration with the messages it is inside, the innermost of them first. -/
structure Place where
  decl : Decl
  outer : List Decl
  deriving DecidableEq

namespace Place

def container (p : Place) : Option Place :=
  match p.outer with
  | [] => none
  | d :: ds => some ⟨d, ds⟩

def outermost (p : Place) : Place := ⟨p.outer.getLast?.getD p.decl, []⟩

end Place

inductive Dialect where
  | proto2 | proto3
  deriving DecidableEq

namespace Dialect

/-- Any word but `proto3`, and none at all, means that presence is explicit. -/
def ofWord (word : Option String) : Dialect := if word = some "proto3" then proto3 else proto2

def name : Dialect → String
  | proto2 => "proto2"
  | proto3 => "proto3"

end Dialect

structure Field where
  name : String
  number : Int
  typeCode : Int
  typeName : Option String
  label : Int
  defaultValue : Option String
  jsType : Option JsType
  /-- The message it is a regular field of. -/
  owner : Option Place
  isExtension : Bool
  extendee : Option String
  /-- The message the extension is declared in. -/
  scope : Option Place
  deriving DecidableEq

structure EnumType where
  place : Place
  deriving DecidableEq

structure Message where
  place : Place
  /-- Made by the compiler for a map field; no source refers to it. -/
  isMapEntry : Bool
  fields : List Field
  nested : List Message
  enums : List EnumType
  extensions : List Field

structure File where
  name : String
  package : String
  dialect : Dialect
  javaPackage : Option String
  javaOuterClassname : Option String
  javaMultipleFiles : Bool
  messages : List Message
  enums : List EnumType
  extensions : List Field

inductive ElementKind where
  | message | enum
  deriving DecidableEq

def ElementKind.name : ElementKind → String
  | message => "message"
  | enum => "enum"

structure Element where
  kind : ElementKind
  place : Place
  deriving DecidableEq

def EnumType.element (e : EnumType) : Element := ⟨.enum, e.place⟩

namespace Message

def element (m : Message) : Element := ⟨.message, m.place⟩

mutual

/-- The message and those inside it, each before its contents; what `keep` refuses is left out
with its contents. -/
def preorder (keep : Message → Bool) (m : Message) : List Message :=
  match m with
  | ⟨_, _, _, nested, _, _⟩ => if keep m then m :: preorderAll keep nested else []

def preorderAll (keep : Message → Bool) : List Message → List Message
  | [] => []
  | m :: ms => preorder keep m ++ preorderAll keep ms

end

mutual

def elements (keep : Message → Bool) (m : Message) : List Element :=
  match m with
  | ⟨_, _, _, nested, enums, _⟩ =>
    if keep m then m.element :: (elementsAll keep nested ++ enums.map EnumType.element) else []

def elementsAll (keep : Message → Bool) : List Message → List Element
  | [] => []
  | m :: ms => elements keep m ++ elementsAll keep ms

end

end Message

namespace File

def hasDeclarations (file : File) : Bool :=
  !(file.messages.isEmpty && file.enums.isEmpty && file.extensions.isEmpty)

def preorder (file : File) (keep : Message → Bool) : List Message :=
  Message.preorderAll keep file.messages

def elements (file : File) (keep : Message → Bool) : List Element :=
  Message.elementsAll keep file.messages ++ file.enums.map EnumType.element

/-- The extensions of the file itself, then those declared inside messages, map entries included. -/
def allExtensions (file : File) : List Field :=
  file.extensions ++ (file.preorder fun _ => true).flatMap Message.extensions

end File

end ProtoNaming

namespace ProtoNaming

/-- A document; the members of an object keep their order. -/
inductive Json where
  | null
  | bool (b : Bool)
  | string (s : String)
  | array (items : List Json)
  | object (members : List (String × Json))

namespace Json

def ofOption (toJson : α → Json) : Option α → Json
  | some a => toJson a
  | none => null

end Json

end ProtoNaming

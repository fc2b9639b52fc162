namespace ProtoNaming

inductive Target where
  /-- Declarations become classes inside packages. -/
  | classBased
  /-- Declarations become properties of nested objects. -/
  | namespaced
  deriving DecidableEq

namespace Target

def all : List Target := [classBased, namespaced]

def name : Target → String
  | classBased => "class"
  | namespaced => "namespaced"

def ofName? (name : String) : Option Target := all.find? (·.name = name)

theorem ofName?_eq_some_iff {s : String} {t : Target} : ofName? s = some t ↔ t.name = s := by
  constructor
  · intro h
    simpa using List.find?_some h
  · rintro rfl
    cases t <;> decide

end Target

end ProtoNaming

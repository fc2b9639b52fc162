import ProtoNaming.Text.Split
import ProtoNaming.Text.Case

namespace ProtoNaming.Identifier

open Text

def capitalized : List Char → List Char
  | [] => []
  | c :: cs => (if c.toNat < 0x10000 then upperChar c else [c]) ++ lower cs

def lowerCamelChars (cs : List Char) : List Char :=
  match splitOn '_' cs with
  | [] => []
  | head :: rest => lower head ++ rest.flatMap capitalized

/-- The segments between underscores joined, all but the first capitalised: `user_NAME` gives
`userName`. -/
def lowerCamel (name : String) : String := String.ofList (lowerCamelChars name.toList)

/-- Keeps ASCII letters and digits. A lower-case letter goes up where `capital` is set, which
anything but a letter does; `lowerHead` brings a first upper-case letter down. -/
def camelFrom (lowerHead capital : Bool) : List Char → List Char
  | [] => []
  | c :: cs =>
    if c.isLower then (if capital then c.toUpper else c) :: camelFrom false false cs
    else if c.isUpper then (if lowerHead then c.toLower else c) :: camelFrom false false cs
    else if c.isDigit then c :: camelFrom false true cs
    else camelFrom false true cs

/-- The letters and digits of a name, each letter after something else capitalised: `foo_bar2baz`
gives `fooBar2Baz`, or `FooBar2Baz` with `capitalizeFirst`. -/
def classCamel (name : String) (capitalizeFirst : Bool) : String :=
  String.ofList (camelFrom (!capitalizeFirst) capitalizeFirst name.toList)

end ProtoNaming.Identifier

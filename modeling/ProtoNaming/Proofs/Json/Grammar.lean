import ProtoNaming.Json.Printer

namespace ProtoNaming.Json

/-- What a text says. The members of an object keep their order, and a number stays as it is
written. -/
inductive Value where
  | null
  | bool (b : Bool)
  | number (literal : List Char)
  | string (s : String)
  | array (items : List Value)
  | object (members : List (String × Value))

inductive Item where
  | value (v : Value)
  | member (name : String) (v : Value)

def Item.ofMember (m : String × Value) : Item := .member m.1 m.2

inductive Phrase where
  | item (i : Item)
  | list (is : List Item)

def isSpace (c : Char) : Bool := c = ' ' || c = '\t' || c = '\n' || c = '\r'

/-- Any number of blanks at the start of a text, before what is left of it. -/
inductive Spaces : List Char → List Char → Prop where
  | none (t : List Char) : Spaces t t
  | some {c : Char} {s t : List Char} : isSpace c = true → Spaces s t → Spaces (c :: s) t

def letterEscapes : List (Char × Char) := [
  ('"', '"'), ('\\', '\\'), ('/', '/'), ('b', Char.ofNat 8), ('f', Char.ofNat 12), ('n', '\n'),
  ('r', '\r'), ('t', '\t')]

def hexValue? (c : Char) : Option Nat :=
  if '0' ≤ c ∧ c ≤ '9' then some (c.toNat - 0x30)
  else if 'a' ≤ c ∧ c ≤ 'f' then some (c.toNat - 0x57)
  else if 'A' ≤ c ∧ c ≤ 'F' then some (c.toNat - 0x37)
  else none

def hexNumber? (ds : List Char) : Option Nat :=
  ds.foldlM (fun n d => (hexValue? d).map (n * 16 + ·)) 0

def IsUnit (ds : List Char) (n : Nat) : Prop := ds.length = 4 ∧ hexNumber? ds = some n

/-- The number of a character in hexadecimal. Above U+FFFF it is written in two halves, neither of
which is a character by itself. -/
inductive ReadsCode : Char → List Char → List Char → Prop where
  | unit {c : Char} {ds : List Char} (t : List Char) : IsUnit ds c.toNat → ReadsCode c (ds ++ t) t
  | halves {c : Char} {ds es : List Char} {high low : Nat} (t : List Char) :
      IsUnit ds high → 0xD800 ≤ high → high < 0xDC00 →
      IsUnit es low → 0xDC00 ≤ low → low < 0xE000 →
      c.toNat = 0x10000 + (high - 0xD800) * 0x400 + (low - 0xDC00) →
      ReadsCode c (ds ++ '\\' :: 'u' :: (es ++ t)) t

/-- One character of a string. Control characters, quotes and backslashes stand only in escapes. -/
inductive ReadsChar : Char → List Char → List Char → Prop where
  | plain {c : Char} (t : List Char) :
      0x20 ≤ c.toNat → c ≠ '"' → c ≠ '\\' → ReadsChar c (c :: t) t
  | letter {e c : Char} (t : List Char) :
      (e, c) ∈ letterEscapes → ReadsChar c ('\\' :: e :: t) t
  | code {c : Char} {s t : List Char} : ReadsCode c s t → ReadsChar c ('\\' :: 'u' :: s) t

inductive ReadsChars : List Char → List Char → List Char → Prop where
  | close (t : List Char) : ReadsChars [] ('"' :: t) t
  | char {c : Char} {cs s u t : List Char} :
      ReadsChar c s u → ReadsChars cs u t → ReadsChars (c :: cs) s t

def IsDigits (ds : List Char) : Prop := ds ≠ [] ∧ ∀ c ∈ ds, c.isDigit = true

inductive IsFraction : List Char → Prop where
  | none : IsFraction []
  | some {ds : List Char} : IsDigits ds → IsFraction ('.' :: ds)

inductive IsExponent : List Char → Prop where
  | none : IsExponent []
  | some {e : Char} {sign ds : List Char} :
      e ∈ ['e', 'E'] → sign ∈ [[], ['+'], ['-']] → IsDigits ds → IsExponent (e :: (sign ++ ds))

/-- A number as it is written; only a lone zero comes first. -/
def IsNumber (literal : List Char) : Prop :=
  ∃ sign whole fraction exponent, sign ∈ [[], ['-']] ∧ IsDigits whole ∧
    (whole.head? = some '0' → whole = ['0']) ∧ IsFraction fraction ∧ IsExponent exponent ∧
    literal = sign ++ (whole ++ (fraction ++ exponent))

/-- Values, members and what is inside the brackets of arrays and objects. Items are separated by
commas, with none after the last. -/
inductive Reads : Phrase → List Char → List Char → Prop where
  | null (t : List Char) : Reads (.item (.value .null)) ('n' :: 'u' :: 'l' :: 'l' :: t) t
  | yes (t : List Char) : Reads (.item (.value (.bool true))) ('t' :: 'r' :: 'u' :: 'e' :: t) t
  | no (t : List Char) :
      Reads (.item (.value (.bool false))) ('f' :: 'a' :: 'l' :: 's' :: 'e' :: t) t
  | number {literal : List Char} (t : List Char) :
      IsNumber literal → Reads (.item (.value (.number literal))) (literal ++ t) t
  | string {x : String} {s t : List Char} :
      ReadsChars x.toList s t → Reads (.item (.value (.string x))) ('"' :: s) t
  | array {vs : List Value} {s t : List Char} :
      Reads (.list (vs.map .value)) s (']' :: t) →
      Reads (.item (.value (.array vs))) ('[' :: s) t
  | object {ms : List (String × Value)} {s t : List Char} :
      Reads (.list (ms.map .ofMember)) s ('\x7d' :: t) →
      Reads (.item (.value (.object ms))) ('\x7b' :: s) t
  | member {name : String} {v : Value} {s u w x t : List Char} :
      ReadsChars name.toList s u → Spaces u (':' :: w) → Spaces w x →
      Reads (.item (.value v)) x t → Reads (.item (.member name v)) ('"' :: s) t
  | nil {s t : List Char} : Spaces s t → Reads (.list []) s t
  | one {i : Item} {s u w t : List Char} :
      Spaces s u → Reads (.item i) u w → Spaces w t → Reads (.list [i]) s t
  | more {i j : Item} {is : List Item} {s u w x t : List Char} :
      Spaces s u → Reads (.item i) u w → Spaces w (',' :: x) → Reads (.list (j :: is)) x t →
      Reads (.list (i :: j :: is)) s t

/-- A whole text: one value with blanks around it. -/
def IsText (v : Value) (s : List Char) : Prop :=
  ∃ u w, Spaces s u ∧ Reads (.item (.value v)) u w ∧ Spaces w []

end ProtoNaming.Json

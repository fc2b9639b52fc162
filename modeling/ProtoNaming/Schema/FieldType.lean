import ProtoNaming.NamingError

namespace ProtoNaming

inductive FieldType where
  | double | float | int64 | uint64 | int32 | fixed64 | fixed32 | bool | string
  | group | message | bytes | uint32 | enum | sfixed32 | sfixed64 | sint32 | sint64
  deriving DecidableEq

/-- What a field holds in a class-based runtime, several wire encodings to one kind. -/
inductive ValueKind where
  | int | long | float | double | boolean | string | byteString | enum | message
  deriving DecidableEq

namespace FieldType

/-- The types in the order of their codes, which start at 1. -/
def all : List FieldType :=
  [double, float, int64, uint64, int32, fixed64, fixed32, bool, string,
    group, message, bytes, uint32, enum, sfixed32, sfixed64, sint32, sint64]

def ofCode? : Int → Option FieldType
  | .ofNat (n + 1) => all[n]?
  | _ => none

def ofCode (code : Int) : Except NamingError FieldType :=
  match ofCode? code with
  | some type => .ok type
  | none => .error (.unsupportedType code)

def keyword : FieldType → String
  | double => "double"
  | float => "float"
  | int64 => "int64"
  | uint64 => "uint64"
  | int32 => "int32"
  | fixed64 => "fixed64"
  | fixed32 => "fixed32"
  | bool => "bool"
  | string => "string"
  | group => "group"
  | message => "message"
  | bytes => "bytes"
  | uint32 => "uint32"
  | enum => "enum"
  | sfixed32 => "sfixed32"
  | sfixed64 => "sfixed64"
  | sint32 => "sint32"
  | sint64 => "sint64"

def valueKind : FieldType → ValueKind
  | double => .double
  | float => .float
  | int64 | uint64 | fixed64 | sfixed64 | sint64 => .long
  | int32 | fixed32 | uint32 | sfixed32 | sint32 => .int
  | bool => .boolean
  | string => .string
  | group | message => .message
  | bytes => .byteString
  | enum => .enum

def isUnsigned : FieldType → Bool
  | fixed32 | fixed64 | uint32 | uint64 => true
  | _ => false

theorem isSome_ofCode? (code : Int) : (ofCode? code).isSome ↔ 1 ≤ code ∧ code ≤ 18 := by
  have hl : all.length = 18 := rfl
  match code with
  | .ofNat 0 => simp [ofCode?]
  | .negSucc n =>
    simp only [ofCode?, Option.isSome_none, Bool.false_eq_true, false_iff]
    omega
  | .ofNat (n + 1) =>
    rw [ofCode?, Option.isSome_iff_ne_none, ne_eq, List.getElem?_eq_none_iff, hl]
    simp only [Int.ofNat_eq_natCast]
    omega

end FieldType

def ValueKind.name : ValueKind → String
  | int => "INT"
  | long => "LONG"
  | float => "FLOAT"
  | double => "DOUBLE"
  | boolean => "BOOLEAN"
  | string => "STRING"
  | byteString => "BYTE_STRING"
  | enum => "ENUM"
  | message => "MESSAGE"

inductive JsType where
  | normal | string | number
  /-- A name without a meaning of its own here. -/
  | other (name : String) (unknown : name ∉ ["JS_NORMAL", "JS_STRING", "JS_NUMBER"])
  deriving DecidableEq

namespace JsType

/-- An unknown number stands for the first one. -/
def ofNumber : Int → JsType
  | 1 => string
  | 2 => number
  | _ => normal

def name : JsType → String
  | normal => "JS_NORMAL"
  | string => "JS_STRING"
  | number => "JS_NUMBER"
  | other name _ => name

def ofName (name : String) : JsType :=
  if hn : name = "JS_NORMAL" then normal
  else if hs : name = "JS_STRING" then string
  else if hi : name = "JS_NUMBER" then number
  else other name (by simp [hn, hs, hi])

theorem ofName_name (t : JsType) : ofName t.name = t := by
  cases t with
  | normal => rfl
  | string => rfl
  | number => rfl
  | other name unknown =>
    simp only [List.mem_cons, List.not_mem_nil, or_false, not_or] at unknown
    obtain ⟨hn, hs, hi⟩ := unknown
    rw [JsType.name, ofName, dif_neg hn, dif_neg hs, dif_neg hi]

end JsType

end ProtoNaming

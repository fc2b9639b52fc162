import ProtoNaming.Text.Utf8
import ProtoNaming.Wire.Varint

namespace ProtoNaming.Wire

/-- The value of one field as it stands in a message. -/
inductive Value where
  | text (s : String)
  | int (n : Int)
  | nat (n : Nat)
  | bool (b : Bool)
  | record (fields : List (Nat × Value))

/-- The fields of a message in the order they are written, each under its number. -/
abbrev Record := List (Nat × Value)

namespace Value

def text? : Value → Option String
  | text s => some s
  | _ => none

def int? : Value → Option Int
  | int n => some n
  | _ => none

def nat? : Value → Option Nat
  | nat n => some n
  | _ => none

def bool? : Value → Option Bool
  | bool b => some b
  | _ => none

def record? : Value → Option Record
  | record fields => some fields
  | _ => none

end Value

/-- A field's number with the form of its value: 0 for a number, 2 for counted bytes. -/
def encodeTag (number wireType : Nat) : List UInt8 := encodeVarint (number * 8 + wireType)

/-- Bytes after their count. -/
def encodeCounted (bs : List UInt8) : List UInt8 := encodeVarint bs.length ++ bs

mutual

/-- A field in its shortest form; a negative number is written in 64 bits. -/
def encodeField (number : Nat) : Value → List UInt8
  | .text s => encodeTag number 2 ++ encodeCounted (Text.encodeUtf8 s.toList)
  | .int n => encodeTag number 0 ++ encodeVarint (n % 0x10000000000000000).toNat
  | .nat n => encodeTag number 0 ++ encodeVarint n
  | .bool b => encodeTag number 0 ++ [if b then 1 else 0]
  | .record fields => encodeTag number 2 ++ encodeCounted (encodeFields fields)

def encodeFields : List (Nat × Value) → List UInt8
  | [] => []
  | (number, value) :: fields => encodeField number value ++ encodeFields fields

end

namespace Record

def encode (r : Record) : List UInt8 := encodeFields r

/-- The values under a number, in order. -/
def values (number : Nat) (r : Record) : List Value :=
  r.filterMap fun (k, v) => if k = number then some v else none

def texts (number : Nat) (r : Record) : List String := (r.values number).filterMap Value.text?

def records (number : Nat) (r : Record) : List Record :=
  (r.values number).filterMap Value.record?

/-- Of a field that is not a list the last value counts, and replaces the earlier ones whole. -/
def text? (number : Nat) (r : Record) : Option String := (r.texts number).getLast?

def int? (number : Nat) (r : Record) : Option Int :=
  ((r.values number).filterMap Value.int?).getLast?

def nat? (number : Nat) (r : Record) : Option Nat :=
  ((r.values number).filterMap Value.nat?).getLast?

def bool? (number : Nat) (r : Record) : Option Bool :=
  ((r.values number).filterMap Value.bool?).getLast?

def record? (number : Nat) (r : Record) : Option Record := (r.records number).getLast?

def ofText (number : Nat) (s : Option String) : Record := s.toList.map fun s => (number, .text s)

def ofTexts (number : Nat) (ss : List String) : Record := ss.map fun s => (number, .text s)

def ofInt (number : Nat) (n : Option Int) : Record := n.toList.map fun n => (number, .int n)

def ofNat (number : Nat) (n : Option Nat) : Record := n.toList.map fun n => (number, .nat n)

def ofBool (number : Nat) (b : Option Bool) : Record := b.toList.map fun b => (number, .bool b)

def ofRecord (number : Nat) (r : Option Record) : Record :=
  r.toList.map fun r => (number, .record r)

def ofRecords (number : Nat) (rs : List Record) : Record := rs.map fun r => (number, .record r)

end Record

end ProtoNaming.Wire

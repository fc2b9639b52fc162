import ProtoNaming.Proofs.Wire.Varint
import ProtoNaming.Wire.Reader

namespace ProtoNaming.Wire

open Text

/-- A number of any length: the high bit is set in all bytes but the last. -/
inductive VarintBytes : List UInt8 → Prop where
  | last {b : UInt8} : b.toNat < 128 → VarintBytes [b]
  | more {b : UInt8} {bs : List UInt8} : 128 ≤ b.toNat → VarintBytes bs → VarintBytes (b :: bs)

inductive ScalarBytes : Nat → List UInt8 → Prop where
  | varint {bs : List UInt8} : VarintBytes bs → ScalarBytes 0 bs
  | fixed64 {bs : List UInt8} : bs.length = 8 → ScalarBytes 1 bs
  | counted (bs : List UInt8) : ScalarBytes 2 (encodeCounted bs)
  | fixed32 {bs : List UInt8} : bs.length = 4 → ScalarBytes 5 bs

/-- What stands inside a group: fields of any numbers, and groups as deep as `levels` allow. -/
inductive GroupBytes : Nat → List UInt8 → Prop where
  | nil {levels : Nat} : GroupBytes levels []
  | scalar {levels number wireType : Nat} {value bs : List UInt8} :
      number < 2 ^ 29 → ScalarBytes wireType value → GroupBytes (levels + 1) bs →
      GroupBytes (levels + 1) (encodeTag number wireType ++ value ++ bs)
  | group {levels number closing : Nat} {body bs : List UInt8} :
      number < 2 ^ 29 → GroupBytes levels body → closing < 2 ^ 29 → GroupBytes (levels + 1) bs →
      GroupBytes (levels + 1) (encodeTag number 3 ++ (body ++ encodeTag closing 4) ++ bs)

/-- The value of an unknown field, by its form; a tag of any number closes a group. -/
inductive UnknownBytes (levels : Nat) : Nat → List UInt8 → Prop where
  | scalar {wireType : Nat} {value : List UInt8} :
      ScalarBytes wireType value → UnknownBytes levels wireType value
  | group {closing : Nat} {body : List UInt8} :
      GroupBytes levels body → closing < 2 ^ 29 →
      UnknownBytes levels 3 (body ++ encodeTag closing 4)

def Kind.wireType : Kind → Nat
  | text | message _ => 2
  | int32 | uint64 | bool => 0

inductive ValueBytes : Kind → List UInt8 → Value → Prop where
  | text (s : String) : ValueBytes .text (encodeCounted (encodeUtf8 s.toList)) (.text s)
  | int32 {n : Int} : -2 ^ 31 ≤ n → n < 2 ^ 31 →
      ValueBytes .int32 (encodeVarint (n % 2 ^ 64).toNat) (.int n)
  | uint64 {n : Nat} : n < 2 ^ 64 → ValueBytes .uint64 (encodeVarint n) (.nat n)
  | bool (b : Bool) : ValueBytes .bool [if b then 1 else 0] (.bool b)

/-- Bytes of fields of a type one after another, with messages and groups inside them to a depth of
`levels`, and the known fields among them. -/
inductive Fields : Nat → MessageType → List UInt8 → Record → Prop where
  | nil {levels : Nat} {type : MessageType} : Fields levels type [] []
  | value {levels number : Nat} {type : MessageType} {kind : Kind} {value bs : List UInt8}
      {v : Value} {r : Record} :
      type.kind? number = some kind → ValueBytes kind value v → Fields levels type bs r →
      Fields levels type (encodeTag number kind.wireType ++ value ++ bs) ((number, v) :: r)
  | message {levels number : Nat} {type inner : MessageType} {body bs : List UInt8}
      {fields r : Record} :
      type.kind? number = some (.message inner) → Fields levels inner body fields →
      Fields (levels + 1) type bs r →
      Fields (levels + 1) type (encodeTag number 2 ++ encodeCounted body ++ bs)
        ((number, .record fields) :: r)
  | unknown {levels number wireType : Nat} {type : MessageType} {value bs : List UInt8}
      {r : Record} :
      type.kind? number = none → number < 2 ^ 29 → UnknownBytes levels wireType value →
      Fields levels type bs r →
      Fields levels type (encodeTag number wireType ++ value ++ bs) r

theorem MessageType.lt_of_kind? {type : MessageType} {number : Nat} {kind : Kind}
    (h : type.kind? number = some kind) : number < 2 ^ 29 := by
  unfold kind? at h
  split at h <;> try omega
  cases h

theorem Kind.wireType_lt (kind : Kind) : kind.wireType < 8 := by
  unfold wireType
  split <;> decide

theorem ScalarBytes.wireType_cases {wireType : Nat} {value : List UInt8}
    (h : ScalarBytes wireType value) : wireType < 8 ∧ wireType ≠ 3 ∧ wireType ≠ 4 := by
  cases h <;> decide

theorem UnknownBytes.wireType_lt {levels wireType : Nat} {value : List UInt8}
    (h : UnknownBytes levels wireType value) : wireType < 8 := by
  cases h with
  | scalar h => exact h.wireType_cases.1
  | group => decide

theorem Fields.append {levels : Nat} {type : MessageType} {bs bs' : List UInt8} {r r' : Record}
    (h : Fields levels type bs r) (h' : Fields levels type bs' r') :
    Fields levels type (bs ++ bs') (r ++ r') := by
  induction h with
  | nil => exact h'
  | value hk hv _ ih =>
    rw [List.append_assoc]
    exact .value hk hv (ih h')
  | message hk hb _ _ ih =>
    rw [List.append_assoc]
    exact .message hk hb (ih h')
  | unknown hk hn hu _ ih =>
    rw [List.append_assoc]
    exact .unknown hk hn hu (ih h')

end ProtoNaming.Wire

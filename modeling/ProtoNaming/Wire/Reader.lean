import ProtoNaming.Wire.MessageType
import ProtoNaming.Wire.Record

namespace ProtoNaming.Wire

/-- How many messages may be inside each other below the outermost one. -/
def maxDepth : Nat := 100

def skipScalar (limit wireType : Nat) (bs : List UInt8) : Except DecodeError (List UInt8) :=
  match wireType with
  | 0 => skipVarint limit bs
  | 1 => skipBytes limit 8 bs
  | 2 => do
    let (count, rest) ← readUint32 limit bs
    skipBytes limit count rest
  | 5 => skipBytes limit 4 bs
  | _ => .error (.invalidWireType wireType (limit - bs.length))

theorem length_le_of_skipScalar {limit wireType : Nat} {bs rest : List UInt8}
    (h : skipScalar limit wireType bs = .ok rest) : rest.length ≤ bs.length := by
  unfold skipScalar at h
  split at h
  · exact Nat.le_of_lt (length_lt_of_skipVarint h)
  · exact length_le_of_skipBytes h
  · cases hr : readUint32 limit bs with
    | error e => simp [hr, bind, Except.bind] at h
    | ok r =>
      obtain ⟨count, rest'⟩ := r
      simp only [hr, bind, Except.bind] at h
      exact Nat.le_trans (length_le_of_skipBytes h) (Nat.le_of_lt (length_lt_of_readUint32 hr))
  · exact length_le_of_skipBytes h
  · simp at h

/-- One step inside `opened` groups: how many are open after it. A tag that closes a group is
taken at any depth, all else only above `levels`. -/
def skipGroupItem (levels limit opened : Nat) (bs : List UInt8) :
    Except DecodeError (Nat × List UInt8) := do
  let (tag, rest) ← readUint32 limit bs
  if tag % 8 = 4 then return (opened - 1, rest)
  if levels < opened then throw .tooDeep
  if tag % 8 = 3 then return (opened + 1, rest)
  return (opened, ← skipScalar limit (tag % 8) rest)

theorem length_lt_of_skipGroupItem {levels limit opened opened' : Nat} {bs rest : List UInt8}
    (h : skipGroupItem levels limit opened bs = .ok (opened', rest)) :
    rest.length < bs.length := by
  cases hr : readUint32 limit bs with
  | error e => simp [skipGroupItem, hr, bind, Except.bind] at h
  | ok r =>
    obtain ⟨tag, rest'⟩ := r
    have hlt := length_lt_of_readUint32 hr
    simp only [skipGroupItem, hr, bind, Except.bind, pure, Except.pure, throw, throwThe,
      MonadExceptOf.throw] at h
    split at h
    · cases h
      exact hlt
    · split at h
      · simp at h
      · split at h
        · cases h
          exact hlt
        · cases hs : skipScalar limit (tag % 8) rest' with
          | error e => simp [hs] at h
          | ok rest'' =>
            simp only [hs, Except.ok.injEq, Prod.mk.injEq] at h
            exact Nat.lt_of_le_of_lt (h.2 ▸ length_le_of_skipScalar hs) hlt

def skipGroups (levels limit opened : Nat) (bs : List UInt8) : Except DecodeError (List UInt8) :=
  if opened = 0 then .ok bs
  else
    match _h : skipGroupItem levels limit opened bs with
    | .error e => .error e
    | .ok (opened', rest) => skipGroups levels limit opened' rest
termination_by bs.length
decreasing_by exact length_lt_of_skipGroupItem _h

theorem length_le_of_skipGroups {levels limit opened : Nat} {bs rest : List UInt8}
    (h : skipGroups levels limit opened bs = .ok rest) : rest.length ≤ bs.length := by
  fun_induction skipGroups levels limit opened bs with
  | case1 => simp_all
  | case2 => simp at h
  | case3 _ _ _ _ _ hi ih =>
    exact Nat.le_trans (ih h) (Nat.le_of_lt (length_lt_of_skipGroupItem hi))

def skipValue (levels limit wireType : Nat) (bs : List UInt8) : Except DecodeError (List UInt8) :=
  if wireType = 3 then skipGroups levels limit 1 bs else skipScalar limit wireType bs

theorem length_le_of_skipValue {levels limit wireType : Nat} {bs rest : List UInt8}
    (h : skipValue levels limit wireType bs = .ok rest) : rest.length ≤ bs.length := by
  unfold skipValue at h
  split at h
  · exact length_le_of_skipGroups h
  · exact length_le_of_skipScalar h

/-- Reads the bytes of a whole message that end at a position. -/
abbrev RecordReader := MessageType → Nat → List UInt8 → Except DecodeError Record

def signed32 (n : Nat) : Int := if n < 0x80000000 then n else n - 0x100000000

/-- Reads a value of a known field. Counted text is cut at the limit; a message inside needs a
reader, which there is none of below the last level. -/
def readValue (inner : Option RecordReader) (limit : Nat) (kind : Kind) (bs : List UInt8) :
    Except DecodeError (Value × List UInt8) := do
  match kind with
  | .text =>
    let (count, rest) ← readUint32 limit bs
    return (.text (String.ofList (Text.decodeUtf8 (rest.take count))), rest.drop count)
  | .int32 =>
    let (n, rest) ← readUint32 limit bs
    return (.int (signed32 n), rest)
  | .uint64 =>
    let (n, rest) ← readUint64 limit bs
    return (.nat n, rest)
  | .bool =>
    let (n, rest) ← readUint32 limit bs
    return (.bool (n != 0), rest)
  | .message type =>
    let (count, rest) ← readUint32 limit bs
    match inner with
    | none => throw .tooDeep
    | some read =>
      if rest.length < count then throw .spanOutOfRange
      let fields ← read type (limit - rest.length + count) (rest.take count)
      return (.record fields, rest.drop count)

/-- Reads a field with its tag; an unknown one gives nothing. The form in the tag matters only to
unknown fields. -/
def readField (levels : Nat) (inner : Option RecordReader) (type : MessageType) (limit : Nat)
    (bs : List UInt8) : Except DecodeError (Option (Nat × Value) × List UInt8) := do
  let (tag, rest) ← readUint32 limit bs
  match type.kind? (tag / 8) with
  | some kind =>
    let (value, rest) ← readValue inner limit kind rest
    return (some (tag / 8, value), rest)
  | none => return (none, ← skipValue levels limit (tag % 8) rest)

theorem length_le_of_readValue {inner : Option RecordReader} {limit : Nat} {kind : Kind}
    {bs rest : List UInt8} {v : Value} (h : readValue inner limit kind bs = .ok (v, rest)) :
    rest.length ≤ bs.length := by
  cases kind with
  | uint64 =>
    cases hr : readUint64 limit bs with
    | error e => simp [readValue, hr, bind, Except.bind] at h
    | ok r =>
      have hlt := length_lt_of_readUint64 hr
      simp only [readValue, hr, bind, Except.bind, pure, Except.pure, Except.ok.injEq,
        Prod.mk.injEq] at h
      exact h.2 ▸ Nat.le_of_lt hlt
  | text | int32 | bool =>
    cases hr : readUint32 limit bs with
    | error e => simp [readValue, hr, bind, Except.bind] at h
    | ok r =>
      have hlt := length_lt_of_readUint32 hr
      simp only [readValue, hr, bind, Except.bind, pure, Except.pure, Except.ok.injEq,
        Prod.mk.injEq] at h
      rw [← h.2]
      try rw [List.length_drop]
      omega
  | message type =>
    cases hr : readUint32 limit bs with
    | error e => simp [readValue, hr, bind, Except.bind] at h
    | ok r =>
      have hlt := length_lt_of_readUint32 hr
      cases inner with
      | none => simp [readValue, hr, bind, Except.bind, throw, throwThe, MonadExceptOf.throw] at h
      | some read =>
        simp only [readValue, hr, bind, Except.bind, pure, Except.pure, throw, throwThe,
          MonadExceptOf.throw] at h
        split at h
        · simp at h
        · split at h
          · simp at h
          · simp only [Except.ok.injEq, Prod.mk.injEq] at h
            rw [← h.2, List.length_drop]
            omega

theorem length_lt_of_readField {levels : Nat} {inner : Option RecordReader} {type : MessageType}
    {limit : Nat} {bs rest : List UInt8} {found : Option (Nat × Value)}
    (h : readField levels inner type limit bs = .ok (found, rest)) : rest.length < bs.length := by
  cases hr : readUint32 limit bs with
  | error e => simp [readField, hr, bind, Except.bind] at h
  | ok r =>
    obtain ⟨tag, rest'⟩ := r
    have hlt := length_lt_of_readUint32 hr
    simp only [readField, hr, bind, Except.bind, pure, Except.pure] at h
    split at h
    · next kind hk =>
      cases hv : readValue inner limit kind rest' with
      | error e => simp [hv] at h
      | ok r =>
        simp only [hv, Except.ok.injEq, Prod.mk.injEq] at h
        exact Nat.lt_of_le_of_lt (h.2 ▸ length_le_of_readValue hv) hlt
    · cases hs : skipValue levels limit (tag % 8) rest' with
      | error e => simp [hs] at h
      | ok rest'' =>
        simp only [hs, Except.ok.injEq, Prod.mk.injEq] at h
        exact Nat.lt_of_le_of_lt (h.2 ▸ length_le_of_skipValue hs) hlt

def readFields (levels : Nat) (inner : Option RecordReader) (type : MessageType) (limit : Nat)
    (bs : List UInt8) : Except DecodeError Record :=
  if bs = [] then .ok []
  else
    match _h : readField levels inner type limit bs with
    | .error e => .error e
    | .ok (found, rest) =>
      (readFields levels inner type limit rest).map (found.toList ++ ·)
termination_by bs.length
decreasing_by exact length_lt_of_readField _h

/-- Reads a message that may have `levels` of messages inside it. -/
def readRecord : Nat → RecordReader
  | 0 => readFields 0 none
  | levels + 1 => readFields (levels + 1) (some (readRecord levels))

def decodeRecord (type : MessageType) (bs : List UInt8) : Except DecodeError Record :=
  readRecord maxDepth type bs.length bs

end ProtoNaming.Wire

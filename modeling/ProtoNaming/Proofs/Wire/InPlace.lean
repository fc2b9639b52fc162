import ProtoNaming.Proofs.Outcome
import ProtoNaming.Wire.Reader

namespace ProtoNaming.Wire

open Text

def unread (buffer : List UInt8) (limit pos : Nat) : List UInt8 := (buffer.take limit).drop pos

section

variable (buffer : List UInt8) (limit : Nat)

/-- The byte at a position, whatever the limit; 0 after the end of the buffer. -/
def byteAt (pos : Nat) : Nat := (buffer[pos]?.getD 0).toNat

/-- A number of which `more` bytes may follow the next one, each looked for before it is taken;
`last` takes the one after which none may follow. -/
def bitsAt (last : Nat → Except DecodeError (Nat × Nat)) :
    Nat → Nat → Except DecodeError (Nat × Nat)
  | 0, pos => if limit ≤ pos then .error (.outOfRange pos 1 limit) else last pos
  | more + 1, pos =>
    if limit ≤ pos then .error (.outOfRange pos 1 limit)
    else if byteAt buffer pos < 128 then .ok (byteAt buffer pos, pos + 1)
    else (bitsAt last more (pos + 1)).map fun (n, next) =>
      (byteAt buffer pos % 128 + 128 * n, next)

def fourthAt (pos : Nat) : Except DecodeError (Nat × Nat) :=
  if byteAt buffer pos < 128 then .ok (byteAt buffer pos, pos + 1)
  else .error (.outOfRange (pos + 1) 1 limit)

/-- The fifth byte of a number. If it goes on, five more are passed over unseen. -/
def fifthAt (pos : Nat) : Except DecodeError (Nat × Nat) :=
  if byteAt buffer pos < 128 then .ok (byteAt buffer pos % 16, pos + 1)
  else if limit < pos + 6 then .error (.outOfRange limit 10 limit)
  else .ok (byteAt buffer pos % 16, pos + 6)

/-- A number of which the next byte and `more` after it are taken without being looked for. -/
def surelyAt : Nat → Nat → Except DecodeError (Nat × Nat)
  | 0, pos => fifthAt buffer limit pos
  | more + 1, pos =>
    if byteAt buffer pos < 128 then .ok (byteAt buffer pos, pos + 1)
    else (surelyAt more (pos + 1)).map fun (n, next) =>
      (byteAt buffer pos % 128 + 128 * n, next)

/-- The low 32 bits of a number. Only with fewer than five bytes before the limit are they looked
for one by one. -/
def uint32At (pos : Nat) : Except DecodeError (Nat × Nat) :=
  if limit < pos + 5 then bitsAt buffer limit (fourthAt buffer limit) 3 pos
  else surelyAt buffer limit 4 pos

def tenthAt (pos : Nat) : Except DecodeError (Nat × Nat) :=
  if byteAt buffer pos < 128 then .ok (byteAt buffer pos % 2, pos + 1) else .error .varintTooLong

def uint64At (pos : Nat) : Except DecodeError (Nat × Nat) :=
  bitsAt buffer limit (tenthAt buffer) 9 pos

def skipVarintAt (pos : Nat) : Except DecodeError Nat :=
  if limit ≤ pos then .error (.outOfRange pos 1 limit)
  else if byteAt buffer pos < 128 then .ok (pos + 1)
  else skipVarintAt (pos + 1)
termination_by limit - pos

def skipBytesAt (count pos : Nat) : Except DecodeError Nat :=
  if limit < pos + count then .error (.outOfRange pos count limit) else .ok (pos + count)

def skipScalarAt (wireType pos : Nat) : Except DecodeError Nat :=
  match wireType with
  | 0 => skipVarintAt buffer limit pos
  | 1 => skipBytesAt limit 8 pos
  | 2 => do
    let (count, next) ← uint32At buffer limit pos
    skipBytesAt limit count next
  | 5 => skipBytesAt limit 4 pos
  | _ => .error (.invalidWireType wireType pos)

def skipGroupItemAt (levels opened pos : Nat) : Except DecodeError (Nat × Nat) := do
  let (tag, next) ← uint32At buffer limit pos
  if tag % 8 = 4 then return (opened - 1, next)
  if levels < opened then throw .tooDeep
  if tag % 8 = 3 then return (opened + 1, next)
  return (opened, ← skipScalarAt buffer limit (tag % 8) next)

end

section

variable {buffer : List UInt8} {limit pos next n : Nat}

/-- With few bytes left there is none at the limit to take, whatever would take it. -/
theorem bitsAt_fourthAt (last : Nat → Except DecodeError (Nat × Nat)) {more : Nat}
    (h : limit < pos + more + 2) :
    bitsAt buffer limit (fourthAt buffer limit) more pos =
      bitsAt buffer limit last (more + 1) pos := by
  induction more generalizing pos with
  | zero =>
    have hnext : limit ≤ pos + 1 := by omega
    simp only [bitsAt, fourthAt, hnext, if_true]
    rfl
  | succ more ih => rw [bitsAt, bitsAt, ih (by omega)]

theorem surelyAt_eq {more : Nat} (h : pos + more < limit) :
    surelyAt buffer limit more pos = bitsAt buffer limit (fifthAt buffer limit) more pos := by
  induction more generalizing pos with
  | zero => rw [surelyAt, bitsAt, if_neg (by omega)]
  | succ more ih =>
    have hroom : ¬limit ≤ pos := by omega
    rw [surelyAt, bitsAt, if_neg hroom, ih (by omega)]

/-- The two ways to read a number are one. -/
theorem uint32At_eq (pos : Nat) :
    uint32At buffer limit pos = bitsAt buffer limit (fifthAt buffer limit) 4 pos := by
  rw [uint32At]
  split
  · exact bitsAt_fourthAt _ (by omega)
  · exact surelyAt_eq (by omega)

theorem lt_of_bitsAt {last : Nat → Except DecodeError (Nat × Nat)} {more : Nat}
    (hlast : ∀ pos n next, pos < limit → last pos = .ok (n, next) → pos < next ∧ next ≤ limit)
    (h : bitsAt buffer limit last more pos = .ok (n, next)) : pos < next ∧ next ≤ limit := by
  induction more generalizing pos n next with
  | zero =>
    rw [bitsAt] at h
    split at h
    · cases h
    · exact hlast pos n next (by omega) h
  | succ more ih =>
    rw [bitsAt] at h
    split at h
    · cases h
    · split at h
      · cases h
        omega
      · obtain ⟨⟨m, stop⟩, hm, hr⟩ := map_eq_ok_iff.mp h
        cases hr
        have hmore := ih hm
        omega

theorem lt_of_uint32At (h : uint32At buffer limit pos = .ok (n, next)) :
    pos < next ∧ next ≤ limit := by
  rw [uint32At_eq] at h
  refine lt_of_bitsAt (fun pos n next hp h => ?_) h
  rw [fifthAt] at h
  split at h
  · cases h
    omega
  · split at h
    · cases h
    · cases h
      omega

theorem lt_of_uint64At (h : uint64At buffer limit pos = .ok (n, next)) :
    pos < next ∧ next ≤ limit := by
  refine lt_of_bitsAt (fun pos n next hp h => ?_) h
  rw [tenthAt] at h
  split at h
  · cases h
    omega
  · cases h

theorem lt_of_skipVarintAt (h : skipVarintAt buffer limit pos = .ok next) :
    pos < next ∧ next ≤ limit := by
  fun_induction skipVarintAt buffer limit pos with
  | case1 => cases h
  | case2 =>
    cases h
    omega
  | case3 pos _ _ ih =>
    have hmore := ih h
    omega

theorem le_of_skipBytesAt {count : Nat} (h : skipBytesAt limit count pos = .ok next) :
    pos ≤ next ∧ next ≤ limit := by
  rw [skipBytesAt] at h
  split at h
  · cases h
  · cases h
    omega

theorem le_of_skipScalarAt {wireType : Nat}
    (h : skipScalarAt buffer limit wireType pos = .ok next) :
    pos ≤ next ∧ next ≤ limit := by
  unfold skipScalarAt at h
  split at h
  · exact (lt_of_skipVarintAt h).imp Nat.le_of_lt id
  · exact le_of_skipBytesAt h
  · obtain ⟨⟨count, mid⟩, hc, hs⟩ := bind_eq_ok_iff.mp h
    have hcount := lt_of_uint32At hc
    have hskip := le_of_skipBytesAt hs
    omega
  · exact le_of_skipBytesAt h
  · cases h

theorem lt_of_skipGroupItemAt {levels opened opened' : Nat}
    (h : skipGroupItemAt buffer limit levels opened pos = .ok (opened', next)) :
    pos < next ∧ next ≤ limit := by
  obtain ⟨⟨tag, mid⟩, ht, h⟩ := bind_eq_ok_iff.mp h
  have htag := lt_of_uint32At ht
  simp only [pure, Except.pure, throw, throwThe, MonadExceptOf.throw] at h
  split at h
  · cases h
    exact htag
  · split at h
    · cases h
    · split at h
      · cases h
        exact htag
      · obtain ⟨stop, hs, h⟩ := bind_eq_ok_iff.mp h
        have hskip := le_of_skipScalarAt hs
        cases h
        omega

end

section

variable (buffer : List UInt8) (limit : Nat)

def skipGroupsAt (levels opened pos : Nat) : Except DecodeError Nat :=
  if opened = 0 then .ok pos
  else
    match _h : skipGroupItemAt buffer limit levels opened pos with
    | .error e => .error e
    | .ok (opened', next) => skipGroupsAt levels opened' next
termination_by limit - pos
decreasing_by
  have hitem := lt_of_skipGroupItemAt _h
  omega

def skipValueAt (levels wireType pos : Nat) : Except DecodeError Nat :=
  if wireType = 3 then skipGroupsAt buffer limit levels 1 pos
  else skipScalarAt buffer limit wireType pos

end

abbrev RecordReaderAt := MessageType → (limit pos : Nat) → Except DecodeError (Record × Nat)

section

variable (buffer : List UInt8) (limit : Nat)

/-- A value of a known field. A message has to end where its count says. -/
def valueAt (inner : Option RecordReaderAt) (kind : Kind) (pos : Nat) :
    Except DecodeError (Value × Nat) := do
  match kind with
  | .text =>
    let (count, next) ← uint32At buffer limit pos
    let stop := min (next + count) limit
    return (.text (String.ofList (decodeUtf8 (unread buffer stop next))), stop)
  | .int32 =>
    let (n, next) ← uint32At buffer limit pos
    return (.int (signed32 n), next)
  | .uint64 =>
    let (n, next) ← uint64At buffer limit pos
    return (.nat n, next)
  | .bool =>
    let (n, next) ← uint32At buffer limit pos
    return (.bool (n != 0), next)
  | .message type =>
    let (count, next) ← uint32At buffer limit pos
    match inner with
    | none => throw .tooDeep
    | some read =>
      if limit < next + count then throw .spanOutOfRange
      let (fields, stop) ← read type (next + count) next
      if stop ≠ next + count then throw .spanOutOfRange
      return (.record fields, stop)

def fieldAt (levels : Nat) (inner : Option RecordReaderAt) (type : MessageType) (pos : Nat) :
    Except DecodeError (Option (Nat × Value) × Nat) := do
  let (tag, next) ← uint32At buffer limit pos
  match type.kind? (tag / 8) with
  | some kind =>
    let (value, next) ← valueAt buffer limit inner kind next
    return (some (tag / 8, value), next)
  | none => return (none, ← skipValueAt buffer limit levels (tag % 8) next)

end

section

variable {buffer : List UInt8} {limit pos next : Nat}

theorem le_of_skipGroupsAt {levels opened : Nat}
    (h : skipGroupsAt buffer limit levels opened pos = .ok next) (hp : pos ≤ limit) :
    pos ≤ next ∧ next ≤ limit := by
  fun_induction skipGroupsAt buffer limit levels opened pos with
  | case1 =>
    cases h
    omega
  | case2 => cases h
  | case3 _ _ _ _ _ hi ih =>
    have hitem := lt_of_skipGroupItemAt hi
    have hmore := ih h hitem.2
    omega

theorem le_of_skipValueAt {levels wireType : Nat}
    (h : skipValueAt buffer limit levels wireType pos = .ok next) (hp : pos ≤ limit) :
    pos ≤ next ∧ next ≤ limit := by
  unfold skipValueAt at h
  split at h
  · exact le_of_skipGroupsAt h hp
  · exact le_of_skipScalarAt h

theorem lt_of_valueAt {inner : Option RecordReaderAt} {kind : Kind} {v : Value}
    (h : valueAt buffer limit inner kind pos = .ok (v, next)) : pos < next ∧ next ≤ limit := by
  cases kind with
  | text =>
    obtain ⟨⟨count, mid⟩, hc, h⟩ := bind_eq_ok_iff.mp h
    have hcount := lt_of_uint32At hc
    cases h
    omega
  | int32 =>
    obtain ⟨⟨n, mid⟩, hn, h⟩ := bind_eq_ok_iff.mp h
    cases h
    exact lt_of_uint32At hn
  | uint64 =>
    obtain ⟨⟨n, mid⟩, hn, h⟩ := bind_eq_ok_iff.mp h
    cases h
    exact lt_of_uint64At hn
  | bool =>
    obtain ⟨⟨n, mid⟩, hn, h⟩ := bind_eq_ok_iff.mp h
    cases h
    exact lt_of_uint32At hn
  | message type =>
    obtain ⟨⟨count, mid⟩, hc, h⟩ := bind_eq_ok_iff.mp h
    have hcount := lt_of_uint32At hc
    cases inner with
    | none => cases h
    | some read =>
      simp only [throw, throwThe, MonadExceptOf.throw] at h
      split at h
      · cases h
      · obtain ⟨⟨fields, stop⟩, _, h⟩ := bind_eq_ok_iff.mp h
        dsimp only at h
        split at h
        · cases h
        · cases h
          omega

theorem lt_of_fieldAt {levels : Nat} {inner : Option RecordReaderAt} {type : MessageType}
    {found : Option (Nat × Value)}
    (h : fieldAt buffer limit levels inner type pos = .ok (found, next)) :
    pos < next ∧ next ≤ limit := by
  obtain ⟨⟨tag, mid⟩, ht, h⟩ := bind_eq_ok_iff.mp h
  have htag := lt_of_uint32At ht
  dsimp only at h
  split at h
  · obtain ⟨⟨value, stop⟩, hv, h⟩ := bind_eq_ok_iff.mp h
    have hvalue := lt_of_valueAt hv
    cases h
    omega
  · obtain ⟨stop, hs, h⟩ := bind_eq_ok_iff.mp h
    have hskip := le_of_skipValueAt hs htag.2
    cases h
    omega

end

section

variable (buffer : List UInt8)

def fieldsAt (levels : Nat) (inner : Option RecordReaderAt) (type : MessageType)
    (limit pos : Nat) : Except DecodeError (Record × Nat) :=
  if limit ≤ pos then .ok ([], pos)
  else
    match _h : fieldAt buffer limit levels inner type pos with
    | .error e => .error e
    | .ok (found, next) =>
      (fieldsAt levels inner type limit next).map fun (fields, stop) =>
        (found.toList ++ fields, stop)
termination_by limit - pos
decreasing_by
  have hfield := lt_of_fieldAt _h
  omega

def recordAt : Nat → RecordReaderAt
  | 0 => fieldsAt buffer 0 none
  | levels + 1 => fieldsAt buffer (levels + 1) (some (recordAt levels))

def innerReaderAt : Nat → Option RecordReaderAt
  | 0 => none
  | levels + 1 => some (recordAt buffer levels)

/-- Passing over the rest of `opened` groups, a tag is read that goes from `start` to `next`. What
comes after that tag may fail. -/
inductive GroupReadsTag (limit levels : Nat) : (opened pos start next : Nat) → Prop where
  | own {opened pos tag next : Nat} :
      opened ≠ 0 → uint32At buffer limit pos = .ok (tag, next) →
      GroupReadsTag limit levels opened pos pos next
  | later {opened opened' pos mid start next : Nat} :
      opened ≠ 0 → skipGroupItemAt buffer limit levels opened pos = .ok (opened', mid) →
      GroupReadsTag limit levels opened' mid start next →
      GroupReadsTag limit levels opened pos start next

/-- Reading a message from a position on, a tag is read that goes from `start` to `next`: one of its
own, one in a group that is passed over, or one of a message inside. -/
inductive ReadsTag : (levels : Nat) → MessageType → (limit pos start next : Nat) → Prop where
  | own {levels : Nat} {type : MessageType} {limit pos tag next : Nat} :
      uint32At buffer limit pos = .ok (tag, next) → ReadsTag levels type limit pos pos next
  | group {levels : Nat} {type : MessageType} {limit pos tag mid start next : Nat} :
      uint32At buffer limit pos = .ok (tag, mid) → type.kind? (tag / 8) = none → tag % 8 = 3 →
      GroupReadsTag buffer limit levels 1 mid start next → ReadsTag levels type limit pos start next
  | message {levels : Nat} {type inner : MessageType}
      {limit pos tag mid count first start next : Nat} :
      uint32At buffer limit pos = .ok (tag, mid) → type.kind? (tag / 8) = some (.message inner) →
      uint32At buffer limit mid = .ok (count, first) → first + count ≤ limit →
      ReadsTag levels inner (first + count) first start next →
      ReadsTag (levels + 1) type limit pos start next
  | later {levels : Nat} {type : MessageType} {limit pos mid start next : Nat}
      {found : Option (Nat × Value)} :
      fieldAt buffer limit levels (innerReaderAt buffer levels) type pos = .ok (found, mid) →
      ReadsTag levels type limit mid start next → ReadsTag levels type limit pos start next

end

section

variable {buffer : List UInt8} {levels limit pos start next : Nat}

theorem GroupReadsTag.bounds {opened : Nat}
    (h : GroupReadsTag buffer limit levels opened pos start next) :
    pos ≤ start ∧ start < next ∧ next ≤ limit := by
  induction h with
  | own _ ht =>
    have htag := lt_of_uint32At ht
    omega
  | later _ hi _ ih =>
    have hitem := lt_of_skipGroupItemAt hi
    omega

theorem ReadsTag.bounds {type : MessageType}
    (h : ReadsTag buffer levels type limit pos start next) :
    pos ≤ start ∧ start < next ∧ next ≤ limit := by
  induction h with
  | own ht =>
    have htag := lt_of_uint32At ht
    omega
  | group ht _ _ hg =>
    have htag := lt_of_uint32At ht
    have hgroup := hg.bounds
    omega
  | message ht _ hc _ _ ih =>
    have htag := lt_of_uint32At ht
    have hcount := lt_of_uint32At hc
    omega
  | later hf _ ih =>
    have hfield := lt_of_fieldAt hf
    omega

end

end ProtoNaming.Wire

import ProtoNaming.Proofs.Wire.Fields

namespace ProtoNaming.Wire

open Text

theorem readUint32_encodeTag {limit number wireType : Nat} (rest : List UInt8)
    (hn : number < 2 ^ 29) (hw : wireType < 8) :
    readUint32 limit (encodeTag number wireType ++ rest) = .ok (number * 8 + wireType, rest) :=
  readUint32_encodeVarint rest (by omega)

theorem skipVarint_of_varintBytes {limit : Nat} {value : List UInt8} (rest : List UInt8)
    (h : VarintBytes value) : skipVarint limit (value ++ rest) = .ok rest := by
  induction h with
  | last hb => rw [List.cons_append, List.nil_append, skipVarint, if_pos hb]
  | more hb _ ih => rw [List.cons_append, skipVarint, if_neg (by omega), ih]

theorem skipBytes_of_length {limit count : Nat} {value : List UInt8} (rest : List UInt8)
    (h : value.length = count) : skipBytes limit count (value ++ rest) = .ok rest := by
  subst h
  rw [skipBytes, if_pos (by simp), List.drop_left]

theorem skipScalar_of_scalarBytes {limit wireType : Nat} {value : List UInt8} (rest : List UInt8)
    (h : ScalarBytes wireType value) (hl : value.length < 2 ^ 32) :
    skipScalar limit wireType (value ++ rest) = .ok rest := by
  cases h with
  | varint h => exact skipVarint_of_varintBytes rest h
  | fixed64 h => exact skipBytes_of_length rest h
  | fixed32 h => exact skipBytes_of_length rest h
  | counted bs =>
    rw [encodeCounted, List.length_append] at hl
    simp only [skipScalar, encodeCounted, List.append_assoc,
      readUint32_encodeVarint (bs ++ rest) (show bs.length < 2 ^ 32 by omega)]
    exact skipBytes_of_length rest rfl

/-- One field inside `opened` groups that opens no other leaves them open. -/
theorem skipGroupItem_scalar {levels limit opened number wireType : Nat} {value : List UInt8}
    (rest : List UInt8) (hn : number < 2 ^ 29) (h : ScalarBytes wireType value)
    (hl : value.length < 2 ^ 32) (ho : opened ≤ levels) :
    skipGroupItem levels limit opened (encodeTag number wireType ++ value ++ rest) =
      .ok (opened, rest) := by
  obtain ⟨hw, h3, h4⟩ := h.wireType_cases
  have ht : (number * 8 + wireType) % 8 = wireType := by omega
  simp only [skipGroupItem, List.append_assoc, readUint32_encodeTag _ hn hw, bind, Except.bind, ht,
    h3, h4, if_false, Nat.not_lt.mpr ho, skipScalar_of_scalarBytes rest h hl, pure, Except.pure]

theorem skipGroupItem_open {levels limit opened number : Nat} (rest : List UInt8)
    (hn : number < 2 ^ 29) (ho : opened ≤ levels) :
    skipGroupItem levels limit opened (encodeTag number 3 ++ rest) = .ok (opened + 1, rest) := by
  have ht : (number * 8 + 3) % 8 = 3 := by omega
  simp only [skipGroupItem, readUint32_encodeTag rest hn (show 3 < 8 by decide), bind, Except.bind,
    ht, Nat.not_lt.mpr ho, pure, Except.pure]
  rfl

theorem skipGroupItem_close {levels limit opened number : Nat} (rest : List UInt8)
    (hn : number < 2 ^ 29) :
    skipGroupItem levels limit opened (encodeTag number 4 ++ rest) = .ok (opened - 1, rest) := by
  have ht : (number * 8 + 4) % 8 = 4 := by omega
  simp only [skipGroupItem, readUint32_encodeTag rest hn (show 4 < 8 by decide), bind, Except.bind,
    ht, pure, Except.pure]
  rfl

theorem skipGroups_of_item {levels limit opened opened' : Nat} {bs rest : List UInt8}
    (h : skipGroupItem levels limit (opened + 1) bs = .ok (opened', rest)) :
    skipGroups levels limit (opened + 1) bs = skipGroups levels limit opened' rest := by
  rw [skipGroups, if_neg (Nat.succ_ne_zero opened)]
  split
  · next e he => simp [h] at he
  · next opened'' rest' he =>
    obtain ⟨rfl, rfl⟩ : opened' = opened'' ∧ rest = rest' := by simpa [h] using he
    rfl

/-- The contents of a group are passed over inside it. The groups around them and the levels they
may still use add up to those of the message. -/
theorem skipGroups_of_groupBytes {below levels limit : Nat} {body : List UInt8}
    (h : GroupBytes below body) (hl : body.length < 2 ^ 32) :
    ∀ (opened : Nat) (rest : List UInt8), below + opened = levels →
      skipGroups levels limit (opened + 1) (body ++ rest) =
        skipGroups levels limit (opened + 1) rest := by
  induction h with
  | nil => exact fun _ _ _ => rfl
  | @scalar below number wireType value bs hn hs _ ih =>
    intro opened rest hd
    simp only [List.length_append] at hl
    rw [List.append_assoc,
      skipGroups_of_item (skipGroupItem_scalar _ hn hs (by omega) (by omega))]
    exact ih (by omega) opened rest hd
  | @group below number closing body bs hn _ hc _ ihb ihr =>
    intro opened rest hd
    simp only [List.length_append] at hl
    rw [List.append_assoc, List.append_assoc, List.append_assoc,
      skipGroups_of_item (skipGroupItem_open _ hn (by omega)),
      ihb (by omega) (opened + 1) _ (by omega),
      skipGroups_of_item (skipGroupItem_close _ hc), Nat.add_sub_cancel]
    exact ihr (by omega) opened rest hd

theorem skipValue_of_unknownBytes {levels limit wireType : Nat} {value : List UInt8}
    (rest : List UInt8) (h : UnknownBytes levels wireType value) (hl : value.length < 2 ^ 32) :
    skipValue levels limit wireType (value ++ rest) = .ok rest := by
  cases h with
  | scalar h =>
    rw [skipValue, if_neg h.wireType_cases.2.1]
    exact skipScalar_of_scalarBytes rest h hl
  | @group closing body h hc =>
    rw [List.length_append] at hl
    rw [skipValue, if_pos rfl, List.append_assoc,
      skipGroups_of_groupBytes h (by omega) 0 _ (Nat.add_zero levels),
      skipGroups_of_item (skipGroupItem_close rest hc), skipGroups]
    rfl

theorem signed32_mod {n : Int} (hl : -2 ^ 31 ≤ n) (hh : n < 2 ^ 31) :
    signed32 ((n % 2 ^ 64).toNat % 2 ^ 32) = n := by
  unfold signed32
  split <;> omega

theorem readUint32_encodeVarint_int32 {limit : Nat} {n : Int} (rest : List UInt8)
    (hl : -2 ^ 31 ≤ n) (hh : n < 2 ^ 31) :
    readUint32 limit (encodeVarint (n % 2 ^ 64).toNat ++ rest) =
      .ok ((n % 2 ^ 64).toNat % 2 ^ 32, rest) := by
  by_cases hn : 0 ≤ n
  · have small : (n % 2 ^ 64).toNat < 2 ^ 32 := by omega
    rw [Nat.mod_eq_of_lt small]
    exact readUint32_encodeVarint rest small
  · exact readUint32_encodeVarint_of_ge rest (by omega) (by omega)

theorem readUint32_bool {limit : Nat} (b : Bool) (rest : List UInt8) :
    readUint32 limit ((if b then 1 else 0) :: rest) = .ok (if b then 1 else 0, rest) := by
  cases b <;> rfl

theorem readValue_of_valueBytes {inner : Option RecordReader} {limit : Nat} {kind : Kind}
    {value : List UInt8} {v : Value} (rest : List UInt8) (h : ValueBytes kind value v)
    (hl : value.length < 2 ^ 32) : readValue inner limit kind (value ++ rest) = .ok (v, rest) := by
  cases h with
  | text s =>
    rw [encodeCounted, List.length_append] at hl
    simp only [readValue, encodeCounted, List.append_assoc, bind, Except.bind, pure, Except.pure,
      readUint32_encodeVarint _ (show (encodeUtf8 s.toList).length < 2 ^ 32 by omega),
      List.take_left, List.drop_left, decodeUtf8_encodeUtf8, String.ofList_toList]
  | @int32 n hn hh =>
    simp only [readValue, bind, Except.bind, pure, Except.pure,
      readUint32_encodeVarint_int32 rest hn hh, signed32_mod hn hh]
  | uint64 hn =>
    simp only [readValue, bind, Except.bind, pure, Except.pure, readUint64_encodeVarint rest hn]
  | bool b =>
    simp only [readValue, bind, Except.bind, pure, Except.pure, List.cons_append, List.nil_append,
      readUint32_bool]
    cases b <;> rfl

/-- The reader of messages inside one that may have `levels` of them. -/
def innerReader : Nat → Option RecordReader
  | 0 => none
  | levels + 1 => some (readRecord levels)

theorem readRecord_eq (levels : Nat) :
    readRecord levels = readFields levels (innerReader levels) := by
  cases levels <;> rfl

theorem readField_known {levels limit number wireType : Nat} {inner : Option RecordReader}
    {type : MessageType} {kind : Kind} (bs : List UInt8)
    (hk : type.kind? number = some kind) (hw : wireType < 8) :
    readField levels inner type limit (encodeTag number wireType ++ bs) =
      (readValue inner limit kind bs).map fun (v, rest) => (some (number, v), rest) := by
  have hd : (number * 8 + wireType) / 8 = number := by omega
  simp only [readField, readUint32_encodeTag bs (MessageType.lt_of_kind? hk) hw, bind, Except.bind,
    hd, hk]
  cases readValue inner limit kind bs <;> rfl

theorem readField_unknown {levels limit number wireType : Nat} {inner : Option RecordReader}
    {type : MessageType} {value : List UInt8} (rest : List UInt8) (hk : type.kind? number = none)
    (hn : number < 2 ^ 29) (h : UnknownBytes levels wireType value) (hl : value.length < 2 ^ 32) :
    readField levels inner type limit (encodeTag number wireType ++ (value ++ rest)) =
      .ok (none, rest) := by
  have hw := h.wireType_lt
  have hd : (number * 8 + wireType) / 8 = number := by omega
  have hm : (number * 8 + wireType) % 8 = wireType := by omega
  simp only [readField, readUint32_encodeTag _ hn hw, bind, Except.bind, hd, hk, hm,
    skipValue_of_unknownBytes rest h hl, pure, Except.pure]

theorem readFields_nil {levels limit : Nat} {inner : Option RecordReader} {type : MessageType} :
    readFields levels inner type limit [] = .ok [] := by
  rw [readFields, if_pos rfl]

theorem readFields_of_field {levels limit : Nat} {inner : Option RecordReader} {type : MessageType}
    {bs rest : List UInt8} {found : Option (Nat × Value)}
    (h : readField levels inner type limit bs = .ok (found, rest)) :
    readFields levels inner type limit bs =
      (readFields levels inner type limit rest).map (found.toList ++ ·) := by
  have hlt := length_lt_of_readField h
  have hne : bs ≠ [] := List.ne_nil_of_length_pos (by omega)
  rw [readFields, if_neg hne]
  split
  · next e he => simp [h] at he
  · next found' rest' he =>
    obtain ⟨rfl, rfl⟩ : found = found' ∧ rest = rest' := by simpa [h] using he
    rfl

theorem readFields_of_field_error {levels limit : Nat} {inner : Option RecordReader}
    {type : MessageType} {bs : List UInt8} {e : DecodeError} (hne : bs ≠ [])
    (h : readField levels inner type limit bs = .error e) :
    readFields levels inner type limit bs = .error e := by
  rw [readFields, if_neg hne]
  split
  · next e' he => simpa [h] using he.symm
  · next found rest he => simp [h] at he

/-- Reading a message inside another one is reading its bytes. -/
theorem readValue_message {levels limit : Nat} {type : MessageType} {body : List UInt8}
    (rest : List UInt8) (hl : body.length < 2 ^ 32) :
    ∃ limit', readValue (some (readRecord levels)) limit (.message type)
      (encodeCounted body ++ rest) =
        (readRecord levels type limit' body).map fun fields => (.record fields, rest) := by
  refine ⟨limit - (body ++ rest).length + body.length, ?_⟩
  have hb : ¬(body ++ rest).length < body.length := by simp
  simp only [readValue, encodeCounted, List.append_assoc, readUint32_encodeVarint _ hl, bind,
    Except.bind, hb, if_false, List.take_left, List.drop_left, pure, Except.pure]
  cases readRecord levels type (limit - (body ++ rest).length + body.length) body <;> rfl

theorem readRecord_nil {levels limit : Nat} {type : MessageType} :
    readRecord levels type limit [] = .ok [] := by
  rw [readRecord_eq, readFields_nil]

theorem map_append_map {α ε : Type} (as bs : List α) (x : Except ε (List α)) :
    (x.map (bs ++ ·)).map (as ++ ·) = x.map (as ++ bs ++ ·) := by
  cases x with
  | error e => rfl
  | ok cs => exact congrArg Except.ok (List.append_assoc as bs cs).symm

/-- Reading goes through a sequence of fields to what stands after it. -/
theorem readRecord_append_of_fields {levels : Nat} {type : MessageType} {bs : List UInt8}
    {r : Record} (h : Fields levels type bs r) (hl : bs.length < 2 ^ 32) :
    ∀ limit rest, readRecord levels type limit (bs ++ rest) =
      (readRecord levels type limit rest).map (r ++ ·) := by
  induction h with
  | @nil levels type =>
    intro limit rest
    rw [List.nil_append]
    cases readRecord levels type limit rest <;> rfl
  | @value levels number type kind value bs v r hk hv _ ih =>
    intro limit rest
    simp only [List.length_append] at hl
    have hf : readField levels (innerReader levels) type limit
        (encodeTag number kind.wireType ++ (value ++ (bs ++ rest))) =
          .ok (some (number, v), bs ++ rest) := by
      rw [readField_known _ hk kind.wireType_lt, readValue_of_valueBytes _ hv (by omega)]
      rfl
    rw [readRecord_eq, List.append_assoc, List.append_assoc, readFields_of_field hf,
      ← readRecord_eq, ih (by omega) limit rest, map_append_map]
    rfl
  | @message levels number type inner body bs fields r hk _ _ ihb ihr =>
    intro limit rest
    simp only [List.length_append, encodeCounted] at hl
    obtain ⟨limit', hv⟩ := @readValue_message levels limit inner body (bs ++ rest) (by omega)
    -- The bytes inside are read with nothing after them.
    have hbody := ihb (by omega) limit' []
    rw [List.append_nil, readRecord_nil, Except.map, List.append_nil] at hbody
    have hf : readField (levels + 1) (innerReader (levels + 1)) type limit
        (encodeTag number 2 ++ (encodeCounted body ++ (bs ++ rest))) =
          .ok (some (number, .record fields), bs ++ rest) := by
      rw [readField_known _ hk (by decide), innerReader, hv, hbody]
      rfl
    rw [readRecord_eq, List.append_assoc, List.append_assoc, readFields_of_field hf,
      ← readRecord_eq, ihr (by omega) limit rest, map_append_map]
    rfl
  | @unknown levels number wireType type value bs r hk hn hu _ ih =>
    intro limit rest
    simp only [List.length_append] at hl
    rw [readRecord_eq, List.append_assoc, List.append_assoc,
      readFields_of_field (readField_unknown (bs ++ rest) hk hn hu (by omega)), ← readRecord_eq,
      ih (by omega) limit rest, map_append_map]
    rfl

/-- Reading a sequence of fields gives the known ones among them, in order. -/
theorem readRecord_of_fields {levels : Nat} {type : MessageType} {bs : List UInt8} {r : Record}
    (h : Fields levels type bs r) (hl : bs.length < 2 ^ 32) :
    ∀ limit, readRecord levels type limit bs = .ok r := by
  intro limit
  have hr := readRecord_append_of_fields h hl limit []
  rwa [List.append_nil, readRecord_nil, Except.map, List.append_nil] at hr

end ProtoNaming.Wire

import ProtoNaming.Proofs.Wire.Reading

namespace ProtoNaming.Wire

mutual

/-- How many messages are inside each other in a value, itself included. -/
def Value.depth : Value → Nat
  | .record fields => Record.depth fields + 1
  | _ => 0

def Record.depth : List (Nat × Value) → Nat
  | [] => 0
  | (_, v) :: r => max (Value.depth v) (Record.depth r)

end

/-- Every field is one of its message type and holds a value of its kind. -/
inductive Record.Fits : MessageType → Record → Prop where
  | nil {type : MessageType} : Fits type []
  | value {number : Nat} {type : MessageType} {kind : Kind} {bytes : List UInt8} {v : Value}
      {r : Record} :
      type.kind? number = some kind → ValueBytes kind bytes v → Fits type r →
      Fits type ((number, v) :: r)
  | message {number : Nat} {type inner : MessageType} {fields r : Record} :
      type.kind? number = some (.message inner) → Fits inner fields → Fits type r →
      Fits type ((number, .record fields) :: r)

theorem encodeField_of_valueBytes {number : Nat} {kind : Kind} {bytes : List UInt8} {v : Value}
    (h : ValueBytes kind bytes v) :
    encodeField number v = encodeTag number kind.wireType ++ bytes := by
  have hp : (2 : Int) ^ 64 = 0x10000000000000000 := rfl
  cases h with
  | int32 => rw [encodeField, Kind.wireType, hp]
  | _ => rw [encodeField, Kind.wireType]

theorem depth_of_valueBytes {kind : Kind} {bytes : List UInt8} {v : Value}
    (h : ValueBytes kind bytes v) : v.depth = 0 := by
  cases h <;> simp [Value.depth]

theorem Record.Fits.append {type : MessageType} {r r' : Record} (h : Fits type r)
    (h' : Fits type r') : Fits type (r ++ r') := by
  induction h with
  | nil => exact h'
  | value hk hv _ ih => exact .value hk hv (ih h')
  | message hk hb _ _ ih => exact .message hk hb (ih h')

namespace Record

variable {number : Nat}

theorem depth_append (r r' : Record) : depth (r ++ r') = max (depth r) (depth r') := by
  induction r with
  | nil => rw [List.nil_append, depth, Nat.zero_max]
  | cons field r ih =>
    obtain ⟨number, v⟩ := field
    rw [List.cons_append, depth, ih, depth, Nat.max_assoc]

theorem depth_ofText (s : Option String) : depth (ofText number s) = 0 := by
  cases s with
  | none => rfl
  | some s => simp [ofText, depth, Value.depth]

theorem depth_ofTexts (ss : List String) : depth (ofTexts number ss) = 0 := by
  induction ss with
  | nil => rfl
  | cons s ss ih =>
    have htext : (Value.text s).depth = 0 := by simp [Value.depth]
    rw [ofTexts] at ih
    rw [ofTexts, List.map_cons, depth, htext, ih, Nat.max_self]

theorem depth_ofNat (n : Option Nat) : depth (ofNat number n) = 0 := by
  cases n with
  | none => rfl
  | some n => simp [ofNat, depth, Value.depth]

theorem depth_ofRecords {rs : List Record} {d : Nat} (h : ∀ r ∈ rs, depth r ≤ d) :
    depth (ofRecords number rs) ≤ d + 1 := by
  induction rs with
  | nil => exact Nat.zero_le _
  | cons r rs ih =>
    obtain ⟨hr, hrs⟩ := List.forall_mem_cons.mp h
    have hrest := ih hrs
    rw [ofRecords] at hrest
    rw [ofRecords, List.map_cons, depth, Value.depth]
    omega

end Record

/-- The bytes of a record that is not too deep are fields, and all of them known. -/
theorem fields_encodeFields {levels : Nat} {type : MessageType} {r : Record}
    (h : Record.Fits type r) (hd : Record.depth r ≤ levels) :
    Fields levels type (encodeFields r) r := by
  induction h generalizing levels with
  | nil => exact .nil
  | value hk hv _ ih =>
    rw [Record.depth, depth_of_valueBytes hv] at hd
    rw [encodeFields, encodeField_of_valueBytes hv]
    exact .value hk hv (ih (by omega))
  | message hk _ _ ihb ih =>
    rw [Record.depth, Value.depth] at hd
    obtain ⟨below, rfl⟩ : ∃ below, levels = below + 1 := ⟨levels - 1, by omega⟩
    rw [encodeFields, encodeField]
    exact .message hk (ihb (by omega)) (ih (by omega))

theorem readRecord_encodeFields {levels limit : Nat} {type : MessageType} {r : Record}
    (h : Record.Fits type r) (hl : (encodeFields r).length < 2 ^ 32)
    (hd : Record.depth r ≤ levels) : readRecord levels type limit (encodeFields r) = .ok r :=
  readRecord_of_fields (fields_encodeFields h hd) hl limit

theorem encodeTag_append_ne_nil (number wireType : Nat) (bs : List UInt8) :
    encodeTag number wireType ++ bs ≠ [] :=
  List.append_ne_nil_of_left_ne_nil (encodeVarint_ne_nil _) bs

theorem readValue_message_none {limit : Nat} {type : MessageType} {body : List UInt8}
    (rest : List UInt8) (hl : body.length < 2 ^ 32) :
    readValue none limit (.message type) (encodeCounted body ++ rest) = .error .tooDeep := by
  simp only [readValue, encodeCounted, List.append_assoc, readUint32_encodeVarint _ hl, bind,
    Except.bind, throw, throwThe, MonadExceptOf.throw]

/-- The bytes of a record that is too deep are refused for that, whatever stands after them. -/
theorem readRecord_append_encodeFields_error {levels : Nat} {type : MessageType} {r : Record}
    (h : Record.Fits type r) (hl : (encodeFields r).length < 2 ^ 32)
    (hd : levels < Record.depth r) :
    ∀ limit rest, readRecord levels type limit (encodeFields r ++ rest) = .error .tooDeep := by
  induction h generalizing levels with
  | nil => simp [Record.depth] at hd
  | @value number type kind bytes v r hk hv _ ih =>
    intro limit rest
    rw [Record.depth, depth_of_valueBytes hv] at hd
    rw [encodeFields, encodeField_of_valueBytes hv, List.length_append, List.length_append] at hl
    have hf : readField levels (innerReader levels) type limit
        (encodeTag number kind.wireType ++ (bytes ++ (encodeFields r ++ rest))) =
          .ok (some (number, v), encodeFields r ++ rest) := by
      rw [readField_known _ hk kind.wireType_lt, readValue_of_valueBytes _ hv (by omega)]
      rfl
    rw [encodeFields, encodeField_of_valueBytes hv, readRecord_eq, List.append_assoc,
      List.append_assoc, readFields_of_field hf, ← readRecord_eq,
      ih (by omega) (by omega) limit rest]
    rfl
  | @message number type inner fields r hk hb _ ihb ih =>
    intro limit rest
    rw [Record.depth, Value.depth] at hd
    rw [encodeFields, encodeField, List.length_append, List.length_append, encodeCounted,
      List.length_append] at hl
    have hne := encodeTag_append_ne_nil number 2
      (encodeCounted (encodeFields fields) ++ (encodeFields r ++ rest))
    rw [encodeFields, encodeField, readRecord_eq, List.append_assoc, List.append_assoc]
    cases levels with
    | zero =>
      refine readFields_of_field_error hne ?_
      rw [readField_known _ hk (by decide), innerReader, readValue_message_none _ (by omega)]
      rfl
    | succ below =>
      obtain ⟨limit', hv⟩ := @readValue_message below limit inner (encodeFields fields)
        (encodeFields r ++ rest) (by omega)
      -- What is too deep is in this message, or comes after it.
      by_cases hi : below < Record.depth fields
      · have hbody := ihb (by omega) hi limit' []
        rw [List.append_nil] at hbody
        refine readFields_of_field_error hne ?_
        rw [readField_known _ hk (by decide), innerReader, hv, hbody]
        rfl
      · have hf : readField (below + 1) (innerReader (below + 1)) type limit
            (encodeTag number 2 ++ (encodeCounted (encodeFields fields) ++
              (encodeFields r ++ rest))) =
              .ok (some (number, .record fields), encodeFields r ++ rest) := by
          rw [readField_known _ hk (by decide), innerReader, hv,
            readRecord_encodeFields hb (by omega) (by omega)]
          rfl
        rw [readFields_of_field hf, ← readRecord_eq, ih (by omega) (by omega) limit rest]
        rfl

theorem readRecord_encodeFields_error {levels : Nat} {type : MessageType} {r : Record}
    (h : Record.Fits type r) (hl : (encodeFields r).length < 2 ^ 32)
    (hd : levels < Record.depth r) :
    ∀ limit, readRecord levels type limit (encodeFields r) = .error .tooDeep := by
  intro limit
  have hr := readRecord_append_encodeFields_error h hl hd limit []
  rwa [List.append_nil] at hr

end ProtoNaming.Wire

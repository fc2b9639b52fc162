namespace ProtoNaming.Wire

/-- Why bytes are no message. Positions count from the start of the whole input. -/
inductive DecodeError where
  | outOfRange (pos count limit : Nat)
  /-- A message inside another one ends after it. -/
  | spanOutOfRange
  | invalidWireType (wireType pos : Nat)
  | varintTooLong
  | tooDeep
  deriving DecidableEq

def DecodeError.message : DecodeError → String
  | outOfRange pos count limit =>
    "index out of range: " ++ toString pos ++ " + " ++ toString count ++ " > " ++ toString limit
  | spanOutOfRange => "index out of range"
  | invalidWireType wireType pos =>
    "invalid wire type " ++ toString wireType ++ " at offset " ++ toString pos
  | varintTooLong => "invalid varint encoding"
  | tooDeep => "maximum nesting depth exceeded"

/-- Seven bits to a byte, the low ones first, all bytes but the last with the high bit set. -/
def encodeVarint (n : Nat) : List UInt8 :=
  if n < 128 then [UInt8.ofNat n] else UInt8.ofNat (n % 128 + 128) :: encodeVarint (n / 128)

/-- A number of which `more` bytes may follow the next one; `last` reads the one after which none
may. The bytes end at `limit`, a position in the whole input. -/
def readBits (limit : Nat) (last : UInt8 → List UInt8 → Except DecodeError (Nat × List UInt8)) :
    Nat → List UInt8 → Except DecodeError (Nat × List UInt8)
  | _, [] => .error (.outOfRange limit 1 limit)
  | 0, b :: bs => last b bs
  | more + 1, b :: bs =>
    if b.toNat < 128 then .ok (b.toNat, bs)
    else (readBits limit last more bs).map fun (n, rest) => (b.toNat % 128 + 128 * n, rest)

/-- The fifth byte of a number, which gives its top four bits. Five more bytes belong to it if it
goes on. -/
def readFifth (limit : Nat) (b : UInt8) (bs : List UInt8) : Except DecodeError (Nat × List UInt8) :=
  if b.toNat < 128 then .ok (b.toNat % 16, bs)
  else match bs.drop 4 with
    | [] => .error (.outOfRange limit 10 limit)
    | _ :: rest => .ok (b.toNat % 16, rest)

/-- The low 32 bits of a number of up to ten bytes. -/
def readUint32 (limit : Nat) (bs : List UInt8) : Except DecodeError (Nat × List UInt8) :=
  readBits limit (readFifth limit) 4 bs

def readTenth (b : UInt8) (bs : List UInt8) : Except DecodeError (Nat × List UInt8) :=
  if b.toNat < 128 then .ok (b.toNat % 2, bs) else .error .varintTooLong

def readUint64 (limit : Nat) (bs : List UInt8) : Except DecodeError (Nat × List UInt8) :=
  readBits limit readTenth 9 bs

def skipVarint (limit : Nat) : List UInt8 → Except DecodeError (List UInt8)
  | [] => .error (.outOfRange limit 1 limit)
  | b :: bs => if b.toNat < 128 then .ok bs else skipVarint limit bs

def skipBytes (limit count : Nat) (bs : List UInt8) : Except DecodeError (List UInt8) :=
  if count ≤ bs.length then .ok (bs.drop count)
  else .error (.outOfRange (limit - bs.length) count limit)

theorem length_lt_of_readBits {limit more n : Nat} {bs rest : List UInt8}
    {last : UInt8 → List UInt8 → Except DecodeError (Nat × List UInt8)}
    (hl : ∀ b bs n rest, last b bs = .ok (n, rest) → rest.length ≤ bs.length)
    (h : readBits limit last more bs = .ok (n, rest)) : rest.length < bs.length := by
  induction more generalizing bs n rest with
  | zero =>
    cases bs with
    | nil => simp [readBits] at h
    | cons b bs => exact Nat.lt_succ_of_le (hl b bs n rest h)
  | succ more ih =>
    cases bs with
    | nil => simp [readBits] at h
    | cons b bs =>
      simp only [readBits] at h
      split at h
      · cases h
        simp
      · cases hr : readBits limit last more bs with
        | error e => simp [hr, Except.map] at h
        | ok r =>
          obtain ⟨m, rest'⟩ := r
          simp only [hr, Except.map, Except.ok.injEq, Prod.mk.injEq] at h
          have hlt := ih hr
          rw [← h.2, List.length_cons]
          omega

theorem length_lt_of_readUint32 {limit n : Nat} {bs rest : List UInt8}
    (h : readUint32 limit bs = .ok (n, rest)) : rest.length < bs.length := by
  refine length_lt_of_readBits (fun b bs n rest h => ?_) h
  unfold readFifth at h
  split at h
  · cases h
    exact Nat.le_refl _
  · split at h
    · simp at h
    · next hd =>
      cases h
      have hc := congrArg List.length hd
      simp only [List.length_drop, List.length_cons] at hc
      omega

theorem length_lt_of_readUint64 {limit n : Nat} {bs rest : List UInt8}
    (h : readUint64 limit bs = .ok (n, rest)) : rest.length < bs.length := by
  refine length_lt_of_readBits (fun b bs n rest h => ?_) h
  unfold readTenth at h
  split at h
  · cases h
    exact Nat.le_refl _
  · simp at h

theorem length_lt_of_skipVarint {limit : Nat} {bs rest : List UInt8}
    (h : skipVarint limit bs = .ok rest) : rest.length < bs.length := by
  induction bs with
  | nil => simp [skipVarint] at h
  | cons b bs ih =>
    simp only [skipVarint] at h
    split at h
    · cases h
      simp
    · have hl := ih h
      rw [List.length_cons]
      omega

theorem length_le_of_skipBytes {limit count : Nat} {bs rest : List UInt8}
    (h : skipBytes limit count bs = .ok rest) : rest.length ≤ bs.length := by
  unfold skipBytes at h
  split at h
  · cases h
    simp
  · simp at h

end ProtoNaming.Wire

namespace ProtoNaming.Text

def encodeUtf8 (cs : List Char) : List UInt8 := cs.flatMap String.utf8EncodeChar

structure PartialChar where
  /-- How many bytes come after the next one. -/
  owed : Nat
  low : Nat
  high : Nat
  bits : Nat

/-- What a byte above ASCII begins: a character in its shortest form that is no surrogate and not
past U+10FFFF. -/
def PartialChar.ofLead? (b : Nat) : Option PartialChar :=
  if b < 0xC2 then none
  else if b < 0xE0 then some ⟨0, 0x80, 0xBF, b - 0xC0⟩
  else if b < 0xF0 then
    some ⟨1, if b = 0xE0 then 0xA0 else 0x80, if b = 0xED then 0x9F else 0xBF, b - 0xE0⟩
  else if b < 0xF5 then
    some ⟨2, if b = 0xF0 then 0x90 else 0x80, if b = 0xF4 then 0x8F else 0xBF, b - 0xF0⟩
  else none

def replacement : Char := Char.ofNat 0xFFFD

def decodeFirst (b : Nat) : List Char × Option PartialChar :=
  if b < 0x80 then ([Char.ofNat b], none)
  else match PartialChar.ofLead? b with
    | some p => ([], some p)
    | none => ([replacement], none)

/-- The byte after those of `p`, which become one replacement if the byte does not go on. -/
def decodeNext (p : PartialChar) (b : Nat) : List Char × Option PartialChar :=
  if p.low ≤ b ∧ b ≤ p.high then
    let bits := p.bits * 64 + (b - 0x80)
    match p.owed with
    | 0 => ([Char.ofNat bits], none)
    | owed + 1 => ([], some ⟨owed, 0x80, 0xBF, bits⟩)
  else (replacement :: (decodeFirst b).1, (decodeFirst b).2)

def decodeUtf8From : Option PartialChar → List UInt8 → List Char
  | none, [] => []
  | some _, [] => [replacement]
  | none, b :: bs => (decodeFirst b.toNat).1 ++ decodeUtf8From (decodeFirst b.toNat).2 bs
  | some p, b :: bs => (decodeNext p b.toNat).1 ++ decodeUtf8From (decodeNext p b.toNat).2 bs

/-- The characters of a byte string, with one replacement for each longest start of a character
that does not go on. -/
def decodeUtf8 (bs : List UInt8) : List Char := decodeUtf8From none bs

end ProtoNaming.Text

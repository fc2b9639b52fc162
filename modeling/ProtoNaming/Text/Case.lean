import ProtoNaming.Text.CaseTable
import ProtoNaming.Text.LetterClass

namespace ProtoNaming.Text

/-- Full upper case of one character up to U+FFFF. -/
def upperChar (c : Char) : List Char :=
  if c.toNat < 128 then [c.toUpper]
  else match upperExpansions.lookup c.toNat with
    | some ns => ns.map Char.ofNat
    | none => [Char.ofNat (mapThrough upperRuns c.toNat)]

def lowerChar (c : Char) : List Char :=
  if c.toNat < 128 then [c.toLower]
  else if c = 'İ' then ['i', Char.ofNat 0x307]
  else [Char.ofNat (mapThrough lowerRuns c.toNat)]

def startsCased (cs : List Char) : Bool :=
  (cs.dropWhile isCaseIgnorable).head?.any isCased

/-- Lower case of a text; `inWord` tells whether a cased letter came last before it. -/
def lowerFrom (inWord : Bool) : List Char → List Char
  | [] => []
  | c :: cs =>
    (if c = 'Σ' then [if inWord && !startsCased cs then 'ς' else 'σ'] else lowerChar c)
      ++ lowerFrom (if isCaseIgnorable c then inWord else isCased c) cs

def lower (cs : List Char) : List Char := lowerFrom false cs

theorem upperChar_of_ascii {c : Char} (h : c.toNat < 128) : upperChar c = [c.toUpper] := by
  simp [upperChar, h]

theorem lowerChar_of_ascii {c : Char} (h : c.toNat < 128) : lowerChar c = [c.toLower] := by
  simp [lowerChar, h]

theorem lowerFrom_of_ascii {inWord : Bool} {cs : List Char} (h : ∀ c ∈ cs, c.toNat < 128) :
    lowerFrom inWord cs = cs.map Char.toLower := by
  induction cs generalizing inWord with
  | nil => rfl
  | cons c cs ih =>
    have hc := h c List.mem_cons_self
    have hs : c ≠ 'Σ' := by
      rintro rfl
      exact absurd hc (by decide)
    simp [lowerFrom, hs, lowerChar_of_ascii hc, ih fun d hd => h d (List.mem_cons_of_mem c hd)]

theorem lower_of_ascii {cs : List Char} (h : ∀ c ∈ cs, c.toNat < 128) :
    lower cs = cs.map Char.toLower := lowerFrom_of_ascii h

end ProtoNaming.Text

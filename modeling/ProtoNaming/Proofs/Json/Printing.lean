import ProtoNaming.Proofs.Json.Grammar

namespace ProtoNaming.Json

mutual

def value : Json → Value
  | null => .null
  | bool b => .bool b
  | string s => .string s
  | array items => .array (values items)
  | object members => .object (memberValues members)

def values : List Json → List Value
  | [] => []
  | v :: vs => value v :: values vs

def memberValues : List (String × Json) → List (String × Value)
  | [] => []
  | (k, v) :: ms => (k, value v) :: memberValues ms

end

theorem values_eq_map (vs : List Json) : values vs = vs.map value := by
  induction vs with
  | nil => rfl
  | cons v vs ih => rw [values, ih, List.map_cons]

theorem memberValues_eq_map (ms : List (String × Json)) :
    memberValues ms = ms.map fun m => (m.1, m.2.value) := by
  induction ms with
  | nil => rfl
  | cons m ms ih => rw [memberValues, ih, List.map_cons]

/-- A property of documents holds everywhere if it passes from the parts to the whole. -/
theorem induction {motive : Json → Prop} (null : motive .null) (bool : ∀ b, motive (.bool b))
    (string : ∀ s, motive (.string s))
    (array : ∀ items, (∀ v ∈ items, motive v) → motive (.array items))
    (object : ∀ members, (∀ m ∈ members, motive m.2) → motive (.object members))
    (v : Json) : motive v := by
  cases v with
  | null => exact null
  | bool b => exact bool b
  | string s => exact string s
  | array items =>
    exact array items fun v hv => induction null bool string array object v
  | object members =>
    exact object members fun m hm => induction null bool string array object m.2
termination_by v
decreasing_by
  · have hlt := List.sizeOf_lt_of_mem hv
    simp only [Json.array.sizeOf_spec]
    omega
  · have hlt := List.sizeOf_lt_of_mem hm
    obtain ⟨k, v⟩ := m
    simp only [Prod.mk.sizeOf_spec] at hlt
    simp only [Json.object.sizeOf_spec]
    omega

theorem hexNumber?_hexDigit {n : Nat} (h : n < 0x20) :
    hexNumber? ['0', '0', hexDigit (n / 16), hexDigit (n % 16)] = some n := by
  have hall : ∀ n < 0x20,
      hexNumber? ['0', '0', hexDigit (n / 16), hexDigit (n % 16)] = some n := by decide
  exact hall n h

theorem readsChar_escape (c : Char) (t : List Char) : ReadsChar c (escape c ++ t) t := by
  unfold escape
  split
  · next h => rw [h]; exact .letter t (by decide)
  split
  · next h => rw [h]; exact .letter t (by decide)
  split
  · next h => rw [h]; exact .letter t (by decide)
  split
  · next h => rw [h]; exact .letter t (by decide)
  split
  · next h => rw [h]; exact .letter t (by decide)
  split
  · next h => rw [h]; exact .letter t (by decide)
  split
  · next h => rw [h]; exact .letter t (by decide)
  split
  · next h => exact .code (.unit t ⟨rfl, hexNumber?_hexDigit h⟩)
  · next hq hb _ _ _ _ _ h => exact .plain t (Nat.le_of_not_lt h) hq hb

theorem readsChars_escape (cs t : List Char) :
    ReadsChars cs (cs.flatMap escape ++ '"' :: t) t := by
  induction cs with
  | nil => exact .close t
  | cons c cs ih =>
    rw [List.flatMap_cons, List.append_assoc]
    exact .char (readsChar_escape c _) ih

theorem spaces_newline (n : Nat) (t : List Char) : Spaces (newline n ++ t) t := by
  have hblanks : Spaces (List.replicate n ' ' ++ t) t := by
    induction n with
    | zero => exact .none t
    | succ n ih => exact .some (by decide) ih
  exact .some (by decide) hblanks

theorem reads_quote (s : String) (t : List Char) :
    Reads (.item (.value (.string s))) (quote s ++ t) t := by
  have hquote : quote s ++ t = '"' :: (s.toList.flatMap escape ++ '"' :: t) := by
    simp only [quote, List.cons_append, List.append_assoc, List.nil_append]
  rw [hquote]
  exact .string (readsChars_escape s.toList t)

def printMember (n : Nat) (m : String × Json) : List Char :=
  quote m.1 ++ [':', ' '] ++ print n m.2

theorem reads_printMember {n : Nat} {m : String × Json}
    (h : ∀ t, Reads (.item (.value m.2.value)) (print n m.2 ++ t) t) (t : List Char) :
    Reads (.item (.ofMember (m.1, m.2.value))) (printMember n m ++ t) t := by
  have htext : printMember n m ++ t =
      '"' :: (m.1.toList.flatMap escape ++ '"' :: ':' :: ' ' :: (print n m.2 ++ t)) := by
    simp only [printMember, quote, List.cons_append, List.append_assoc, List.nil_append]
  rw [htext]
  exact .member (readsChars_escape m.1.toList _) (.none _) (.some (by decide) (.none _)) (h t)

/-- What is put before the items after the first. -/
def separated {α : Type} (n : Nat) (text : α → List Char) (as : List α) : List Char :=
  as.flatMap fun a => ',' :: newline n ++ text a

theorem printItems_eq (n : Nat) (vs : List Json) : printItems n vs = separated n (print n) vs := by
  induction vs with
  | nil => rfl
  | cons v vs ih => rw [printItems, ih, separated, separated, List.flatMap_cons]

theorem printMembers_eq (n : Nat) (ms : List (String × Json)) :
    printMembers n ms = separated n (printMember n) ms := by
  induction ms with
  | nil => rfl
  | cons m ms ih =>
    rw [printMembers, ih, separated, separated, List.flatMap_cons, printMember]
    simp only [List.append_assoc]

/-- Items on lines of their own, up to the line of the closing bracket. -/
theorem reads_separated {α : Type} (n m : Nat) {toItem : α → Item} {text : α → List Char}
    {i : Item} {s : List Char} (as : List α) (hi : ∀ t, Reads (.item i) (s ++ t) t)
    (h : ∀ a ∈ as, ∀ t, Reads (.item (toItem a)) (text a ++ t) t) (t : List Char) :
    Reads (.list (i :: as.map toItem))
      (newline n ++ (s ++ (separated n text as ++ (newline m ++ t)))) t := by
  -- The item that the induction moves on is the one before the separated ones.
  induction as generalizing i s with
  | nil => exact .one (spaces_newline n _) (hi _) (spaces_newline m t)
  | cons a as ih =>
    obtain ⟨ha, has⟩ := List.forall_mem_cons.mp h
    have hrest := ih ha has
    have hsplit : separated n text (a :: as) ++ (newline m ++ t) =
        ',' :: (newline n ++ (text a ++ (separated n text as ++ (newline m ++ t)))) := by
      simp only [separated, List.flatMap_cons, List.cons_append, List.append_assoc]
    rw [hsplit]
    exact .more (spaces_newline n _) (hi _) (.none _) hrest

/-- A printed document says what it is made of. -/
theorem reads_print (v : Json) (n : Nat) (t : List Char) :
    Reads (.item (.value v.value)) (print n v ++ t) t := by
  induction v using Json.induction generalizing n t with
  | null => exact .null t
  | bool b =>
    cases b with
    | true => exact .yes t
    | false => exact .no t
  | string s => exact reads_quote s t
  | array items ih =>
    cases items with
    | nil => exact .array (.nil (.none _))
    | cons v vs =>
      obtain ⟨hv, hvs⟩ := List.forall_mem_cons.mp ih
      have htext : print n (.array (v :: vs)) ++ t = '[' :: (newline (n + 2) ++
          (print (n + 2) v ++ (separated (n + 2) (print (n + 2)) vs ++
            (newline n ++ ']' :: t)))) := by
        simp only [print, printItems_eq, List.cons_append, List.append_assoc, List.nil_append]
      have hitems := reads_separated (n + 2) n vs (hv (n + 2))
        (fun w hw => hvs w hw (n + 2)) (']' :: t)
      rw [htext, value, values_eq_map, List.map_cons]
      refine .array ?_
      rw [List.map_cons, List.map_map]
      exact hitems
  | object members ih =>
    cases members with
    | nil => exact .object (.nil (.none _))
    | cons m ms =>
      obtain ⟨hm, hms⟩ := List.forall_mem_cons.mp ih
      have htext : print n (.object (m :: ms)) ++ t = '\x7b' :: (newline (n + 2) ++
          (printMember (n + 2) m ++ (separated (n + 2) (printMember (n + 2)) ms ++
            (newline n ++ '\x7d' :: t)))) := by
        simp only [print, printMembers_eq, printMember, List.cons_append, List.append_assoc,
          List.nil_append]
      have hmembers := reads_separated (n + 2) n ms (reads_printMember (hm (n + 2)))
        (fun k hk => reads_printMember (hms k hk (n + 2))) ('\x7d' :: t)
      rw [htext, value, memberValues_eq_map, List.map_cons]
      refine .object ?_
      rw [List.map_cons, List.map_map]
      exact hmembers

end ProtoNaming.Json

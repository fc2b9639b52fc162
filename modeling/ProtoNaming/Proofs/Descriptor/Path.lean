import ProtoNaming.Proofs.Descriptor.Tree

namespace ProtoNaming

/-- A step into a message or a file: to one of its messages or one of its enums. -/
inductive PathStep where
  | message (index : Nat)
  | enum (index : Nat)
  deriving DecidableEq

/-- All messages come before all enums. -/
inductive PathStep.Before : PathStep → PathStep → Prop where
  | messages {i j : Nat} : i < j → Before (.message i) (.message j)
  | messageEnum (i j : Nat) : Before (.message i) (.enum j)
  | enums {i j : Nat} : i < j → Before (.enum i) (.enum j)

/-- The order of paths, in which a message comes before what is inside it. -/
def PathBefore : List PathStep → List PathStep → Prop := List.Lex PathStep.Before

inductive TypeDescriptor where
  | message (d : MessageDescriptor)
  | enum (d : EnumDescriptor)

namespace TypeDescriptor

def name : TypeDescriptor → String
  | message d => d.name.getD ""
  | enum d => d.name.getD ""

def fields : TypeDescriptor → List FieldDescriptor
  | message d => d.fields
  | enum _ => []

def extensions : TypeDescriptor → List FieldDescriptor
  | message d => d.extensions
  | enum _ => []

end TypeDescriptor

/-- A message or enum of a file with the messages it is inside, the innermost of them first. -/
structure TypePlace where
  outer : List MessageDescriptor
  type : TypeDescriptor

/-- Names put after the package, the innermost first. -/
def qualifiedName (package : String) : List String → String
  | [] => package
  | name :: outer =>
    let parent := qualifiedName package outer
    if parent = "" then name else parent ++ "." ++ name

def TypePlace.fullName (package : String) (t : TypePlace) : String :=
  qualifiedName package (t.type.name :: t.outer.map fun d => d.name.getD "")

/-- The messages that a type is or is inside. -/
def TypePlace.messages (t : TypePlace) : List MessageDescriptor :=
  match t.type with
  | .message d => d :: t.outer
  | .enum _ => t.outer

/-- What is at a path below `outer`, where there are these messages and enums. -/
def typeAt? (outer messages : List MessageDescriptor) (enums : List EnumDescriptor) :
    List PathStep → Option TypePlace
  | [] => none
  | [.message i] => messages[i]?.map fun d => ⟨outer, .message d⟩
  | .message i :: step :: path =>
    messages[i]?.bind fun d => typeAt? (d :: outer) d.nested d.enums (step :: path)
  | [.enum j] => enums[j]?.map fun d => ⟨outer, .enum d⟩
  | .enum _ :: _ :: _ => none

def FileDescriptor.typeAt? (d : FileDescriptor) (path : List PathStep) : Option TypePlace :=
  ProtoNaming.typeAt? [] d.messages d.enums path

theorem PathStep.not_before_self (s : PathStep) : ¬s.Before s := by
  intro h
  cases h <;> omega

theorem not_pathBefore_self (path : List PathStep) : ¬PathBefore path path := by
  induction path with
  | nil => exact (nomatch ·)
  | cons s path ih =>
    intro h
    cases h with
    | rel h => exact s.not_before_self h
    | cons h => exact ih h

/-- What is found at a path is inside the messages that the search is below. -/
theorem mem_messages_of_typeAt? {outer messages : List MessageDescriptor}
    {enums : List EnumDescriptor} {path : List PathStep} {t : TypePlace}
    (h : typeAt? outer messages enums path = some t) : ∀ d ∈ outer, d ∈ t.messages := by
  induction outer, messages, enums, path using typeAt?.induct with
  | case1 => cases h
  | case2 outer messages enums i =>
    obtain ⟨d, _, rfl⟩ := Option.map_eq_some_iff.mp h
    exact fun _ => List.mem_cons_of_mem d
  | case3 outer messages enums i step path ih =>
    obtain ⟨d, _, hd⟩ := Option.bind_eq_some_iff.mp h
    exact fun e he => ih d hd e (List.mem_cons_of_mem d he)
  | case4 outer messages enums j =>
    obtain ⟨e, _, rfl⟩ := Option.map_eq_some_iff.mp h
    exact fun _ hd => hd
  | case5 => cases h

def enumEntries (outer : List MessageDescriptor) (enums : List EnumDescriptor) :
    List (List PathStep × TypePlace) :=
  enums.zipIdx.map fun (d, j) => ([.enum j], ⟨outer, .enum d⟩)

section

variable (keep : MessageDescriptor → Bool)

mutual

def MessageDescriptor.entries (outer : List MessageDescriptor) (d : MessageDescriptor) :
    List (List PathStep × TypePlace) :=
  match d with
  | ⟨_, _, nested, enums, _, _⟩ =>
    messageEntries (d :: outer) 0 nested ++ enumEntries (d :: outer) enums

def messageEntries (outer : List MessageDescriptor) (i : Nat) :
    List MessageDescriptor → List (List PathStep × TypePlace)
  | [] => []
  | d :: ds =>
    (if keep d then
      ([.message i], ⟨outer, .message d⟩) ::
        (d.entries outer).map fun (path, t) => (.message i :: path, t)
    else []) ++ messageEntries outer (i + 1) ds

end

def typeEntries (outer messages : List MessageDescriptor) (enums : List EnumDescriptor) :
    List (List PathStep × TypePlace) :=
  messageEntries keep outer 0 messages ++ enumEntries outer enums

theorem MessageDescriptor.entries_eq (outer : List MessageDescriptor) (d : MessageDescriptor) :
    d.entries keep outer = typeEntries keep (d :: outer) d.nested d.enums := by
  cases d
  rw [entries, typeEntries]

end

theorem mem_enumEntries {outer : List MessageDescriptor} {enums : List EnumDescriptor}
    {path : List PathStep} {t : TypePlace} :
    (path, t) ∈ enumEntries outer enums ↔
      ∃ j d, enums[j]? = some d ∧ path = [.enum j] ∧ t = ⟨outer, .enum d⟩ := by
  rw [enumEntries, List.mem_map]
  constructor
  · rintro ⟨⟨d, j⟩, hd, he⟩
    cases he
    exact ⟨j, d, List.mk_mem_zipIdx_iff_getElem?.mp hd, rfl, rfl⟩
  · rintro ⟨j, d, hd, rfl, rfl⟩
    exact ⟨(d, j), List.mk_mem_zipIdx_iff_getElem?.mpr hd, rfl⟩

section

variable {keep : MessageDescriptor → Bool} {outer : List MessageDescriptor}

theorem mem_messageEntries {messages : List MessageDescriptor} {i : Nat} {path : List PathStep}
    {t : TypePlace} :
    (path, t) ∈ messageEntries keep outer i messages ↔
      ∃ k d, messages[k]? = some d ∧ keep d = true ∧
        ((path = [.message (i + k)] ∧ t = ⟨outer, .message d⟩) ∨
          ∃ rest, path = .message (i + k) :: rest ∧ (rest, t) ∈ d.entries keep outer) := by
  induction messages generalizing i with
  | nil => simp [messageEntries]
  | cons d ds ih =>
    rw [messageEntries, List.mem_append, ih]
    constructor
    · rintro (h | ⟨k, e, he, hk, h⟩)
      · by_cases hk : keep d = true
        · rw [if_pos hk] at h
          refine ⟨0, d, rfl, hk, ?_⟩
          rcases List.mem_cons.mp h with h | h
          · cases h
            exact .inl ⟨rfl, rfl⟩
          · obtain ⟨⟨rest, t'⟩, hr, he⟩ := List.mem_map.mp h
            cases he
            exact .inr ⟨rest, rfl, hr⟩
        · rw [if_neg hk] at h
          cases h
      · refine ⟨k + 1, e, he, hk, ?_⟩
        rwa [show i + (k + 1) = i + 1 + k by omega]
    · rintro ⟨k, e, he, hk, h⟩
      cases k with
      | zero =>
        cases he
        left
        rw [if_pos hk]
        rcases h with ⟨rfl, rfl⟩ | ⟨rest, rfl, h⟩
        · exact List.mem_cons_self
        · exact List.mem_cons_of_mem _ (List.mem_map.mpr ⟨(rest, t), h, rfl⟩)
      | succ k =>
        right
        refine ⟨k, e, he, hk, ?_⟩
        rwa [show i + 1 + k = i + (k + 1) by omega]

section

variable {messages : List MessageDescriptor} {enums : List EnumDescriptor}
  {path : List PathStep} {t : TypePlace}

theorem message_mem_typeEntries {i : Nat} :
    (.message i :: path, t) ∈ typeEntries keep outer messages enums ↔
      ∃ d, messages[i]? = some d ∧ keep d = true ∧
        ((path = [] ∧ t = ⟨outer, .message d⟩) ∨ (path, t) ∈ d.entries keep outer) := by
  rw [typeEntries, List.mem_append, mem_messageEntries, mem_enumEntries]
  constructor
  · rintro (⟨k, d, hd, hk, h⟩ | ⟨j, d, _, h, _⟩)
    · rw [Nat.zero_add] at h
      rcases h with ⟨he, ht⟩ | ⟨rest, he, hr⟩
      · cases he
        exact ⟨d, hd, hk, .inl ⟨rfl, ht⟩⟩
      · cases he
        exact ⟨d, hd, hk, .inr hr⟩
    · cases h
  · rintro ⟨d, hd, hk, h⟩
    refine .inl ⟨i, d, hd, hk, ?_⟩
    rw [Nat.zero_add]
    rcases h with ⟨rfl, ht⟩ | hr
    · exact .inl ⟨rfl, ht⟩
    · exact .inr ⟨path, rfl, hr⟩

theorem enum_mem_typeEntries {j : Nat} :
    (.enum j :: path, t) ∈ typeEntries keep outer messages enums ↔
      ∃ d, enums[j]? = some d ∧ path = [] ∧ t = ⟨outer, .enum d⟩ := by
  rw [typeEntries, List.mem_append, mem_messageEntries, mem_enumEntries]
  constructor
  · rintro (⟨k, d, _, _, ⟨h, _⟩ | ⟨rest, h, _⟩⟩ | ⟨k, d, hd, h, ht⟩)
    · cases h
    · cases h
    · cases h
      exact ⟨d, hd, rfl, ht⟩
  · rintro ⟨d, hd, rfl, ht⟩
    exact .inr ⟨j, d, hd, rfl, ht⟩

theorem nil_not_mem_typeEntries : ([], t) ∉ typeEntries keep outer messages enums := by
  rw [typeEntries, List.mem_append, mem_messageEntries, mem_enumEntries]
  rintro (⟨k, d, _, _, ⟨h, _⟩ | ⟨rest, h, _⟩⟩ | ⟨k, d, _, h, _⟩) <;> cases h

/-- The entries are the types that are found at their paths and are inside no refused message. -/
theorem mem_typeEntries (ho : ∀ d ∈ outer, keep d = true) :
    (path, t) ∈ typeEntries keep outer messages enums ↔
      typeAt? outer messages enums path = some t ∧ ∀ d ∈ t.messages, keep d = true := by
  -- The induction follows the path, each step of which opens one message.
  induction outer, messages, enums, path using typeAt?.induct with
  | case1 outer messages enums =>
    refine ⟨fun h => absurd h nil_not_mem_typeEntries, fun h => ?_⟩
    cases h.1
  | case2 outer messages enums i =>
    rw [message_mem_typeEntries, typeAt?, Option.map_eq_some_iff]
    constructor
    · rintro ⟨d, hd, hk, ⟨_, rfl⟩ | h⟩
      · exact ⟨⟨d, hd, rfl⟩, List.forall_mem_cons.mpr ⟨hk, ho⟩⟩
      · rw [d.entries_eq] at h
        exact absurd h nil_not_mem_typeEntries
    · rintro ⟨⟨d, hd, rfl⟩, hm⟩
      exact ⟨d, hd, hm d List.mem_cons_self, .inl ⟨rfl, rfl⟩⟩
  | case3 outer messages enums i step path ih =>
    rw [message_mem_typeEntries, typeAt?, Option.bind_eq_some_iff]
    constructor
    · rintro ⟨d, hd, hk, ⟨h, _⟩ | h⟩
      · cases h
      · rw [d.entries_eq, ih d (List.forall_mem_cons.mpr ⟨hk, ho⟩)] at h
        exact ⟨⟨d, hd, h.1⟩, h.2⟩
    · rintro ⟨⟨d, hd, h⟩, hm⟩
      have hk := hm d (mem_messages_of_typeAt? h d List.mem_cons_self)
      refine ⟨d, hd, hk, .inr ?_⟩
      rw [d.entries_eq, ih d (List.forall_mem_cons.mpr ⟨hk, ho⟩)]
      exact ⟨h, hm⟩
  | case4 outer messages enums j =>
    rw [enum_mem_typeEntries, typeAt?, Option.map_eq_some_iff]
    constructor
    · rintro ⟨d, hd, _, rfl⟩
      exact ⟨⟨d, hd, rfl⟩, ho⟩
    · rintro ⟨⟨d, hd, rfl⟩, _⟩
      exact ⟨d, hd, rfl, rfl⟩
  | case5 outer messages enums j step path =>
    rw [enum_mem_typeEntries]
    constructor
    · rintro ⟨d, _, h, _⟩
      cases h
    · rintro ⟨h, _⟩
      cases h

end

theorem pairwise_zipIdx {α : Type} (as : List α) : as.zipIdx.Pairwise fun a b => a.2 < b.2 := by
  rw [← List.pairwise_map, List.zipIdx_map_snd]
  exact List.pairwise_lt_range'

theorem pairwise_enumEntries (outer : List MessageDescriptor) (enums : List EnumDescriptor) :
    (enumEntries outer enums).Pairwise fun a b => PathBefore a.1 b.1 := by
  rw [enumEntries, List.pairwise_map]
  exact (pairwise_zipIdx enums).imp fun h => .rel (.enums h)

theorem exists_message_of_mem_messageEntries {messages : List MessageDescriptor} {i : Nat}
    {e : List PathStep × TypePlace} (h : e ∈ messageEntries keep outer i messages) :
    ∃ k path, e.1 = .message (i + k) :: path := by
  obtain ⟨k, d, _, _, ⟨he, _⟩ | ⟨path, he, _⟩⟩ := mem_messageEntries.mp h
  · exact ⟨k, [], he⟩
  · exact ⟨k, path, he⟩

theorem pairwise_messageEntries {messages : List MessageDescriptor} (i : Nat)
    (h : ∀ d ∈ messages, (d.entries keep outer).Pairwise fun a b => PathBefore a.1 b.1) :
    (messageEntries keep outer i messages).Pairwise fun a b => PathBefore a.1 b.1 := by
  induction messages generalizing i with
  | nil => exact .nil
  | cons d ds ih =>
    obtain ⟨hd, hds⟩ := List.forall_mem_cons.mp h
    have hlater := ih (i + 1) hds
    rw [messageEntries]
    by_cases hk : keep d = true
    -- The message comes first, then what is inside it, then its later neighbours.
    · rw [if_pos hk, List.cons_append, List.pairwise_cons, List.pairwise_append, List.pairwise_map]
      refine ⟨fun b hb => ?_, hd.imp fun hab => .cons hab, hlater, fun a ha b hb => ?_⟩
      · rcases List.mem_append.mp hb with hb | hb
        · obtain ⟨⟨path, t⟩, hp, rfl⟩ := List.mem_map.mp hb
          rw [d.entries_eq] at hp
          cases path with
          | nil => exact absurd hp nil_not_mem_typeEntries
          | cons step path => exact .cons .nil
        · obtain ⟨k, path, hp⟩ := exists_message_of_mem_messageEntries hb
          rw [hp]
          exact .rel (.messages (by omega))
      · obtain ⟨⟨path, t⟩, _, rfl⟩ := List.mem_map.mp ha
        obtain ⟨k, path', hp⟩ := exists_message_of_mem_messageEntries hb
        rw [hp]
        exact .rel (.messages (by omega))
    · rw [if_neg hk, List.nil_append]
      exact hlater

theorem pairwise_typeEntries_of_entries {messages : List MessageDescriptor}
    (h : ∀ d ∈ messages, (d.entries keep outer).Pairwise fun a b => PathBefore a.1 b.1)
    (enums : List EnumDescriptor) :
    (typeEntries keep outer messages enums).Pairwise fun a b => PathBefore a.1 b.1 := by
  refine List.pairwise_append.mpr
    ⟨pairwise_messageEntries 0 h, pairwise_enumEntries outer enums, fun a ha b hb => ?_⟩
  obtain ⟨k, path, ha⟩ := exists_message_of_mem_messageEntries ha
  obtain ⟨j, d, _, hb, _⟩ := mem_enumEntries.mp hb
  rw [ha, hb]
  exact .rel (.messageEnum _ j)

theorem MessageDescriptor.pairwise_entries (d : MessageDescriptor) :
    (d.entries keep outer).Pairwise fun a b => PathBefore a.1 b.1 := by
  induction d using MessageDescriptor.induction generalizing outer with
  | step d ih =>
    rw [d.entries_eq]
    exact pairwise_typeEntries_of_entries (fun n hn => ih n hn) d.enums

theorem pairwise_typeEntries (messages : List MessageDescriptor) (enums : List EnumDescriptor) :
    (typeEntries keep outer messages enums).Pairwise fun a b => PathBefore a.1 b.1 :=
  pairwise_typeEntries_of_entries (fun d _ => d.pairwise_entries) enums

/-- The types in a message, itself the first of them. -/
def MessageDescriptor.types (keep : MessageDescriptor → Bool) (outer : List MessageDescriptor)
    (d : MessageDescriptor) : List TypePlace :=
  if keep d then ⟨outer, .message d⟩ :: (d.entries keep outer).map (·.2) else []

theorem map_snd_messageEntries (messages : List MessageDescriptor) (i : Nat) :
    (messageEntries keep outer i messages).map (·.2) =
      messages.flatMap (MessageDescriptor.types keep outer) := by
  induction messages generalizing i with
  | nil => rfl
  | cons d ds ih =>
    rw [messageEntries, List.map_append, ih, List.flatMap_cons, MessageDescriptor.types]
    split
    · rw [List.map_cons, List.map_map]
      rfl
    · rfl

theorem map_snd_enumEntries (enums : List EnumDescriptor) :
    (enumEntries outer enums).map (·.2) = enums.map fun d => ⟨outer, .enum d⟩ := by
  have hf : ((·.2) ∘ fun (d, j) => (([.enum j], ⟨outer, .enum d⟩) : List PathStep × TypePlace)) =
      (fun d => (⟨outer, .enum d⟩ : TypePlace)) ∘ Prod.fst := rfl
  rw [enumEntries, List.map_map, hf, ← List.map_map, List.zipIdx_map_fst]

theorem map_snd_typeEntries (messages : List MessageDescriptor) (enums : List EnumDescriptor) :
    (typeEntries keep outer messages enums).map (·.2) =
      messages.flatMap (MessageDescriptor.types keep outer) ++
        enums.map fun d => ⟨outer, .enum d⟩ := by
  rw [typeEntries, List.map_append, map_snd_messageEntries, map_snd_enumEntries]

theorem MessageDescriptor.types_eq (d : MessageDescriptor) :
    d.types keep outer =
      if keep d then
        ⟨outer, .message d⟩ :: (d.nested.flatMap (types keep (d :: outer)) ++
          d.enums.map fun e => ⟨d :: outer, .enum e⟩)
      else [] := by
  rw [types, entries_eq, map_snd_typeEntries]

end

end ProtoNaming

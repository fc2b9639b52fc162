import ProtoNaming.Proofs.Manifest.Total
import ProtoNaming.Proofs.Schema.Elements

namespace ProtoNaming

/-- Rows for exactly the things that are declared, one for each place and in the order of places. -/
def ListedInOrder {ι α ρ : Type} (before : ι → ι → Prop) (declared : ι → α → Prop)
    (describes : α → ρ → Prop) (rows : List ρ) : Prop :=
  ∃ entries : List (ι × α), entries.Pairwise (fun a b => before a.1 b.1) ∧
    (entries.map (·.1)).Nodup ∧ (∀ i a, (i, a) ∈ entries ↔ declared i a) ∧
    List.Forall₂ (fun e row => describes e.2 row) entries rows

section

variable {ι α ρ : Type} {before : ι → ι → Prop} {declared : ι → α → Prop}
  {describes : α → ρ → Prop} {rows : List ρ}

theorem ListedInOrder.of_entries {entries : List (ι × α)} (irrefl : ∀ i, ¬before i i)
    (sorted : entries.Pairwise fun a b => before a.1 b.1)
    (complete : ∀ i a, (i, a) ∈ entries ↔ declared i a)
    (described : List.Forall₂ (fun e row => describes e.2 row) entries rows) :
    ListedInOrder before declared describes rows := by
  have distinct : (entries.map (·.1)).Nodup := by
    refine List.pairwise_map.mpr (sorted.imp fun {a b} hab he => ?_)
    rw [he] at hab
    exact irrefl b.1 hab
  exact ⟨entries, sorted, distinct, complete, described⟩

theorem ListedInOrder.exists_row (h : ListedInOrder before declared describes rows) {i : ι} {a : α}
    (hd : declared i a) : ∃ row ∈ rows, describes a row := by
  obtain ⟨entries, _, _, hm, hr⟩ := h
  obtain ⟨k, hk, he⟩ := List.mem_iff_getElem.mp ((hm i a).mpr hd)
  have hl : k < rows.length := by
    rw [← hr.length_eq]
    exact hk
  have hrow := hr.get hk hl
  simp only [List.get_eq_getElem, he] at hrow
  exact ⟨rows[k], List.getElem_mem hl, hrow⟩

theorem ListedInOrder.exists_declared (h : ListedInOrder before declared describes rows) {row : ρ}
    (hrow : row ∈ rows) : ∃ i a, declared i a ∧ describes a row := by
  obtain ⟨entries, _, _, hm, hr⟩ := h
  obtain ⟨⟨i, a⟩, he, hd⟩ := exists_left_of_forall₂ hr hrow
  exact ⟨i, a, (hm i a).mp he, hd⟩

end

/-- The order of fields: that of the paths of their messages, then that of declaration. -/
def FieldBefore : List PathStep × Nat → List PathStep × Nat → Prop := Prod.Lex PathBefore (· < ·)

theorem not_fieldBefore_self (i : List PathStep × Nat) : ¬FieldBefore i i := by
  intro h
  cases h with
  | left _ _ h => exact not_pathBefore_self _ h
  | right _ h => exact Nat.lt_irrefl _ h

/-- Neither a map entry nor inside one. -/
def TypePlace.IsListed (t : TypePlace) : Prop := ∀ d ∈ t.messages, d.isMapEntry = false

instance (t : TypePlace) : Decidable t.IsListed :=
  inferInstanceAs (Decidable (∀ d ∈ t.messages, d.isMapEntry = false))

namespace FileDescriptor

variable (d : FileDescriptor)

def FieldAt (i : List PathStep × Nat) (x : TypePlace × FieldDescriptor) : Prop :=
  d.typeAt? i.1 = some x.1 ∧ x.1.IsListed ∧ x.1.type.fields[i.2]? = some x.2

def extensionsIn : Option TypePlace → List FieldDescriptor
  | none => d.extensions
  | some t => t.type.extensions

/-- What declares extensions at a path, which is the file itself at its start. -/
def ScopeAt (path : List PathStep) : Option TypePlace → Prop
  | none => path = []
  | some t => d.typeAt? path = some t

def ExtensionAt (i : List PathStep × Nat) (x : Option TypePlace × FieldDescriptor) : Prop :=
  d.ScopeAt i.1 x.1 ∧ (d.extensionsIn x.1)[i.2]? = some x.2

end FileDescriptor

section

variable {α β : Type}

/-- The items of all entries in order, each with its index in its own entry. -/
def numbered (items : α → List β) (entries : List (List PathStep × α)) :
    List ((List PathStep × Nat) × (α × β)) :=
  entries.flatMap fun e => (items e.2).zipIdx.map fun x => ((e.1, x.2), (e.2, x.1))

variable (items : α → List β) {entries : List (List PathStep × α)}

theorem mem_numbered {i : List PathStep × Nat} {x : α × β} :
    (i, x) ∈ numbered items entries ↔ (i.1, x.1) ∈ entries ∧ (items x.1)[i.2]? = some x.2 := by
  rw [numbered, List.mem_flatMap]
  constructor
  · rintro ⟨e, he, hx⟩
    obtain ⟨⟨b, k⟩, hb, hx⟩ := List.mem_map.mp hx
    cases hx
    exact ⟨he, List.mk_mem_zipIdx_iff_getElem?.mp hb⟩
  · rintro ⟨he, hx⟩
    exact ⟨(i.1, x.1), he,
      List.mem_map.mpr ⟨(x.2, i.2), List.mk_mem_zipIdx_iff_getElem?.mpr hx, rfl⟩⟩

theorem pairwise_numbered (h : entries.Pairwise fun a b => PathBefore a.1 b.1) :
    (numbered items entries).Pairwise fun a b => FieldBefore a.1 b.1 := by
  rw [numbered, List.pairwise_flatMap]
  constructor
  · intro e _
    rw [List.pairwise_map]
    exact (pairwise_zipIdx (items e.2)).imp fun hab => .right e.1 hab
  · refine h.imp fun {a b} hab x hx y hy => ?_
    obtain ⟨x', _, rfl⟩ := List.mem_map.mp hx
    obtain ⟨y', _, rfl⟩ := List.mem_map.mp hy
    exact .left _ _ hab

theorem map_numbered {γ : Type} (entries : List (List PathStep × α)) (f : α → β → γ) :
    (numbered items entries).map (fun e => f e.2.1 e.2.2) =
      (entries.map (·.2)).flatMap fun a => (items a).map (f a) := by
  rw [numbered, List.map_flatMap, List.flatMap_map]
  refine List.flatMap_congr fun e _ => ?_
  have hf : (fun x : (List PathStep × Nat) × (α × β) => f x.2.1 x.2.2) ∘
      (fun x : β × Nat => ((e.1, x.2), (e.2, x.1))) = f e.2 ∘ Prod.fst := rfl
  rw [List.map_map, hf, ← List.map_map, List.zipIdx_map_fst]

end

section

variable {file : File} {targets : List Target}

theorem TypeRow.of_build {e : Element} {row : TypeRow} (h : build file targets e = .ok row) :
    row.kind = e.kind ∧ row.fullName = e.place.decl.fullName := by
  obtain ⟨object, cls, _, _, rfl⟩ := build_eq_ok_iff.mp h
  exact ⟨rfl, rfl⟩

theorem FieldRow.of_build {message : Decl} {f : Field} {row : FieldRow}
    (h : build file targets message f = .ok row) :
    row.message = message.fullName ∧ row.name = f.name := by
  obtain ⟨kind, needed, _, _, rfl⟩ := build_eq_ok_iff.mp h
  exact ⟨rfl, rfl⟩

theorem ExtensionRow.of_build {f : Field} {row : ExtensionRow}
    (h : build file targets f = .ok row) :
    row.scope = f.scope.map (·.decl.fullName) ∧ row.name = f.name ∧ row.extendee = f.extendee := by
  obtain ⟨classPath, objectPath, importName, lookupName, _, _, _, _, rfl⟩ := build_eq_ok_iff.mp h
  exact ⟨rfl, rfl, rfl⟩

theorem File.rows_of_manifest {m : Manifest} (h : file.manifest targets = .ok m) :
    List.Forall₂ (fun e row => TypeRow.build file targets e = .ok row)
      (file.elements Message.isListed) m.types ∧
    List.Forall₂ (fun p row => FieldRow.build file targets p.1 p.2 = .ok row)
      ((file.preorder Message.isListed).flatMap Message.ownedFields) m.fields ∧
    List.Forall₂ (fun f row => ExtensionRow.build file targets f = .ok row)
      file.allExtensions m.extensions := by
  obtain ⟨types, fields, extensions, ht, hf, he, rfl⟩ := manifest_eq_ok_iff.mp h
  exact ⟨ht, hf, he⟩

end

namespace MessageDescriptor

variable {package : String} {outer : List MessageDescriptor} {decls : List Decl}

theorem isListed_toMessage (n : MessageDescriptor) (parent : String) (decls : List Decl)
    (index : Nat) : (n.toMessage parent decls index).isListed = !n.isMapEntry := by
  cases n
  rfl

/-- A field of a type with its message, and that field in the schema. -/
def DescribesOwned (package : String) (x : TypePlace × FieldDescriptor) (y : Decl × Field) : Prop :=
  y.1.fullName = x.1.fullName package ∧ y.2.name = x.2.name.getD ""

theorem describes_ownedFields (n : MessageDescriptor) (hs : StandFor package outer decls)
    (index : Nat) :
    List.Forall₂ (DescribesOwned package) (n.fields.map fun f => (⟨outer, .message n⟩, f))
      (n.toMessage (parentName package decls) decls index).ownedFields := by
  rw [Message.ownedFields, fields_toMessage, List.map_map, List.forall₂_map_left_iff,
    List.forall₂_map_right_iff]
  exact List.forall₂_same.mpr fun f _ => ⟨(n.isPlace_toMessage hs index).fullName_eq, rfl⟩

/-- An extension with its scope, and that extension in the schema. -/
structure DescribesScoped (package : String) (x : Option TypePlace × FieldDescriptor) (f : Field) :
    Prop where
  scope : f.scope.map (·.decl.fullName) = x.1.map (TypePlace.fullName package)
  name : f.name = x.2.name.getD ""
  extendee : f.extendee = x.2.extendee.map withoutLeadingDot

theorem describes_extensions (n : MessageDescriptor) (hs : StandFor package outer decls)
    (index : Nat) :
    List.Forall₂ (DescribesScoped package)
      (n.extensions.map fun f => (some ⟨outer, .message n⟩, f))
      (n.toMessage (parentName package decls) decls index).extensions := by
  have hplace := n.isPlace_toMessage hs index
  rw [place_toMessage] at hplace
  rw [extensions_toMessage, List.forall₂_map_left_iff, List.forall₂_map_right_iff]
  exact List.forall₂_same.mpr fun f _ => ⟨congrArg some hplace.fullName_eq, rfl, rfl⟩

end MessageDescriptor

namespace FileDescriptor

variable (d : FileDescriptor)

def listedEntries : List (List PathStep × TypePlace) :=
  typeEntries (fun n => !n.isMapEntry) [] d.messages d.enums

/-- The file and all types with their paths, the file first. -/
def scopeEntries : List (List PathStep × Option TypePlace) :=
  ([], none) :: (typeEntries (fun _ => true) [] d.messages d.enums).map fun e => (e.1, some e.2)

theorem mem_listedEntries {path : List PathStep} {t : TypePlace} :
    (path, t) ∈ d.listedEntries ↔ d.typeAt? path = some t ∧ t.IsListed := by
  rw [listedEntries, mem_typeEntries (List.forall_mem_nil _)]
  simp only [Bool.not_eq_true']
  rfl

theorem pairwise_listedEntries : d.listedEntries.Pairwise fun a b => PathBefore a.1 b.1 :=
  pairwise_typeEntries d.messages d.enums

theorem mem_scopeEntries {path : List PathStep} {scope : Option TypePlace} :
    (path, scope) ∈ d.scopeEntries ↔ d.ScopeAt path scope := by
  rw [scopeEntries, List.mem_cons, List.mem_map]
  cases scope with
  | none =>
    constructor
    · rintro (h | ⟨e, _, h⟩)
      · exact (Prod.mk.inj h).1
      · cases h
    · intro h
      exact .inl (Prod.ext h rfl)
  | some t =>
    have ht : (path, t) ∈ typeEntries (fun _ => true) [] d.messages d.enums ↔
        d.typeAt? path = some t ∧ ∀ _ ∈ t.messages, true = true :=
      mem_typeEntries (List.forall_mem_nil _)
    constructor
    · rintro (h | ⟨e, he, h⟩)
      · cases h
      · cases h
        exact (ht.mp he).1
    · intro h
      exact .inr ⟨(path, t), ht.mpr ⟨h, fun _ _ => rfl⟩, rfl⟩

theorem pairwise_scopeEntries : d.scopeEntries.Pairwise fun a b => PathBefore a.1 b.1 := by
  rw [scopeEntries, List.pairwise_cons, List.pairwise_map]
  refine ⟨fun e he => ?_, pairwise_typeEntries d.messages d.enums⟩
  obtain ⟨⟨path, t⟩, hp, rfl⟩ := List.mem_map.mp he
  cases path with
  | nil => exact absurd hp nil_not_mem_typeEntries
  | cons step path => exact .nil

theorem describes_ownedFields :
    List.Forall₂ (fun e => MessageDescriptor.DescribesOwned d.toFile.package e.2)
      (numbered (fun t => t.type.fields) d.listedEntries)
      ((d.toFile.preorder Message.isListed).flatMap Message.ownedFields) := by
  have hfields : (numbered (fun t => t.type.fields) d.listedEntries).map (·.2) =
      (d.listedEntries.map (·.2)).flatMap fun t => t.type.fields.map (t, ·) :=
    map_numbered _ _ Prod.mk
  refine List.forall₂_map_left_iff.mp ?_
  rw [hfields]
  exact d.forall₂_preorder MessageDescriptor.isListed_toMessage (fun _ _ => rfl)
    fun n _ _ index hs => n.describes_ownedFields hs index

theorem describes_allExtensions :
    List.Forall₂ (fun e => MessageDescriptor.DescribesScoped d.toFile.package e.2)
      (numbered d.extensionsIn d.scopeEntries) d.toFile.allExtensions := by
  have hscopes : d.scopeEntries.map (·.2) = none :: (d.types fun _ => true).map some := by
    rw [scopeEntries, types, List.map_cons, List.map_map, List.map_map]
    rfl
  have hextensions : (numbered d.extensionsIn d.scopeEntries).map (·.2) =
      (d.scopeEntries.map (·.2)).flatMap fun scope => (d.extensionsIn scope).map (scope, ·) :=
    map_numbered _ _ Prod.mk
  refine List.forall₂_map_left_iff.mp ?_
  rw [hextensions, hscopes, List.flatMap_cons, List.flatMap_map]
  refine List.rel_append ?_ ?_
  · rw [List.forall₂_map_left_iff]
    exact List.forall₂_map_right_iff.mpr (List.forall₂_same.mpr fun f _ => ⟨rfl, rfl, rfl⟩)
  · exact d.forall₂_preorder (fun _ _ _ _ => rfl) (fun _ _ => rfl)
      fun n _ _ index hs => n.describes_extensions hs index

variable {targets : List Target} {m : Manifest}

theorem listed_types (h : d.toFile.manifest targets = .ok m) :
    ListedInOrder PathBefore (fun path t => d.typeAt? path = some t ∧ t.IsListed)
      (fun t row => row.kind = t.type.kind ∧ row.fullName = t.fullName d.toFile.package)
      m.types := by
  obtain ⟨ht, _, _⟩ := File.rows_of_manifest h
  have hdescribed := d.describes_elements MessageDescriptor.isListed_toMessage
  rw [types, List.forall₂_map_left_iff] at hdescribed
  refine .of_entries not_pathBefore_self d.pairwise_listedEntries
    (fun _ _ => d.mem_listedEntries) (forall₂_trans ?_ hdescribed ht)
  intro e element row he hr
  obtain ⟨hk, hn⟩ := TypeRow.of_build hr
  exact ⟨hk.trans he.kind, hn.trans he.place.fullName_eq⟩

theorem listed_fields (h : d.toFile.manifest targets = .ok m) :
    ListedInOrder FieldBefore d.FieldAt
      (fun x row => row.message = x.1.fullName d.toFile.package ∧ row.name = x.2.name.getD "")
      m.fields := by
  obtain ⟨_, hf, _⟩ := File.rows_of_manifest h
  have sorted := pairwise_numbered (fun t : TypePlace => t.type.fields) d.pairwise_listedEntries
  refine .of_entries not_fieldBefore_self sorted (fun i x => ?_)
    (forall₂_trans ?_ d.describes_ownedFields hf)
  · rw [mem_numbered, d.mem_listedEntries, FieldAt, and_assoc]
  · intro e p row he hr
    obtain ⟨hm, hn⟩ := FieldRow.of_build hr
    exact ⟨hm.trans he.1, hn.trans he.2⟩

theorem listed_extensions (h : d.toFile.manifest targets = .ok m) :
    ListedInOrder FieldBefore d.ExtensionAt
      (fun x row => row.scope = x.1.map (TypePlace.fullName d.toFile.package) ∧
        row.name = x.2.name.getD "" ∧ row.extendee = x.2.extendee.map withoutLeadingDot)
      m.extensions := by
  obtain ⟨_, _, he⟩ := File.rows_of_manifest h
  have sorted := pairwise_numbered d.extensionsIn d.pairwise_scopeEntries
  refine .of_entries not_fieldBefore_self sorted (fun i x => ?_)
    (forall₂_trans ?_ d.describes_allExtensions he)
  · rw [mem_numbered, d.mem_scopeEntries, ExtensionAt]
  · intro e f row hd hr
    obtain ⟨hs, hn, hx⟩ := ExtensionRow.of_build hr
    exact ⟨hs.trans hd.scope, hn.trans hd.name, hx.trans hd.extendee⟩

/-- The manifest of a file has one row for each of its types, fields and extensions, in the order
of their places, and nothing of map entries but the extensions inside them. -/
theorem exists_manifest_in_order {file : File} (h : d.build = .ok file) (targets : List Target) :
    ∃ m, file.manifest targets = .ok m ∧
      ListedInOrder PathBefore (fun path t => d.typeAt? path = some t ∧ t.IsListed)
        (fun t row => row.kind = t.type.kind ∧ row.fullName = t.fullName (d.package.getD ""))
        m.types ∧
      ListedInOrder FieldBefore d.FieldAt
        (fun x row =>
          row.message = x.1.fullName (d.package.getD "") ∧ row.name = x.2.name.getD "")
        m.fields ∧
      ListedInOrder FieldBefore d.ExtensionAt
        (fun x row => row.scope = x.1.map (TypePlace.fullName (d.package.getD "")) ∧
          row.name = x.2.name.getD "" ∧ row.extendee = x.2.extendee.map withoutLeadingDot)
        m.extensions := by
  obtain ⟨rfl, hs⟩ := d.eq_of_build h
  obtain ⟨m, hm⟩ := d.exists_manifest hs targets
  exact ⟨m, hm, d.listed_types hm, d.listed_fields hm, d.listed_extensions hm⟩

def withMapEntry : FileDescriptor where
  package := some "p"
  messages := [{
    name := some "A"
    fields := [{ name := some "f", typeCode := some 5 }]
    nested := [{
      name := some "Entry"
      extensions := [{ name := some "x", typeCode := some 9 }]
      options := some { mapEntry := some true } }]
    enums := [{ name := some "K" }] }]

theorem exists_manifest_in_order_withMapEntry :
    withMapEntry.build = .ok withMapEntry.toFile ∧
      ∃ m, withMapEntry.toFile.manifest Target.all = .ok m ∧
        (∃ row ∈ m.types, row.kind = .enum ∧ row.fullName = "p.A.K") ∧
        (∃ row ∈ m.extensions, row.scope = some "p.A.Entry" ∧ row.name = "x") ∧
        ∀ row ∈ m.types, ∃ path t, withMapEntry.typeAt? path = some t ∧ t.IsListed ∧
          row.fullName = t.fullName "p" := by
  have hb : withMapEntry.build = .ok withMapEntry.toFile := rfl
  obtain ⟨m, hm, ht, _, he⟩ := withMapEntry.exists_manifest_in_order hb Target.all
  refine ⟨hb, m, hm, ?_, ?_, fun row hr => ?_⟩
  · have hk : withMapEntry.typeAt? [.message 0, .enum 0] =
        some ⟨withMapEntry.messages, .enum { name := some "K" }⟩ := rfl
    obtain ⟨row, hr, hkind, hname⟩ := ht.exists_row ⟨hk, by decide⟩
    exact ⟨row, hr, hkind, hname.trans (by decide)⟩
  · have hx : withMapEntry.ExtensionAt ([.message 0, .message 0], 0)
        (withMapEntry.typeAt? [.message 0, .message 0], { name := some "x", typeCode := some 9 }) :=
      ⟨rfl, rfl⟩
    obtain ⟨row, hr, hscope, hname, _⟩ := he.exists_row hx
    exact ⟨row, hr, hscope.trans (by decide), hname⟩
  · obtain ⟨path, t, ⟨hp, hl⟩, _, hn⟩ := ht.exists_declared hr
    exact ⟨path, t, hp, hl, hn⟩

end FileDescriptor

end ProtoNaming

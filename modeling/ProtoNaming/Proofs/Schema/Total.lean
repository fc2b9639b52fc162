import ProtoNaming.Proofs.Descriptor.Tree
import ProtoNaming.Schema.Build

namespace ProtoNaming

namespace FieldDescriptor

/-- The number of a field's type; none stands for 0, which is no type. -/
def code (d : FieldDescriptor) : Int := d.typeCode.getD 0

def IsSupported (d : FieldDescriptor) : Prop := 1 ≤ d.code ∧ d.code ≤ 18

instance (d : FieldDescriptor) : Decidable d.IsSupported := inferInstanceAs (Decidable (_ ∧ _))

def toField (d : FieldDescriptor) : Field where
  name := d.name.getD ""
  number := d.number.getD 0
  typeCode := d.code
  typeName := d.typeName.map withoutLeadingDot
  label := d.label.getD 1
  defaultValue := d.defaultValue
  jsType := (d.options.bind (·.jsType)).map JsType.ofNumber
  owner := none
  isExtension := false
  extendee := none
  scope := none

def toMember (owner : Place) (d : FieldDescriptor) : Field := { d.toField with owner := some owner }

def toExtension (scope : Option Place) (d : FieldDescriptor) : Field :=
  { d.toField with
    isExtension := true
    extendee := d.extendee.map withoutLeadingDot
    scope := scope }

end FieldDescriptor

namespace MessageDescriptor

mutual

def toMessage (parent : String) (outer : List Decl) (index : Nat) : MessageDescriptor → Message
  | ⟨name, fields, nested, enums, extensions, options⟩ =>
    let decl := Decl.inside parent (name.getD "") index
    let place : Place := ⟨decl, outer⟩
    { place := place
      isMapEntry := options.bind (·.mapEntry) == some true
      fields := fields.map (FieldDescriptor.toMember place)
      nested := toMessages decl.fullName (decl :: outer) 0 nested
      enums := enums.mapIdx (EnumDescriptor.build decl.fullName (decl :: outer))
      extensions := extensions.map (FieldDescriptor.toExtension (some place)) }

def toMessages (parent : String) (outer : List Decl) (index : Nat) :
    List MessageDescriptor → List Message
  | [] => []
  | d :: ds => toMessage parent outer index d :: toMessages parent outer (index + 1) ds

end

theorem toMessages_eq_mapIdx (parent : String) (outer : List Decl) (index : Nat)
    (ds : List MessageDescriptor) :
    toMessages parent outer index ds = ds.mapIdx fun i => toMessage parent outer (index + i) := by
  induction ds generalizing index with
  | nil => rfl
  | cons d ds ih =>
    have hnext : ∀ i, index + 1 + i = index + (i + 1) := by omega
    simp only [toMessages, ih, List.mapIdx_cons, hnext, Nat.add_zero]

end MessageDescriptor

def FileDescriptor.toFile (d : FileDescriptor) : File where
  name := d.name.getD ""
  package := d.package.getD ""
  dialect := Dialect.ofWord d.dialect
  javaPackage := d.options.bind (·.javaPackage)
  javaOuterClassname := d.options.bind (·.javaOuterClassname)
  javaMultipleFiles := d.options.bind (·.javaMultipleFiles) == some true
  messages := d.messages.mapIdx (MessageDescriptor.toMessage (d.package.getD "") [])
  enums := d.enums.mapIdx (EnumDescriptor.build (d.package.getD "") [])
  extensions := d.extensions.map (FieldDescriptor.toExtension none)

/-- The code of the first field whose type is not supported. -/
def firstUnsupported? (fields : List FieldDescriptor) : Option Int :=
  (fields.find? fun f => !decide f.IsSupported).map FieldDescriptor.code

/-- A value, unless one of the fields is not supported. -/
def checked {α : Type} (fields : List FieldDescriptor) (a : α) : Except NamingError α :=
  match firstUnsupported? fields with
  | none => .ok a
  | some code => .error (.unsupportedType code)

theorem firstUnsupported?_append (fs gs : List FieldDescriptor) :
    firstUnsupported? (fs ++ gs) = (firstUnsupported? fs).or (firstUnsupported? gs) := by
  unfold firstUnsupported?
  rw [List.find?_append]
  cases fs.find? _ <;> rfl

theorem firstUnsupported?_eq_none_iff {fields : List FieldDescriptor} :
    firstUnsupported? fields = none ↔ ∀ f ∈ fields, f.IsSupported := by
  simp [firstUnsupported?]

section

variable {α : Type} {fields : List FieldDescriptor}

theorem checked_of_supported (h : ∀ f ∈ fields, f.IsSupported) (a : α) :
    checked fields a = .ok a := by
  rw [checked, firstUnsupported?_eq_none_iff.mpr h]

theorem checked_of_unsupported {code : Int} (h : firstUnsupported? fields = some code) (a : α) :
    checked fields a = .error (.unsupportedType code) := by
  rw [checked, h]

theorem checked_eq_ok_iff {a b : α} :
    checked fields a = .ok b ↔ (∀ f ∈ fields, f.IsSupported) ∧ a = b := by
  rw [← firstUnsupported?_eq_none_iff, checked]
  cases firstUnsupported? fields with
  | none => simp
  | some code => simp

end

theorem checked_bind {α β : Type} {fs gs : List FieldDescriptor} {a : α} {b : β}
    {next : α → Except NamingError β} (h : next a = checked gs b) :
    checked fs a >>= next = checked (fs ++ gs) b := by
  unfold checked at h ⊢
  rw [firstUnsupported?_append]
  cases firstUnsupported? fs with
  | none => exact h
  | some code => rfl

theorem checked_bind_pure {α β : Type} (fs : List FieldDescriptor) (a : α) (f : α → β) :
    (checked fs a >>= fun a => pure (f a)) = checked fs (f a) := by
  unfold checked
  cases firstUnsupported? fs <;> rfl

theorem mapM_checked {α : Type} {f : FieldDescriptor → Except NamingError α}
    {g : FieldDescriptor → α} (fields : List FieldDescriptor) (h : ∀ d, f d = checked [d] (g d)) :
    fields.mapM f = checked fields (fields.map g) := by
  induction fields with
  | nil => rfl
  | cons d fields ih =>
    rw [List.mapM_cons, h d]
    refine checked_bind ?_
    rw [ih, checked_bind_pure, List.map_cons]

theorem FieldType.ofCode_of_supported {code : Int} (h : 1 ≤ code ∧ code ≤ 18) :
    ∃ type, FieldType.ofCode code = .ok type := by
  obtain ⟨type, ht⟩ := Option.isSome_iff_exists.mp ((isSome_ofCode? code).mpr h)
  exact ⟨type, by rw [ofCode, ht]⟩

theorem FieldType.ofCode_of_unsupported {code : Int} (h : ¬(1 ≤ code ∧ code ≤ 18)) :
    FieldType.ofCode code = .error (.unsupportedType code) := by
  rw [← isSome_ofCode?, Option.not_isSome_iff_eq_none] at h
  rw [ofCode, h]

namespace FieldDescriptor

theorem build_eq (d : FieldDescriptor) : d.build = checked [d] d.toField := by
  by_cases h : d.IsSupported
  · obtain ⟨type, ht⟩ := FieldType.ofCode_of_supported h
    have hs : ∀ f ∈ [d], f.IsSupported := List.forall_mem_singleton.mpr h
    rw [checked_of_supported hs]
    simp only [build, show d.typeCode.getD 0 = d.code from rfl, ht]
    rfl
  · have hu : firstUnsupported? [d] = some d.code := by simp [firstUnsupported?, h]
    rw [checked_of_unsupported hu]
    simp only [build, show d.typeCode.getD 0 = d.code from rfl, FieldType.ofCode_of_unsupported h]
    rfl

theorem buildMember_eq (owner : Place) (d : FieldDescriptor) :
    d.buildMember owner = checked [d] (d.toMember owner) := by
  rw [buildMember, build_eq]
  exact checked_bind_pure [d] d.toField fun f => { f with owner := some owner }

theorem buildExtension_eq (scope : Option Place) (d : FieldDescriptor) :
    d.buildExtension scope = checked [d] (d.toExtension scope) := by
  rw [buildExtension, build_eq]
  exact checked_bind_pure [d] d.toField fun f => { f with
    isExtension := true
    extendee := d.extendee.map withoutLeadingDot
    scope := scope }

end FieldDescriptor

namespace MessageDescriptor

/-- Messages are built in full if each of them is. -/
theorem buildAll_eq {parent : String} {outer : List Decl} {ds : List MessageDescriptor}
    (h : ∀ d ∈ ds, ∀ index,
      build parent outer index d = checked d.allFields (d.toMessage parent outer index))
    (index : Nat) :
    buildAll parent outer index ds =
      checked (ds.flatMap allFields) (toMessages parent outer index ds) := by
  induction ds generalizing index with
  | nil => rfl
  | cons d ds ih =>
    obtain ⟨hd, hds⟩ := List.forall_mem_cons.mp h
    rw [buildAll, hd index, List.flatMap_cons]
    refine checked_bind ?_
    rw [ih hds (index + 1), checked_bind_pure, toMessages]

/-- A message is built in full unless one of its fields and extensions, at any depth, is not
supported, and the first of these is reported. -/
theorem build_eq (parent : String) (outer : List Decl) (index : Nat) (d : MessageDescriptor) :
    build parent outer index d = checked d.allFields (d.toMessage parent outer index) := by
  induction d using MessageDescriptor.induction generalizing parent outer index with
  | step d ih =>
    cases d with
    | mk name fields nested enums extensions options =>
    -- Each step puts its own fields behind those checked before it.
    rw [build, allFields_eq, List.append_assoc]
    refine (congrArg (· >>= _) (mapM_checked fields (FieldDescriptor.buildMember_eq _))).trans
      (checked_bind ?_)
    rw [buildAll_eq fun n hn => ih n hn _ _]
    refine checked_bind ?_
    rw [mapM_checked extensions (FieldDescriptor.buildExtension_eq _), checked_bind_pure,
      toMessage]

end MessageDescriptor

/-- A file is built in full unless a field or extension in it is not supported. -/
theorem FileDescriptor.build_eq (d : FileDescriptor) : d.build = checked d.allFields d.toFile := by
  rw [build, allFields, MessageDescriptor.buildAll_eq fun m _ => m.build_eq _ _]
  refine checked_bind ?_
  rw [mapM_checked d.extensions (FieldDescriptor.buildExtension_eq none), checked_bind_pure,
    toFile, MessageDescriptor.toMessages_eq_mapIdx]
  simp only [Nat.zero_add]

theorem FileDescriptor.eq_of_build (d : FileDescriptor) {file : File} (h : d.build = .ok file) :
    file = d.toFile ∧ ∀ f ∈ d.allFields, f.IsSupported := by
  rw [d.build_eq, checked_eq_ok_iff] at h
  exact ⟨h.2.symm, h.1⟩

end ProtoNaming

import ProtoNaming.Manifest.Json
import ProtoNaming.Proofs.Json.Printing
import ProtoNaming.Proofs.Json.Unambiguous

namespace ProtoNaming

namespace Json.Value

variable {α β : Type}

def text? : Value → Option String
  | string s => some s
  | _ => none

def flag? : Value → Option Bool
  | bool b => some b
  | _ => none

def nullable? (read : Value → Option α) : Value → Option (Option α)
  | null => some none
  | v => (read v).map some

def list? (read : Value → Option α) : Value → Option (List α)
  | array items => items.mapM read
  | _ => none

/-- One of several things, by its name. -/
def choice? (all : List α) (name : α → String) (v : Value) : Option α :=
  v.text?.bind fun s => all.find? fun a => name a = s

/-- Takes the members of an object one after the other. -/
abbrev MemberReader := StateT (List (String × Value)) Option

/-- The next member, which has this key. -/
def member (key : String) (read : Value → Option α) : MemberReader α
  | (k, v) :: rest => if k = key then (read v).map (·, rest) else none
  | [] => none

/-- An object of nothing but the members that the reader takes. -/
def object? (reader : MemberReader α) : Value → Option α
  | object members => (reader.run members).bind fun (a, rest) =>
      if rest.isEmpty then some a else none
  | _ => none

theorem member_bind (key : String) (read : Value → Option α) (f : α → MemberReader β) (v : Value)
    (rest : List (String × Value)) :
    (member key read >>= f).run ((key, v) :: rest) = (read v).bind fun a => (f a).run rest := by
  have hnext : (member key read).run ((key, v) :: rest) = (read v).map (·, rest) := if_pos rfl
  rw [StateT.run_bind, hnext]
  cases read v with
  | none => rfl
  | some a => rfl

theorem nullable?_of_eq_some {read : Value → Option α} {v : Value} {a : α}
    (hnull : read null = none) (h : read v = some a) : nullable? read v = some (some a) := by
  cases v with
  | null =>
    rw [hnull] at h
    cases h
  | _ => exact congrArg (Option.map some) h

theorem nullable?_ofOption {read : Value → Option α} {toJson : α → Json}
    (hnull : read null = none) (h : ∀ a, read (toJson a).value = some a) (o : Option α) :
    nullable? read (Json.ofOption toJson o).value = some o := by
  cases o with
  | none => rfl
  | some a => exact nullable?_of_eq_some hnull (h a)

theorem list?_map {read : Value → Option α} {toJson : α → Json}
    (h : ∀ a, read (toJson a).value = some a) (as : List α) :
    list? read (Json.array (as.map toJson)).value = some as := by
  rw [value, values_eq_map, list?]
  induction as with
  | nil => rfl
  | cons a as ih =>
    rw [List.map_cons, List.map_cons, List.mapM_cons, h a, ih]
    rfl

theorem object?_value (reader : MemberReader α) (ms : List (String × Json)) :
    object? reader (Json.object ms).value =
      (reader.run (memberValues ms)).bind fun (a, rest) =>
        if rest.isEmpty then some a else none := by
  rw [value, object?]

theorem text?_value (s : String) : text? (Json.string s).value = some s := rfl

theorem flag?_value (b : Bool) : flag? (Json.bool b).value = some b := rfl

theorem nullable_text?_value (s : Option String) :
    nullable? text? (Json.ofOption Json.string s).value = some s :=
  nullable?_ofOption rfl text?_value s

end Json.Value

open Json.Value

def ElementKind.ofValue? : Json.Value → Option ElementKind :=
  choice? [.message, .enum] ElementKind.name

def Dialect.ofValue? : Json.Value → Option Dialect := choice? [.proto2, .proto3] Dialect.name

def ValueKind.ofValue? : Json.Value → Option ValueKind :=
  choice? [.int, .long, .float, .double, .boolean, .string, .byteString, .enum, .message]
    ValueKind.name

def SanitizedContent.ofValue? : Json.Value → Option SanitizedContent :=
  choice? [.html, .js, .css, .uri, .trustedResourceUri] SanitizedContent.name

def JsType.ofValue? (v : Json.Value) : Option JsType := v.text?.map ofName

def TypeRow.ofValue? : Json.Value → Option TypeRow := object? do
  return {
    kind := ← member "kind" ElementKind.ofValue?
    fullName := ← member "fullName" text?
    objectName := ← member "jsName" (nullable? text?)
    className := ← member "javaName" (nullable? text?) }

def FieldRow.ofValue? : Json.Value → Option FieldRow := object? do
  return {
    message := ← member "message" text?
    name := ← member "name" text?
    accessor := ← member "accessor" (nullable? text?)
    valueKind := ← member "valueKind" ValueKind.ofValue?
    unsigned := ← member "unsigned" flag?
    wideIntAnnotation := ← member "wideIntAnnotation" flag?
    jsType := ← member "jstype" (nullable? JsType.ofValue?)
    presenceCheck := ← member "presenceCheck" flag?
    sanitizedContent := ← member "sanitizedContent" (nullable? SanitizedContent.ofValue?) }

def ExtensionRow.ofValue? : Json.Value → Option ExtensionRow := object? do
  return {
    name := ← member "name" text?
    extendee := ← member "extendee" (nullable? text?)
    scope := ← member "scope" (nullable? text?)
    accessor := ← member "accessor" (nullable? text?)
    classPath := ← member "classAccessPath" (nullable? text?)
    objectPath := ← member "namespacedAccessPath" (nullable? text?)
    importName := ← member "jsImport" (nullable? text?)
    lookupName := ← member "jsName" (nullable? text?) }

def Manifest.ofValue? : Json.Value → Option Manifest := object? do
  return {
    file := ← member "file" text?
    package := ← member "package" text?
    dialect := ← member "syntax" Dialect.ofValue?
    rootName := ← member "namespace" (nullable? text?)
    classPackage := ← member "javaPackage" (nullable? text?)
    outerClass := ← member "javaOuterClassname" (nullable? text?)
    types := ← member "types" (list? TypeRow.ofValue?)
    fields := ← member "fields" (list? FieldRow.ofValue?)
    extensions := ← member "extensions" (list? ExtensionRow.ofValue?) }

theorem ElementKind.ofValue?_string (k : ElementKind) :
    ofValue? (Json.string k.name).value = some k := by
  cases k <;> rfl

theorem Dialect.ofValue?_string (d : Dialect) :
    ofValue? (Json.string d.name).value = some d := by
  cases d <;> rfl

theorem ValueKind.ofValue?_string (k : ValueKind) :
    ofValue? (Json.string k.name).value = some k := by
  cases k <;> rfl

theorem SanitizedContent.ofValue?_string (c : SanitizedContent) :
    ofValue? (Json.string c.name).value = some c := by
  cases c <;> rfl

theorem JsType.ofValue?_string (t : JsType) : ofValue? (Json.string t.name).value = some t :=
  congrArg some (ofName_name t)

theorem TypeRow.ofValue?_toJson (r : TypeRow) : ofValue? r.toJson.value = some r := by
  have hkind := ElementKind.ofValue?_string r.kind
  rw [ofValue?, toJson, object?_value]
  simp only [Json.memberValues, member_bind, text?_value, nullable_text?_value, hkind,
    Option.bind_some]
  rfl

theorem FieldRow.ofValue?_toJson (r : FieldRow) : ofValue? r.toJson.value = some r := by
  have hkind := ValueKind.ofValue?_string r.valueKind
  have htype := nullable?_ofOption rfl JsType.ofValue?_string r.jsType
  have hcontent := nullable?_ofOption rfl SanitizedContent.ofValue?_string r.sanitizedContent
  rw [ofValue?, toJson, object?_value]
  simp only [Json.memberValues, member_bind, text?_value, flag?_value, nullable_text?_value, hkind,
    htype, hcontent, Option.bind_some]
  rfl

theorem ExtensionRow.ofValue?_toJson (r : ExtensionRow) : ofValue? r.toJson.value = some r := by
  rw [ofValue?, toJson, object?_value]
  simp only [Json.memberValues, member_bind, text?_value, nullable_text?_value, Option.bind_some]
  rfl

namespace Manifest

theorem ofValue?_toJson (m : Manifest) : ofValue? m.toJson.value = some m := by
  have hdialect := Dialect.ofValue?_string m.dialect
  have htypes := list?_map TypeRow.ofValue?_toJson m.types
  have hfields := list?_map FieldRow.ofValue?_toJson m.fields
  have hextensions := list?_map ExtensionRow.ofValue?_toJson m.extensions
  rw [ofValue?, toJson, object?_value]
  simp only [Json.memberValues, member_bind, text?_value, nullable_text?_value, hdialect, htypes,
    hfields, hextensions, Option.bind_some]
  rfl

/-- What is written of a manifest before the last line feed. -/
def text (m : Manifest) : List Char := m.toJson.print 0

theorem reads_text (m : Manifest) (t : List Char) :
    Json.Reads (.item (.value m.toJson.value)) (m.text ++ t) t :=
  Json.reads_print m.toJson 0 t

theorem getLast?_text (m : Manifest) : m.text.getLast? = some '\x7d' := by
  rw [text, toJson, Json.print]
  exact List.getLast?_concat

theorem isText_render (m : Manifest) : Json.IsText m.toJson.value m.render.toList := by
  have hrender : m.render.toList = m.text ++ ['\n'] := String.toList_ofList
  rw [hrender]
  exact ⟨_, _, .none _, reads_text m ['\n'], .some (by decide) (.none [])⟩

/-- A manifest is written as one object and a line feed, in a text that says the manifest and
nothing else. -/
theorem render_faithful (m : Manifest) :
    ∃ text v, m.render = String.ofList (text ++ ['\n']) ∧ text.getLast? = some '\x7d' ∧
      Json.Reads (.item (.value v)) text [] ∧ (∀ w, Json.IsText w m.render.toList ↔ w = v) ∧
      ofValue? v = some m ∧ ∀ m' : Manifest, m'.render = m.render → m' = m := by
  have hv := isText_render m
  have hread := reads_text m []
  rw [List.append_nil] at hread
  refine ⟨m.text, m.toJson.value, rfl, getLast?_text m, hread, ?_, ofValue?_toJson m, ?_⟩
  · intro w
    constructor
    · intro hw
      exact hw.unique hv
    · rintro rfl
      exact hv
  · intro m' h
    have hv' := isText_render m'
    rw [h] at hv'
    have hsame : m'.toJson.value = m.toJson.value := hv'.unique hv
    have hback : ofValue? m'.toJson.value = ofValue? m.toJson.value := by rw [hsame]
    rw [ofValue?_toJson, ofValue?_toJson] at hback
    exact Option.some.inj hback

end Manifest

end ProtoNaming

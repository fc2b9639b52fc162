import ProtoNaming.Text.Split
import ProtoNaming.Text.Blank
import ProtoNaming.NamingError
import ProtoNaming.Naming.Target

namespace ProtoNaming

open Text

structure Options where
  logLevel : Option String
  targets : List Target
  deriving DecidableEq

namespace Options

/-- The key and value of a piece with an equals sign that is not its first character. -/
def pair? (piece : List Char) : Option (List Char × List Char) :=
  match cutAt? '=' piece with
  | some (c :: key, value) => some (trim (c :: key), trim value)
  | _ => none

/-- The pairs of a parameter such as `log_level=debug,targets=class`. -/
def pairs (parameter : String) : List (List Char × List Char) :=
  (splitOn ',' parameter.toList).filterMap pair?

def value? (key : String) (pairs : List (List Char × List Char)) : Option (List Char) :=
  (pairs.filterMap fun (k, v) => if k = key.toList then some v else none).getLast?

def target (part : List Char) : Except NamingError Target :=
  let name := String.ofList (trim part)
  match Target.ofName? name with
  | some target => .ok target
  | none => .error (.unknownTarget name)

/-- The targets of a list such as `class+namespaced`, each once. -/
def targetList (value : List Char) : Except NamingError (List Target) :=
  ((splitOn '+' value).mapM target).map List.eraseDups

def parse (parameter : String) : Except NamingError Options := do
  let pairs := pairs parameter
  let targets ← match value? "targets" pairs with
    | some value => targetList value
    | none => .ok Target.all
  return ⟨(value? "log_level" pairs).map String.ofList, targets⟩

end Options

end ProtoNaming

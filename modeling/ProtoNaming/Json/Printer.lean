import ProtoNaming.Json.Basic

namespace ProtoNaming.Json

def hexDigit (n : Nat) : Char := Char.ofNat (if n < 10 then 0x30 + n else 0x57 + n)

/-- A character inside quotes: quotes, backslashes and control characters are escaped. -/
def escape (c : Char) : List Char :=
  if c = '"' then ['\\', '"']
  else if c = '\\' then ['\\', '\\']
  else if c = Char.ofNat 8 then ['\\', 'b']
  else if c = Char.ofNat 12 then ['\\', 'f']
  else if c = '\n' then ['\\', 'n']
  else if c = '\r' then ['\\', 'r']
  else if c = '\t' then ['\\', 't']
  else if c.toNat < 0x20 then
    ['\\', 'u', '0', '0', hexDigit (c.toNat / 16), hexDigit (c.toNat % 16)]
  else [c]

def quote (s : String) : List Char := '"' :: s.toList.flatMap escape ++ ['"']

def newline (indent : Nat) : List Char := '\n' :: List.replicate indent ' '

mutual

/-- A value that starts in a line with this indent. Items and members stand on lines of their own,
two further in. -/
def print (indent : Nat) : Json → List Char
  | null => "null".toList
  | bool b => (if b then "true" else "false").toList
  | string s => quote s
  | array [] => ['[', ']']
  | array (v :: vs) =>
    '[' :: newline (indent + 2) ++ print (indent + 2) v ++ printItems (indent + 2) vs
      ++ newline indent ++ [']']
  | object [] => ['\x7b', '\x7d']
  | object ((k, v) :: ms) =>
    '\x7b' :: newline (indent + 2) ++ quote k ++ [':', ' '] ++ print (indent + 2) v
      ++ printMembers (indent + 2) ms ++ newline indent ++ ['\x7d']

def printItems (indent : Nat) : List Json → List Char
  | [] => []
  | v :: vs => ',' :: newline indent ++ print indent v ++ printItems indent vs

def printMembers (indent : Nat) : List (String × Json) → List Char
  | [] => []
  | (k, v) :: ms =>
    ',' :: newline indent ++ quote k ++ [':', ' '] ++ print indent v ++ printMembers indent ms

end

def render (v : Json) : String := String.ofList (print 0 v ++ ['\n'])

end ProtoNaming.Json

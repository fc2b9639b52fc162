import ProtoNaming.Wire.Reader

namespace ProtoNaming

open Wire

structure OutputFile where
  name : String
  content : String
  deriving DecidableEq

/-- What goes back to the compiler. -/
structure Response where
  error : Option String
  supportedFeatures : Option Nat
  files : List OutputFile
  deriving DecidableEq

def OutputFile.toRecord (f : OutputFile) : Record :=
  .ofText 1 (some f.name) ++ .ofText 15 (some f.content)

def OutputFile.ofRecord (r : Record) : OutputFile where
  name := (r.text? 1).getD ""
  content := (r.text? 15).getD ""

namespace Response

/-- The answer to a request. An empty error is none, and optional fields are always supported. -/
def make (error : Option String) (files : List OutputFile) : Response where
  error := error.filter (· ≠ "")
  supportedFeatures := some 1
  files := files

def toRecord (r : Response) : Record :=
  .ofText 1 r.error ++ .ofNat 2 r.supportedFeatures
    ++ .ofRecords 15 (r.files.map OutputFile.toRecord)

def ofRecord (r : Record) : Response where
  error := r.text? 1
  supportedFeatures := r.nat? 2
  files := (r.records 15).map OutputFile.ofRecord

def encode (r : Response) : List UInt8 := r.toRecord.encode

def decode (bytes : List UInt8) : Except DecodeError Response :=
  (decodeRecord .response bytes).map ofRecord

end Response

end ProtoNaming

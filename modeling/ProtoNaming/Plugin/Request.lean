import ProtoNaming.Descriptor.Record
import ProtoNaming.Wire.Reader

namespace ProtoNaming

open Wire

structure Request where
  filesToGenerate : List String := []
  parameter : Option String := none
  files : List FileDescriptor := []

namespace Request

def toRecord (r : Request) : Record :=
  .ofTexts 1 r.filesToGenerate ++ .ofText 2 r.parameter
    ++ .ofRecords 15 (r.files.map FileDescriptor.toRecord)

def ofRecord (r : Record) : Request where
  filesToGenerate := r.texts 1
  parameter := r.text? 2
  files := (r.records 15).map FileDescriptor.ofRecord

/-- The bytes of a request as the compiler sends it. -/
def encode (r : Request) : List UInt8 := r.toRecord.encode

def decode (bytes : List UInt8) : Except DecodeError Request :=
  (decodeRecord .request bytes).map ofRecord

end Request

end ProtoNaming

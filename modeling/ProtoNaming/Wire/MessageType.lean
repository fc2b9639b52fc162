namespace ProtoNaming.Wire

inductive MessageType where
  | request | file | message | enum | field
  | fileOptions | messageOptions | fieldOptions
  | response | responseFile
  deriving DecidableEq

inductive Kind where
  | text | int32 | uint64 | bool
  | message (type : MessageType)
  deriving DecidableEq

/-- The fields that are known, by number; all others are passed over. -/
def MessageType.kind? : MessageType → Nat → Option Kind
  | request, 1 => some .text
  | request, 2 => some .text
  | request, 15 => some (.message file)
  | file, 1 => some .text
  | file, 2 => some .text
  | file, 3 => some .text
  | file, 4 => some (.message message)
  | file, 5 => some (.message enum)
  | file, 7 => some (.message field)
  | file, 8 => some (.message fileOptions)
  | file, 12 => some .text
  | message, 1 => some .text
  | message, 2 => some (.message field)
  | message, 3 => some (.message message)
  | message, 4 => some (.message enum)
  | message, 6 => some (.message field)
  | message, 7 => some (.message messageOptions)
  | enum, 1 => some .text
  | field, 1 => some .text
  | field, 2 => some .text
  | field, 3 => some .int32
  | field, 4 => some .int32
  | field, 5 => some .int32
  | field, 6 => some .text
  | field, 7 => some .text
  | field, 8 => some (.message fieldOptions)
  | field, 9 => some .int32
  | field, 10 => some .text
  | fileOptions, 1 => some .text
  | fileOptions, 8 => some .text
  | fileOptions, 10 => some .bool
  | messageOptions, 7 => some .bool
  | fieldOptions, 6 => some .int32
  | response, 1 => some .text
  | response, 2 => some .uint64
  | response, 15 => some (.message responseFile)
  | responseFile, 1 => some .text
  | responseFile, 2 => some .text
  | responseFile, 15 => some .text
  | _, _ => none

end ProtoNaming.Wire

import ProtoNaming.Main
import ProtoNaming.Proofs.Text.Utf8
import ProtoNaming.Proofs.Wire.Varint
import ProtoNaming.Proofs.Wire.Fields
import ProtoNaming.Proofs.Wire.Reading
import ProtoNaming.Proofs.Descriptor.RoundTrip
import ProtoNaming.Proofs.Wire.Depth
import ProtoNaming.Proofs.Plugin.RequestRoundTrip
import ProtoNaming.Proofs.Wire.Object
import ProtoNaming.Proofs.Wire.Variant
import ProtoNaming.Proofs.Schema.Regular
import ProtoNaming.Proofs.Naming.Inside
import ProtoNaming.Proofs.Outcome
import ProtoNaming.Proofs.Manifest.Total
import ProtoNaming.Proofs.Plugin.Failure
import ProtoNaming.Proofs.Descriptor.Path
import ProtoNaming.Proofs.Manifest.Rows
import ProtoNaming.Proofs.Schema.Nesting
import ProtoNaming.Proofs.Naming.Qualified
import ProtoNaming.Proofs.Manifest.ExtensionNames
import ProtoNaming.Proofs.Plugin.Independence
import ProtoNaming.Proofs.Json.Grammar
import ProtoNaming.Proofs.Json.Unambiguous
import ProtoNaming.Proofs.Json.Printing
import ProtoNaming.Proofs.Manifest.Reading
import ProtoNaming.Proofs.Identifier.LowerCamel
import ProtoNaming.Proofs.Manifest.Selection
import ProtoNaming.Proofs.Plugin.LevelHistory
import ProtoNaming.Proofs.Plugin.ResponseRoundTrip
import ProtoNaming.Proofs.Manifest.SharedPaths
import ProtoNaming.Proofs.SourcePath.Stem
import ProtoNaming.Proofs.Plugin.OutputNames
import ProtoNaming.Proofs.Wire.Cut
import ProtoNaming.Proofs.Plugin.CutRequest
import ProtoNaming.Proofs.Schema.Stripped
import ProtoNaming.Proofs.Manifest.Columns
import ProtoNaming.Proofs.Naming.Boundary
import ProtoNaming.Proofs.Naming.OuterClass
import ProtoNaming.Proofs.Schema.Links
import ProtoNaming.Proofs.Plugin.Account
import ProtoNaming.Proofs.Text.Case
import ProtoNaming.Proofs.Identifier.Neighbours
import ProtoNaming.Proofs.Naming.Accessor
import ProtoNaming.Proofs.Text.Pieces
import ProtoNaming.Proofs.Plugin.Respelled
import ProtoNaming.Proofs.Identifier.ClassForm
import ProtoNaming.Proofs.Naming.FirstLetter
import ProtoNaming.Proofs.Wire.InPlace
import ProtoNaming.Proofs.Wire.Locality

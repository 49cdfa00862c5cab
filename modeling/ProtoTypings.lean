import ProtoTypings.CommandLine.Arguments
import ProtoTypings.CommandLine.Program
import ProtoTypings.Data.Basic
import ProtoTypings.Data.Yaml
import ProtoTypings.Declaration.Basic
import ProtoTypings.Declaration.Data
import ProtoTypings.Declaration.Message
import ProtoTypings.Declaration.Service
import ProtoTypings.Descriptor
import ProtoTypings.Fault
import ProtoTypings.FieldType
import ProtoTypings.Generation.Generator
import ProtoTypings.Generation.Parallel
import ProtoTypings.Generation.Run
import ProtoTypings.Generation.State
import ProtoTypings.Identifier
import ProtoTypings.Import
import ProtoTypings.Layout.Message
import ProtoTypings.Layout.Service
import ProtoTypings.Log
import ProtoTypings.Main
import ProtoTypings.Options
import ProtoTypings.Path
import ProtoTypings.Proofs.CamelCase
import ProtoTypings.Proofs.Capture
import ProtoTypings.Proofs.Change
import ProtoTypings.Proofs.Collected
import ProtoTypings.Proofs.CommentPlacement
import ProtoTypings.Proofs.Conversion
import ProtoTypings.Proofs.Course
import ProtoTypings.Proofs.DeclaredName
import ProtoTypings.Proofs.Diagnostic
import ProtoTypings.Proofs.DocComment
import ProtoTypings.Proofs.Failure
import ProtoTypings.Proofs.FieldConversion
import ProtoTypings.Proofs.FieldType
import ProtoTypings.Proofs.FirstOffender
import ProtoTypings.Proofs.Group
import ProtoTypings.Proofs.Header
import ProtoTypings.Proofs.ImportCalls
import ProtoTypings.Proofs.ImportOrder
import ProtoTypings.Proofs.ImportPath
import ProtoTypings.Proofs.ImportTwins
import ProtoTypings.Proofs.Imports
import ProtoTypings.Proofs.Indentation
import ProtoTypings.Proofs.Inspection
import ProtoTypings.Proofs.LastSetting
import ProtoTypings.Proofs.Locality
import ProtoTypings.Proofs.MalformedDescriptor
import ProtoTypings.Proofs.MapFolding
import ProtoTypings.Proofs.Mappable
import ProtoTypings.Proofs.Mention
import ProtoTypings.Proofs.OneofMembership
import ProtoTypings.Proofs.OptionFrame
import ProtoTypings.Proofs.Outline
import ProtoTypings.Proofs.Output
import ProtoTypings.Proofs.OutputName
import ProtoTypings.Proofs.Parallel
import ProtoTypings.Proofs.Parameter
import ProtoTypings.Proofs.PathWalk
import ProtoTypings.Proofs.PluginCommand
import ProtoTypings.Proofs.Position
import ProtoTypings.Proofs.Recording
import ProtoTypings.Proofs.Reference
import ProtoTypings.Proofs.RenderedHeaders
import ProtoTypings.Proofs.Request
import ProtoTypings.Proofs.Response
import ProtoTypings.Proofs.Result
import ProtoTypings.Proofs.Retarget
import ProtoTypings.Proofs.Run
import ProtoTypings.Proofs.SchemaTree
import ProtoTypings.Proofs.ScopeName
import ProtoTypings.Proofs.ServiceAlias
import ProtoTypings.Proofs.SharedOneof
import ProtoTypings.Proofs.SymbolTable
import ProtoTypings.Proofs.UnknownOption
import ProtoTypings.Proofs.Verbosity
import ProtoTypings.Proofs.Wire
import ProtoTypings.Proofs.Wording
import ProtoTypings.Request
import ProtoTypings.Response
import ProtoTypings.Schema.Basic
import ProtoTypings.Schema.OfDescriptor
import ProtoTypings.Setting
import ProtoTypings.Symbol
import ProtoTypings.Text.Basic
import ProtoTypings.Text.Quoted
import ProtoTypings.Text.Utf8
import ProtoTypings.Wire.Field
import ProtoTypings.Wire.Record
import ProtoTypings.Wire.Varint

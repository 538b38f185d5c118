import ModuleAssembly.Item
import ModuleAssembly.Main
import ModuleAssembly.Proofs.Assembly.Comments
import ModuleAssembly.Proofs.Assembly.Exports
import ModuleAssembly.Proofs.Assembly.Failure
import ModuleAssembly.Proofs.Assembly.ImportOrder
import ModuleAssembly.Proofs.Assembly.Literals
import ModuleAssembly.Proofs.Assembly.Names
import ModuleAssembly.Proofs.Assembly.Needed
import ModuleAssembly.Proofs.Assembly.Sections
import ModuleAssembly.Proofs.Assembly.Stability
import ModuleAssembly.Proofs.Code.Binding
import ModuleAssembly.Proofs.Code.Formats
import ModuleAssembly.Proofs.CommandLine.Confinement
import ModuleAssembly.Proofs.CommandLine.Unchanged
import ModuleAssembly.Proofs.Generation.FieldNames
import ModuleAssembly.Proofs.Generation.LongSetup
import ModuleAssembly.Proofs.Generation.SourcePaths
import ModuleAssembly.Proofs.Parameters
import ModuleAssembly.Proofs.Paths.Specifiers
import ModuleAssembly.Proofs.Plugin.Failure
import ModuleAssembly.Proofs.Plugin.Order
import ModuleAssembly.Proofs.Resolution.AliasSearch
import ModuleAssembly.Proofs.Resolution.SharedNames
import ModuleAssembly.Proofs.Stream.LineByLine
import ModuleAssembly.Proofs.Stream.LineEnds
import ModuleAssembly.Proofs.Types.Structure
import ModuleAssembly.Proofs.Validation.Blocks
import ModuleAssembly.Proofs.Validation.Shorthand
import ModuleAssembly.Proofs.Code.Printed

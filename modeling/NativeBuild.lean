import NativeBuild.Channel.Callers
import NativeBuild.Deferred.Readers
import NativeBuild.Files.Tree
import NativeBuild.Inspect
import NativeBuild.Main
import NativeBuild.Message
import NativeBuild.Project.Reads
import NativeBuild.Repository.Worklist
import NativeBuild.Proofs.Attribute
import NativeBuild.Proofs.Channel.Callers
import NativeBuild.Proofs.Except
import NativeBuild.Proofs.Graph.Cycle
import NativeBuild.Proofs.ModuleMap.Aggregation
import NativeBuild.Proofs.ModuleMap.Grouping
import NativeBuild.Proofs.ModuleMap.Headers
import NativeBuild.Proofs.ModuleMap.Reordering
import NativeBuild.Proofs.Project.Laziness
import NativeBuild.Proofs.Repository.Reachability
import NativeBuild.Proofs.Repository.Reordering
import NativeBuild.Proofs.Repository.Resolution
import NativeBuild.Proofs.Repository.Validation
import NativeBuild.Proofs.Channel.Registry
import NativeBuild.Proofs.Path.Absolute
import NativeBuild.Proofs.Project.Wiring
import NativeBuild.Proofs.Files.Tree
import NativeBuild.Proofs.Project.Loading
import NativeBuild.Proofs.Manifest.Search
import NativeBuild.Proofs.Project.Anchoring
import NativeBuild.Proofs.Repository.Failures
import NativeBuild.Proofs.ModuleMap.Rendering
import NativeBuild.Proofs.Project.Separation
import NativeBuild.Proofs.Repository.Extension
import NativeBuild.Proofs.Dependency.Notation
import NativeBuild.Proofs.Naming
import NativeBuild.Proofs.Repository.Simulation
import NativeBuild.Proofs.Repository.Arrangement
import NativeBuild.Proofs.Channel.Influence
import NativeBuild.Proofs.Files.Changes
import NativeBuild.Proofs.ModuleMap.Writing
import NativeBuild.Proofs.Repository.Repetition
import NativeBuild.Proofs.Deferred.Readers
import NativeBuild.Proofs.Channel.Requests
import NativeBuild.Proofs.ModuleMap.Generation
import NativeBuild.Proofs.Manifest.Repository
import NativeBuild.Proofs.Repository.Calls
import NativeBuild.Proofs.Command.Json
import NativeBuild.Command.Workers
import NativeBuild.Proofs.Command.ModuleMaps

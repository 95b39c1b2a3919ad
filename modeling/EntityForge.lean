import EntityForge.Artifact
import EntityForge.CommandLine.Program
import EntityForge.Config.Load
import EntityForge.Failure
import EntityForge.Main
import EntityForge.Placeholder
import EntityForge.Proofs.Text.Bytes
import EntityForge.Proofs.Text.Lexeme
import EntityForge.Registry.Registration
import EntityForge.Run.Batch
import EntityForge.Run.Machine
import EntityForge.Proofs.Registry.Boundary
import EntityForge.Proofs.Registry.Cut
import EntityForge.Proofs.Registry.LiveImport
import EntityForge.Proofs.Registry.Nesting
import EntityForge.Proofs.Registry.Division
import EntityForge.Proofs.Registry.Idempotence
import EntityForge.Proofs.Registry.ListLine
import EntityForge.Proofs.Registry.Sequence
import EntityForge.Proofs.Schema.Name
import EntityForge.Proofs.Schema.Balance
import EntityForge.Proofs.Disk.Likeness
import EntityForge.Proofs.EntityName
import EntityForge.Proofs.Run.Action
import EntityForge.Proofs.Run.Batch
import EntityForge.Proofs.Run.Confinement
import EntityForge.Proofs.Run.Effect
import EntityForge.Proofs.Run.Likeness
import EntityForge.Proofs.Run.Registered
import EntityForge.Proofs.Schema.Print
import EntityForge.Proofs.Artifact
import EntityForge.Proofs.Field.Placement
import EntityForge.Proofs.Field.Print
import EntityForge.Proofs.Run.Discovery
import EntityForge.Proofs.Run.Idempotence
import EntityForge.Proofs.Schema.Growth
import EntityForge.Proofs.Field.Grammar
import EntityForge.Proofs.Run.Keeping
import EntityForge.Proofs.Field.Declaration
import EntityForge.Proofs.Registry.Location
import EntityForge.Proofs.Service.Includes
import EntityForge.Proofs.Spelling
import EntityForge.Proofs.Placeholder
import EntityForge.Proofs.Run.Scaffolder
import EntityForge.Proofs.Declaration
import EntityForge.Proofs.Field.Partition
import EntityForge.Proofs.Registry.Tiling
import EntityForge.Proofs.Schema.Slice
import EntityForge.Proofs.Config.Load

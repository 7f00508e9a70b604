import AvroRegistry.Main
import AvroRegistry.Proofs.Compatibility.Records
import AvroRegistry.Proofs.Compatibility.References
import AvroRegistry.Release
import AvroRegistry.Proofs.Compatibility.Branches
import AvroRegistry.Proofs.Compatibility.Passes
import AvroRegistry.Proofs.Compatibility.Budget
import AvroRegistry.Proofs.Compatibility.Verdict
import AvroRegistry.Proofs.Scopes
import AvroRegistry.Proofs.Steps
import AvroRegistry.Proofs.Store.Schemas
import AvroRegistry.Proofs.Store.Versions
import AvroRegistry.Proofs.Storage.Tables
import AvroRegistry.Proofs.Storage.Writes
import AvroRegistry.Proofs.Registry.Opening
import AvroRegistry.Proofs.Registry.Changes
import AvroRegistry.Proofs.Registry.Alike
import AvroRegistry.Proofs.Registry.Faults
import AvroRegistry.Proofs.Registry.Operations
import AvroRegistry.Proofs.Registry.Enrolling
import AvroRegistry.Proofs.Registry.Reachable
import AvroRegistry.Proofs.Registry.Rebuilt
import AvroRegistry.Proofs.Registry.Atomic
import AvroRegistry.Proofs.Registry.Registering
import AvroRegistry.Proofs.Registry.Failing
import AvroRegistry.Proofs.Registry.Effects
import AvroRegistry.Proofs.Registry.Histories
import AvroRegistry.Proofs.Registry.Addressing
import AvroRegistry.Proofs.Json.Arranged
import AvroRegistry.Proofs.Json.Decoded
import AvroRegistry.Proofs.Schema.Submitted
import AvroRegistry.Proofs.Compatibility.Rearranged
import AvroRegistry.Proofs.Compatibility.Reread
import AvroRegistry.Proofs.Registry.Gate
import AvroRegistry.Proofs.Schema.Linked
import AvroRegistry.Proofs.Schema.Respelled
import AvroRegistry.Proofs.Store.Numbering
import AvroRegistry.Proofs.Registry.Isolated
import AvroRegistry.Proofs.Compatibility.Returning
import AvroRegistry.Proofs.Compatibility.Textual
import AvroRegistry.Proofs.Registry.Orderly
import AvroRegistry.Proofs.Compatibility.Reflexive
import AvroRegistry.Proofs.Compatibility.Fuel
import AvroRegistry.Proofs.Compatibility.Nesting
import AvroRegistry.Proofs.Compatibility.Branchwise
import AvroRegistry.Proofs.Registry.Resubmitted
import AvroRegistry.Proofs.Compatibility.Consulted
import AvroRegistry.Proofs.Compatibility.Edited
import AvroRegistry.Proofs.Schema.Extended
import AvroRegistry.Proofs.Compatibility.Relaxed
import AvroRegistry.Proofs.Compatibility.Renamed
import AvroRegistry.Proofs.Registry.DryRun
import AvroRegistry.Proofs.Registry.Weakened
import AvroRegistry.Proofs.Registry.Returned
import AvroRegistry.Proofs.Registry.Recognized
import AvroRegistry.Proofs.Compatibility.AsStored
import AvroRegistry.Proofs.Store.Modes
import AvroRegistry.Proofs.CommandLine.Sessions
import AvroRegistry.Proofs.CommandLine.Scoped
import AvroRegistry.Proofs.Compatibility.Opposite
import AvroRegistry.Proofs.Registry.Keyed

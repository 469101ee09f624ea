import FileRemoval.FileSystem.Rehearsed
import FileRemoval.FileSystem.Traced
import FileRemoval.Host.Listing
import FileRemoval.Main
import FileRemoval.Memory.Request
import FileRemoval.Memory.Walk
import FileRemoval.Proofs.Memory.Operations
import FileRemoval.Proofs.SlotTable.FiniteMap
import FileRemoval.Proofs.Step.Simulation
import FileRemoval.Proofs.Memory.Soundness
import FileRemoval.Proofs.Memory.Histories
import FileRemoval.Proofs.Memory.Listing
import FileRemoval.Proofs.Memory.Tree
import FileRemoval.Proofs.Memory.Disk
import FileRemoval.Proofs.Memory.Refinement
import FileRemoval.Proofs.Memory.Removal
import FileRemoval.Proofs.Host.Paths
import FileRemoval.Proofs.Host.Walk
import FileRemoval.Proofs.Host.Calls
import FileRemoval.Proofs.Host.Mirror
import FileRemoval.Proofs.Host.Session
import FileRemoval.Proofs.Host.Lockstep
import FileRemoval.Proofs.Host.Containment
import FileRemoval.Proofs.FileSystem.Failures
import FileRemoval.Proofs.Host.Files
import FileRemoval.Proofs.Host.Removal
import FileRemoval.Proofs.Program.Outcome
import FileRemoval.Proofs.Host.Places
import FileRemoval.Proofs.Host.Handles
import FileRemoval.Proofs.Remover.Protocol
import FileRemoval.Proofs.FileSystem.HandleTable
import FileRemoval.Proofs.Host.AnyHost
import FileRemoval.Proofs.FileSystem.Lifetimes
import FileRemoval.Proofs.Memory.Changes
import FileRemoval.Proofs.Memory.Permanence
import FileRemoval.Proofs.Memory.Contents
import FileRemoval.Proofs.Remover.Lines
import FileRemoval.Proofs.SlotTable.Histories
import FileRemoval.Proofs.Memory.Restoration
import FileRemoval.Proofs.Memory.Births
import FileRemoval.Proofs.Program.Output
import FileRemoval.Proofs.Remover.Decoding
import FileRemoval.Proofs.Memory.Unrelated
import FileRemoval.Proofs.CommandLine.Spelling
import FileRemoval.Proofs.Path.Cancelling
import FileRemoval.Proofs.Path.Joining
import FileRemoval.Proofs.Path.Length
import FileRemoval.Proofs.Path.Entries
import FileRemoval.Proofs.SlotTable.Sweeping
import FileRemoval.Proofs.Memory.Children
import FileRemoval.Proofs.Memory.AuditTrail

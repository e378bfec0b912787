import MediaSweep.Main
import MediaSweep.Storage.Disk
import MediaSweep.Proofs.Sheet.Ending
import MediaSweep.Proofs.Sheet.BlockEnd
import MediaSweep.Proofs.Sheet.LineSet
import MediaSweep.Proofs.Sheet.Places
import MediaSweep.Proofs.Sheet.Requests
import MediaSweep.Proofs.Sheet.Bodies
import MediaSweep.Proofs.Sheet.Balance
import MediaSweep.Proofs.Sheet.Streaming
import MediaSweep.Proofs.Sheet.Outcomes
import MediaSweep.Proofs.Sheet.Blanket
import MediaSweep.Proofs.Sheet.SecondPass
import MediaSweep.Proofs.Sheet.BlankLines
import MediaSweep.Proofs.Sheet.Concatenation
import MediaSweep.Proofs.Storage.Snapshot
import MediaSweep.Proofs.Task.Recovery
import MediaSweep.Proofs.Storage.Faults
import MediaSweep.Proofs.Task.Editing
import MediaSweep.Proofs.Task.Isolation
import MediaSweep.Proofs.Task.Writes
import MediaSweep.Proofs.Sheet.EditRow
import MediaSweep.Proofs.Sheet.InTurn
import MediaSweep.Proofs.Settings.Numbers
import MediaSweep.Proofs.Settings.Shown
import MediaSweep.Proofs.Sheet.Machine
import MediaSweep.Proofs.Sheet.MachineEdits
import MediaSweep.Proofs.Sheet.EndSearch
import MediaSweep.Proofs.Sheet.RequestSet
import MediaSweep.Proofs.Sheet.BlankRunCut
import MediaSweep.Proofs.Sheet.KeptDepth
import MediaSweep.Proofs.Task.OneFile
import MediaSweep.Proofs.Sheet.Instruments
import MediaSweep.Proofs.Storage.Discovery
import MediaSweep.Proofs.Storage.FaithfulCopy
import MediaSweep.Proofs.Sheet.Markings
import MediaSweep.Proofs.Json.RoundTrip
import MediaSweep.Proofs.Task.Listing

import Intcode.Amplifier.Search
import Intcode.Arcade.Play
import Intcode.CommandLine
import Intcode.Document.Writing
import Intcode.Exchange.Ports
import Intcode.Hull.Mission
import Intcode.Main
import Intcode.Record
import Intcode.Proofs.Allowance
import Intcode.Proofs.Alternation
import Intcode.Proofs.Atomicity
import Intcode.Proofs.Budget
import Intcode.Proofs.Cells
import Intcode.Proofs.Chain
import Intcode.Proofs.Charts
import Intcode.Proofs.Closure
import Intcode.Proofs.CommandLimit
import Intcode.Proofs.CommandRuns
import Intcode.Proofs.Composition
import Intcode.Proofs.Decimals
import Intcode.Proofs.Delivery
import Intcode.Proofs.Drawing
import Intcode.Proofs.DriveRefinement
import Intcode.Proofs.Driving
import Intcode.Proofs.Dropping
import Intcode.Proofs.Dumping
import Intcode.Proofs.Effects
import Intcode.Proofs.Emission
import Intcode.Proofs.Encoding
import Intcode.Proofs.Entries
import Intcode.Proofs.EntryPoints
import Intcode.Proofs.FailedResumption
import Intcode.Proofs.FeedbackRing
import Intcode.Proofs.Filling
import Intcode.Proofs.GameFrame
import Intcode.Proofs.Grammar
import Intcode.Proofs.HollowDocuments
import Intcode.Proofs.HostRounds
import Intcode.Proofs.HostViews
import Intcode.Proofs.Hosting
import Intcode.Proofs.HullPicture
import Intcode.Proofs.InstructionRefinement
import Intcode.Proofs.LastWrite
import Intcode.Proofs.LineBreaks
import Intcode.Proofs.LongNumbers
import Intcode.Proofs.Mission
import Intcode.Proofs.Mnemonics
import Intcode.Proofs.NormalSettings
import Intcode.Proofs.ObjectTrees
import Intcode.Proofs.OnePass
import Intcode.Proofs.OpenLoop
import Intcode.Proofs.Orders
import Intcode.Proofs.OtherFiles
import Intcode.Proofs.PaintedPath
import Intcode.Proofs.Passages
import Intcode.Proofs.Patching
import Intcode.Proofs.Pieces
import Intcode.Proofs.Play
import Intcode.Proofs.Protocol
import Intcode.Proofs.Quieting
import Intcode.Proofs.RaisedLimit
import Intcode.Proofs.Rasters
import Intcode.Proofs.Reckoning
import Intcode.Proofs.RecordFiles
import Intcode.Proofs.Repeatable
import Intcode.Proofs.Reports
import Intcode.Proofs.Resemblance
import Intcode.Proofs.RoundTrip
import Intcode.Proofs.Running
import Intcode.Proofs.Scanning
import Intcode.Proofs.Search
import Intcode.Proofs.Serving
import Intcode.Proofs.SettingsErrors
import Intcode.Proofs.Splitting
import Intcode.Proofs.Stepping
import Intcode.Proofs.Storing
import Intcode.Proofs.StrayPaint
import Intcode.Proofs.SuspensionPoints
import Intcode.Proofs.Termination
import Intcode.Proofs.Tracing
import Intcode.Proofs.ValueEquality
import Intcode.Proofs.WordRange
import Intcode.Proofs.Wrapping

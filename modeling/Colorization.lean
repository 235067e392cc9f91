import Colorization.CommandLine.Execution
import Colorization.Main
import Colorization.Shell.Run
import Colorization.Proofs.Snapshot.History
import Colorization.Proofs.Path.Components
import Colorization.Proofs.Path.Directory
import Colorization.Proofs.FileSystem.Tree
import Colorization.Proofs.Naming
import Colorization.Proofs.Fixtures
import Colorization.Proofs.FileSystem.Routes
import Colorization.Proofs.Routine.Fails
import Colorization.Proofs.Token.Failure
import Colorization.Proofs.FileSystem.Made
import Colorization.Proofs.Snapshot.Failure
import Colorization.Proofs.Routine.Interleaving
import Colorization.Proofs.FileSystem.Firm
import Colorization.Proofs.Routine.Keeps
import Colorization.Proofs.FileSystem.Answers
import Colorization.Proofs.FileSystem.Sharing
import Colorization.Proofs.Token.Sharing
import Colorization.Proofs.Routine.Settled
import Colorization.Proofs.Snapshot.Independence
import Colorization.Proofs.Snapshot.Suite
import Colorization.Proofs.Snapshot.Record
import Colorization.Proofs.Snapshot.BatchRecord
import Colorization.Proofs.Snapshot.Ledger
import Colorization.Proofs.Comparison.Listing
import Colorization.Proofs.Token.Damage
import Colorization.Proofs.Token.Records
import Colorization.Proofs.Token.AllOrNothing
import Colorization.Proofs.Config.Overlay
import Colorization.Proofs.Snapshot.Certificate
import Colorization.Proofs.Snapshot.Agreement
import Colorization.Proofs.FileSystem.Charter
import Colorization.Proofs.Comparison.Filtering
import Colorization.Proofs.Path.Order
import Colorization.Proofs.Batch.Account
import Colorization.Proofs.CommandLine.Comparing
import Colorization.Proofs.CommandLine.Writing
import Colorization.Proofs.Comparison.Patching
import Colorization.Proofs.Token.Layouts
import Colorization.Proofs.Comparison.Rendering
import Colorization.Proofs.Snapshot.Announcement
import Colorization.Proofs.Snapshot.Stages
import Colorization.Proofs.Fixtures.Listing
import Colorization.Proofs.Fixtures.Steady
import Colorization.Proofs.Routine.Exchange
import Colorization.Proofs.Snapshot.Confined
import Colorization.Proofs.Batch.SharedOutputs
import Colorization.Proofs.CommandLine.Colorizing
import Colorization.Proofs.CommandLine.Occurrences
import Colorization.Proofs.CommandLine.Merging
import Colorization.Proofs.Colorizer.Calls
import Colorization.Proofs.Config.Lookup
import Colorization.Proofs.Routine.Mapping

import Moorland.Document.Json
import Moorland.Document.Toml.Writer
import Moorland.Main
import Moorland.Proofs.Generation.Workers
import Moorland.Proofs.Grid.Valid
import Moorland.Proofs.Ring.History
import Moorland.Proofs.Ring.Locality
import Moorland.Proofs.Ring.Population
import Moorland.Proofs.Simulation.Counts
import Moorland.Proofs.Simulation.Modes
import Moorland.Proofs.Simulation.Seeded
import Moorland.Proofs.Stamp.Agreement
import Moorland.Proofs.Stamp.Void
import Moorland.Proofs.Configuration.Faults
import Moorland.Proofs.Ring.Channels
import Moorland.Proofs.Configuration.Merge
import Moorland.Proofs.Configuration.Setup
import Moorland.Proofs.CommandLine.Report
import Moorland.Proofs.Brush.Guarded
import Moorland.Proofs.Ring.Signs
import Moorland.Proofs.Divisor
import Moorland.Proofs.Document.Persistence
import Moorland.Proofs.Ring.Mixed
import Moorland.Proofs.Configuration.Fingerprint
import Moorland.Proofs.Rounding.Scientific
import Moorland.Proofs.Window.Sums
import Moorland.Proofs.Band
import Moorland.Proofs.Ring.Rotation
import Moorland.Proofs.Simulation.Bookkeeping
import Moorland.Proofs.Summaries
import Moorland.Proofs.Grid.Picture
import Moorland.Proofs.Spelling
import Moorland.Proofs.Stamp.Flip
import Moorland.Proofs.Brush.Centre
import Moorland.Proofs.Grid.Statistics
import Moorland.Proofs.Grid.Digest
import Moorland.Proofs.Grid.Table

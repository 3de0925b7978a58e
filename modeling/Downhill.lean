import Downhill.Grid.Reshape
import Downhill.Main
import Downhill.Proofs.Beside
import Downhill.Proofs.CheckedReport
import Downhill.Proofs.Comparisons
import Downhill.Proofs.Flood
import Downhill.Proofs.Inverted
import Downhill.Proofs.LevelTracing
import Downhill.Proofs.LongestDescent
import Downhill.Proofs.MapFaults
import Downhill.Proofs.MapText
import Downhill.Proofs.Neighbours
import Downhill.Proofs.Order
import Downhill.Proofs.RaiseCount
import Downhill.Proofs.RaiseLevels
import Downhill.Proofs.Record
import Downhill.Proofs.Rendering
import Downhill.Proofs.Report
import Downhill.Proofs.Reshape
import Downhill.Proofs.Storage
import Downhill.Proofs.SummitCounts
import Downhill.Proofs.SummitLog
import Downhill.Proofs.Summits
import Downhill.Proofs.Trace
import Downhill.Proofs.Verdict
import Downhill.Proofs.GridText
import Downhill.Proofs.Ladder

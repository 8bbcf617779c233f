import ClusterWatch.Main
import ClusterWatch.Proofs.Bus.Traffic
import ClusterWatch.Proofs.Config.Layers
import ClusterWatch.Proofs.Display.Colors
import ClusterWatch.Proofs.Display.Reached
import ClusterWatch.Proofs.Drain.Crew
import ClusterWatch.Proofs.Drain.Merged
import ClusterWatch.Proofs.Drain.Printout
import ClusterWatch.Proofs.Follow.Watch
import ClusterWatch.Proofs.Json.Traffic
import ClusterWatch.Proofs.Line.Context
import ClusterWatch.Proofs.Session.Assignment
import ClusterWatch.Proofs.Session.Launching
import ClusterWatch.Proofs.Session.Overlap
import ClusterWatch.Proofs.Session.Supervision
import ClusterWatch.Proofs.Stats.Totals

import HawkTui.Lib.Text
import HawkTui.Lib.Columns
import HawkTui.Lib.Maps
import HawkTui.Lib.Numbers
import HawkTui.Lib.Utf8
import HawkTui.Lib.Retain
import HawkTui.Lib.Merge
import HawkTui.Lib.Collect
import HawkTui.Lib.AwkRuntime
import HawkTui.Lib.Paths
import HawkTui.Lib.StableSort
import HawkTui.Lib.Backoff
import HawkTui.Lib.Replace
import HawkTui.Lib.Runs
import HawkTui.Lib.Machine
import HawkTui.Lib.Channel
import HawkTui.Core.Severity
import HawkTui.Core.HawkFrame
import HawkTui.Core.Debug
import HawkTui.Hawkd.UnixIngest
import HawkTui.Hawkd.Spine
import HawkTui.Hawkd.GrpcHealth
import HawkTui.Hawkd.Systemd
import HawkTui.Hawkd.Daemon
import HawkTui.Hawk.App
import HawkTui.Hawk.Draw
import HawkTui.Hawk.Io
import HawkTui.Hawk.Packs
import HawkTui.Hawk.Awk
import HawkTui.Hawk.Threads
import HawkTui.Hawk.Main
import HawkTui.Hawk.PackCmd
import HawkTui.Hawk.Pipeline
import HawkTui.Hawk.Doctor
import HawkTui.Proofs.KvBag
import HawkTui.Proofs.FrameCodec
import HawkTui.Proofs.LosslessRelay
import HawkTui.Proofs.Broadcast
import HawkTui.Proofs.Ingest
import HawkTui.Proofs.FanIn
import HawkTui.Proofs.Sources
import HawkTui.Proofs.MirrorView
import HawkTui.Proofs.Relay
import HawkTui.Proofs.Filters
import HawkTui.Proofs.Entities
import HawkTui.Proofs.MirrorRun
import HawkTui.Proofs.Emitters
import HawkTui.Proofs.Ttl
import HawkTui.Proofs.SmokeBridge
import HawkTui.Proofs.Grammar
import HawkTui.Proofs.PackIndex
import HawkTui.Proofs.PackPaths
import HawkTui.Proofs.PackAgreement
import HawkTui.Proofs.DoctorReport
import HawkTui.Proofs.DoctorVerdict
import HawkTui.Proofs.Tvars
import HawkTui.Proofs.PackCommands
import HawkTui.Proofs.SecurityScan
import HawkTui.Proofs.Aging
import HawkTui.Proofs.Table
import HawkTui.Proofs.Triage
import HawkTui.Proofs.Backoff
import HawkTui.Proofs.TlsHost
import HawkTui.Proofs.Tls
import HawkTui.Proofs.CountLines
import HawkTui.Proofs.ScopeCounts
import HawkTui.Proofs.UnitBackoff
import HawkTui.Proofs.WatchIds
import HawkTui.Proofs.WordSearch
import HawkTui.Proofs.Outcomes
import HawkTui.Proofs.Segments
import HawkTui.Proofs.PipelineFlow
import HawkTui.Proofs.Schedules
import HawkTui.Proofs.Spoken
import HawkTui.Proofs.RowTruth
import HawkTui.Dashboard.Loop
import HawkTui.Proofs.DashboardRun
import HawkTui.Proofs.DashboardRows
import HawkTui.Proofs.HealthPane

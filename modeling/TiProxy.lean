import TiProxy.Model.GoMap
import TiProxy.Model.Metrics.Sample
import TiProxy.Model.Metrics.History
import TiProxy.Model.Metrics.Results
import TiProxy.Model.Metrics.Owners
import TiProxy.Model.Metrics.Reader
import TiProxy.Model.Metrics.Cluster
import TiProxy.Model.Metrics.Filter
import TiProxy.Model.Metrics.DefaultReader
import TiProxy.Model.Metrics.GroupByRule
import TiProxy.Model.Replay.Replay
import TiProxy.Model.Capture.Filter
import TiProxy.Model.Cli.Request
import TiProxy.Model.Cli.Encoder
import TiProxy.Model.Cli.Entry
import TiProxy.Model.Config.Manager
import TiProxy.Model.Vip.Manager
import TiProxy.Model.Errors.Wrap
import TiProxy.Proofs.Metrics.ZoneSplit
import TiProxy.Proofs.Metrics.Grouped
import TiProxy.Proofs.Metrics.MergeOrder
import TiProxy.Proofs.Metrics.ResultLabels
import TiProxy.Proofs.Metrics.TickOrder
import TiProxy.Proofs.Metrics.OwnerResults
import TiProxy.Proofs.Metrics.Sorted
import TiProxy.Proofs.Metrics.HistoryLists
import TiProxy.Proofs.Metrics.FilterLines
import TiProxy.Proofs.Metrics.TickResults
import TiProxy.Proofs.Metrics.OwnerKeys
import TiProxy.Proofs.Replay.Connections
import TiProxy.Proofs.Replay.Shutdown
import TiProxy.Proofs.Capture.Sensitive
import TiProxy.Proofs.Cli.Request
import TiProxy.Proofs.Cli.Encoder
import TiProxy.Proofs.Cli.LogLine
import TiProxy.Proofs.Config.Namespaces
import TiProxy.Proofs.Vip.Ownership
import TiProxy.Proofs.Errors.Is

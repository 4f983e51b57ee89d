import PcdLab.Lib.LittleEndian
import PcdLab.Lib.Slices
import PcdLab.Lib.Runs
import PcdLab.Lib.Channel
import PcdLab.Shared.Wire
import PcdLab.Shared.Socket
import PcdLab.Client.File
import PcdLab.Lib.Output
import PcdLab.Transport.Tcp
import PcdLab.Transport.Datagrams
import PcdLab.StopAndWait.Client
import PcdLab.StopAndWait.Net
import PcdLab.StopAndWait.Invariant
import PcdLab.Lib.Handover
import PcdLab.StopAndWait.Delivery
import PcdLab.StopAndWait.Accounting
import PcdLab.StopAndWait.Retries
import PcdLab.Lib.Batches
import PcdLab.Reports.Server
import PcdLab.Reports.Concurrent
import PcdLab.Reports.Sequence
import PcdLab.StopAndWait.Ideal
import PcdLab.Agreement
import PcdLab.Worker.Gauge
import PcdLab.Worker.Delay
import PcdLab.Transport.Framing
import PcdLab.Transport.Connections
import PcdLab.StopAndWait.Exposed
import PcdLab.StopAndWait.Decoding
import PcdLab.StopAndWait.Truncation
import PcdLab.Reports.Hostile
import PcdLab.Reports.Segments
import PcdLab.StopAndWait.Strangers
import PcdLab.Loss.UdpNet
import PcdLab.Loss.Balance
import PcdLab.Loss.QuicClose
import PcdLab.Experiments.FaultInjection
import PcdLab.Lib.Json
import PcdLab.Analysis.K6
import PcdLab.Lib.Loops
import PcdLab.Analysis.K6Agreement
import PcdLab.Lib.Windows
import PcdLab.Analysis.Timeseries
import PcdLab.Lib.JsonPrinting
import PcdLab.Analysis.ScaleUp
import PcdLab.Lib.Tasks
import PcdLab.Transport.TcpServer
import PcdLab.Transport.QuicServers
import PcdLab.StopAndWait.Concurrent
import PcdLab.StopAndWait.SharedServer
import PcdLab.StopAndWait.Program
import PcdLab.Worker.Recording
import PcdLab.Worker.Scrapes
import PcdLab.Lib.JsonPrefixes
import PcdLab.Analysis.Prometheus
import PcdLab.Lib.Files
import PcdLab.Experiments.Suite
import PcdLab.Analysis.Summary
import PcdLab.Analysis.Recovery
import PcdLab.Analysis.Bars
import PcdLab.Experiments.Polling
import PcdLab.Analysis.PaperFigures

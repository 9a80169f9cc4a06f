import Oxiduct.Machine.Basic
import Oxiduct.Machine.Progress
import Oxiduct.Data.Dict
import Oxiduct.Data.Saturating
import Oxiduct.Data.ListSum
import Oxiduct.Data.Log
import Oxiduct.Data.HighWater
import Oxiduct.Data.Parser
import Oxiduct.Data.Text
import Oxiduct.Data.Utf8
import Oxiduct.Data.Words
import Oxiduct.Net.Addr
import Oxiduct.Net.ProxyProtocol
import Oxiduct.Net.ProxyProtocol.Decode
import Oxiduct.Net.Ipv6Text
import Oxiduct.Net.SocketOpts
import Oxiduct.Limits.Basic
import Oxiduct.Limits.Pool
import Oxiduct.Limits.Lemmas
import Oxiduct.Limits.History
import Oxiduct.Limits.Warnings
import Oxiduct.Config.Basic
import Oxiduct.Config.Address
import Oxiduct.Config.Load
import Oxiduct.Config.Faults
import Oxiduct.Metrics.Basic
import Oxiduct.Metrics.Impl
import Oxiduct.Metrics.Lemmas
import Oxiduct.Metrics.Registry
import Oxiduct.Metrics.Server
import Oxiduct.Metrics.Text
import Oxiduct.Metrics.Lemmas.Server
import Oxiduct.Udp.Basic
import Oxiduct.Udp.Impl
import Oxiduct.Udp.Resources
import Oxiduct.Udp.Metrics
import Oxiduct.Udp.Lemmas.Basic
import Oxiduct.Udp.Lemmas.Handover
import Oxiduct.Udp.Lemmas.Close
import Oxiduct.Udp.Lemmas.Ownership
import Oxiduct.Udp.Lemmas.Relay
import Oxiduct.Udp.Lemmas.Cells
import Oxiduct.Udp.Lemmas.Cleanup
import Oxiduct.Udp.Lemmas.Fidelity
import Oxiduct.Udp.Lemmas.Shutdown
import Oxiduct.Udp.Lemmas.Delivery
import Oxiduct.Udp.Lemmas.Admission
import Oxiduct.Udp.Lemmas.Backlog
import Oxiduct.Tcp.Basic
import Oxiduct.Tcp.Impl
import Oxiduct.Tcp.Server
import Oxiduct.Tcp.Metrics
import Oxiduct.Tcp.Lemmas.Basic
import Oxiduct.Tcp.Lemmas.Integrity
import Oxiduct.Tcp.Lemmas.Watchdog
import Oxiduct.Tcp.Lemmas.Activity
import Oxiduct.Tcp.Lemmas.Deadlines
import Oxiduct.Tcp.Lemmas.Server
import Oxiduct.Tcp.Lemmas.Books
import Oxiduct.Tcp.Lemmas.Teardown
import Oxiduct.Tcp.Lemmas.Shutdown
import Oxiduct.Tcp.Lemmas.Upstream
import Oxiduct.Tcp.Lemmas.Admission
import Oxiduct.Tcp.Lemmas.Backlog
import Oxiduct.Tcp.Lemmas.Completion
import Oxiduct.Process.Basic
import Oxiduct.Process.Impl
import Oxiduct.Process.Lemmas.Service
import Oxiduct.Process.Lemmas.Basic
import Oxiduct.Process.Lemmas.Settings
import Oxiduct.Process.Lemmas.Exit
import Oxiduct.Process.Lemmas.Shutdown
import Oxiduct.Process.Lemmas.Registry
import Oxiduct.Process.Lemmas.Admission
import Oxiduct.Process.Lemmas.Services
import Oxiduct.Process.Lemmas.Scrape

import KWatch.Cli.Acceptance
import KWatch.Cli.Detach
import KWatch.Cli.EndToEnd
import KWatch.Cli.Numeric
import KWatch.Cli.RoundTrip
import KWatch.Cli.Stats
import KWatch.Core.Ndjson
import KWatch.Core.PpsWindow
import KWatch.Demo.Checksum
import KWatch.Demo.Detected
import KWatch.Demo.Loopback
import KWatch.Demo.Rates
import KWatch.Detection.Parallel
import KWatch.Detection.Refresh
import KWatch.Detection.Sensitivity
import KWatch.Detection.Window
import KWatch.Monitor.Commands
import KWatch.Monitor.Output
import KWatch.Pin.Crash
import KWatch.Pin.Identity
import KWatch.Pin.Ownership
import KWatch.Pin.Rollback
import KWatch.Ring.Accounting
import KWatch.Top.Coverage
import KWatch.Top.Enforcement
import KWatch.Top.Graph
import KWatch.Top.Highlight
import KWatch.Top.Operator
import KWatch.Tracker.Activity
import KWatch.Tracker.Capacity
import KWatch.Tracker.Influence
import KWatch.Tracker.Monotone
import KWatch.Tracker.Release
import KWatch.Tui.Sparkline
import KWatch.Util.Cidr
import KWatch.Util.UniqueFd
import KWatch.Xdp.Counters
import KWatch.Xdp.Datagram
import KWatch.Xdp.Parallel
import KWatch.Xdp.Transport

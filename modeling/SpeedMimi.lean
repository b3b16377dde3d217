import SpeedMimi.Types
import SpeedMimi.Backend
import SpeedMimi.Backend.Counter
import SpeedMimi.LoadBalancer
import SpeedMimi.LoadBalancer.Choice
import SpeedMimi.Manager
import SpeedMimi.Admin
import SpeedMimi.Proxy.Upstream
import SpeedMimi.Proxy.Registry
import SpeedMimi.Proxy.Routing
import SpeedMimi.Proxy.Forward
import SpeedMimi.Proxy.Server
import SpeedMimi.Proxy.Monitor
import SpeedMimi.World.State
import SpeedMimi.World.Frame
import SpeedMimi.World.Accounting
import SpeedMimi.World.Disconnect
import SpeedMimi.World.Reload
import SpeedMimi.World.Restart
import SpeedMimi.World.Upstreams
import SpeedMimi.World.Progress

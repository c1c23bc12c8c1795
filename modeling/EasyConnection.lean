import EasyConnection.Config.Ipv6Links
import EasyConnection.Config.MessagePack
import EasyConnection.Config.PackedBounds
import EasyConnection.Config.Percent
import EasyConnection.Config.Sip002
import EasyConnection.Core.ExitZone
import EasyConnection.Core.Orphans
import EasyConnection.Core.Refinement
import EasyConnection.Desktop.Atomic
import EasyConnection.Desktop.Frame
import EasyConnection.Dns.Intercept
import EasyConnection.Helper.AllOrNothing
import EasyConnection.Helper.Calls
import EasyConnection.Helper.Lifecycle
import EasyConnection.Helper.Ownership
import EasyConnection.Nftables.Conntrack
import EasyConnection.Secrets.FiniteMap
import EasyConnection.Shadowsocks.Connector
import EasyConnection.Shadowsocks.RoundTrip
import EasyConnection.Socks.Listeners
import EasyConnection.Ssh.BodyLength
import EasyConnection.Ssh.Openings
import EasyConnection.Ssh.Shim
import EasyConnection.Transport.HalfClose
import EasyConnection.Transport.IdlePool
import EasyConnection.Transport.RequestHeads
import EasyConnection.Tunnel.Intent
import EasyConnection.Tunnel.Release
import EasyConnection.Tunnel.Status
import EasyConnection.Udpgw.Gateway
import EasyConnection.Vless.Agreement
import EasyConnection.Vless.Imported
import EasyConnection.Vless.SocksClient
import EasyConnection.WebSocket.FrameCodec
import EasyConnection.WebSocket.Handshake

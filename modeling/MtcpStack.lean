import MtcpStack.Verification.PeerWindow
import MtcpStack.Verification.AddrReturn
import MtcpStack.Verification.MperfSession
import MtcpStack.Verification.EventOwners
import MtcpStack.Verification.ConnectCore
import MtcpStack.Verification.Listeners
import MtcpStack.Verification.FinOrder
import MtcpStack.Verification.OptionCodec
import MtcpStack.Verification.IcmpEcho
import MtcpStack.Verification.Divisors
import MtcpStack.Verification.Timeouts
import MtcpStack.Verification.DupAcks
import MtcpStack.Verification.FlushProgress
import MtcpStack.Verification.AckList
import MtcpStack.Verification.AckFrame
import MtcpStack.Verification.RtoStates
import MtcpStack.Verification.ExpiryPasses
import MtcpStack.Verification.MperfSend
import MtcpStack.Verification.Routing
import MtcpStack.Verification.Arp
import MtcpStack.Verification.Pipe
import MtcpStack.Verification.PipeSockets
import MtcpStack.Verification.FragPool
import MtcpStack.Verification.MemPool
import MtcpStack.Verification.PoolStore
import MtcpStack.Verification.MperfQuantity
import MtcpStack.Verification.FragmentList
import MtcpStack.Verification.SendQueue
import MtcpStack.Verification.EndToEnd

import Nf10.Lib.Runs
import Nf10.Lib.CircularQueue
import Nf10.Lib.AsyncFifo
import Nf10.Lib.Framing
import Nf10.Lib.Ledger
import Nf10.Lib.GrayCode
import Nf10.Lib.Handshake
import Nf10.Lib.BoundedLoop
import Nf10.Lib.OnesComplement
import Nf10.Lib.AccessLog
import Nf10.Lib.Extents
import Nf10.Lib.Records
import Nf10.Lib.Lanes
import Nf10.Driver.Stream
import Nf10.Driver.Iface
import Nf10.Driver.Handlers
import Nf10.Driver.Rings
import Nf10.Driver.TxRing
import Nf10.Driver.RxRing
import Nf10.Driver.GhostRing
import Nf10.Driver.SktLoop
import Nf10.Driver.Interleaving
import Nf10.Driver.GenlRings
import Nf10.Driver.Switcharoo
import Nf10.Driver.GhostNet
import Nf10.Driver.NapiPoll
import Nf10.Driver.Polling
import Nf10.Driver.Probe
import Nf10.Driver.ProbeUnwind
import Nf10.Driver.ReadProc
import Nf10.Driver.RegionLayout
import Nf10.Driver.Load
import Nf10.Driver.Registers
import Nf10.Driver.RingMemory
import Nf10.Driver.DmaMemory
import Nf10.Driver.RegLib
import Nf10.Driver.Attributes
import Nf10.Driver.Netlink
import Nf10.Driver.DriverCtrl
import Nf10.Driver.CtrlLoop
import Nf10.Driver.Datagram
import Nf10.Driver.RegSession
import Nf10.Hw.SmallAsyncFifo
import Nf10.Hw.RxQueue
import Nf10.Hw.RxStream
import Nf10.Hw.RxAdmission
import Nf10.Hw.RxVerdict
import Nf10.Hw.TxQueue
import Nf10.Hw.TxEmission
import Nf10.Hw.TxAccounting
import Nf10.Hw.TxWedge
import Nf10.Hw.PacketGen
import Nf10.Hw.PacketCheck
import Nf10.Hw.GenControl
import Nf10.Hw.AxisHold
import Nf10.Hw.InfoFifo
import Nf10.Hw.Hop
import Nf10.Hw.Loopback
import Nf10.Hw.AxiLiteRegs
import Nf10.Test.DmaTest
import Nf10.Test.SetupStream
import Nf10.Driver.Connect

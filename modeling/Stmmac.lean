import Stmmac.Library.Bits
import Stmmac.Library.Runs
import Stmmac.Library.Ring
import Stmmac.Desc.Layout
import Stmmac.Desc.Normal
import Stmmac.Conf
import Stmmac.Tx.Clean
import Stmmac.Tx.Xmit
import Stmmac.Tx.Window
import Stmmac.Tx.XmitSpec
import Stmmac.Tx.CleanSpec
import Stmmac.Tx.Occupancy
import Stmmac.Tx.Frames
import Stmmac.Tx.Delimiters
import Stmmac.Tx.Position
import Stmmac.Library.Ledger
import Stmmac.Tx.Mappings
import Stmmac.Rx.Skb
import Stmmac.Rx.Receive
import Stmmac.Rx.Init
import Stmmac.Rx.Step
import Stmmac.Rx.ReceiveSpec
import Stmmac.Rx.Window
import Stmmac.Rx.InStep
import Stmmac.Rx.Backed
import Stmmac.Irq.Direct
import Stmmac.Rx.Whole
import Stmmac.Rx.Peek
import Stmmac.Rx.PeekEffect
import Stmmac.Tx.Queue
import Stmmac.Wrap
import Stmmac.Desc.Markers
import Stmmac.Tx.Trigger
import Stmmac.Suspend
import Stmmac.Rx.Conserved
import Stmmac.Rx.Lengths
import Stmmac.Rx.Inside
import Stmmac.Desc.Writes
import Stmmac.Library.Ops
import Stmmac.Tx.Micro
import Stmmac.Tx.Exposed
import Stmmac.Tx.HandOver
import Stmmac.Tx.TwoPaths
import Stmmac.Library.History
import Stmmac.Mac.Regs
import Stmmac.Mac.Addr
import Stmmac.Mac.Filter
import Stmmac.Irq.Lpi
import Stmmac.Mac.Eee
import Stmmac.Mac.Link
import Stmmac.Mdio.Bus
import Stmmac.Mdio.Exact
import Stmmac.Net.Timers
import Stmmac.Net.Open
import Stmmac.Net.AllOrNothing
import Stmmac.Net.Uses
import Stmmac.Net.OpenUses
import Stmmac.Net.Tables
import Stmmac.Tx.Sent
import Stmmac.Tx.Counted
import Stmmac.Tx.Stamps
import Stmmac.Tx.Miscounted
import Stmmac.Dma.Threshold
import Stmmac.Platform.Clk
import Stmmac.Platform.CharDev
import Stmmac.Platform.Probe
import Stmmac.Desc.Length
import Stmmac.Tx.Reclaim
import Stmmac.Rx.PeekLooks
import Stmmac.Rx.PeekEnds
import Stmmac.Rx.PeekOnce
import Stmmac.Library.Clock
import Stmmac.Library.Bitmap
import Stmmac.Mdio.BusyWait
import Stmmac.Mac.Dwmac100
import Stmmac.Mac.Hash
import Stmmac.Mac.Perfect
import Stmmac.Mdio.Register
import Stmmac.Dma.Dwmac100
import Stmmac.Platform.Rgmii
import Stmmac.Rx.BufSize
import Stmmac.Geometry
import Stmmac.Mac.HwInit
import Stmmac.Net.Hwtstamp
import Stmmac.Irq.Napi
import Stmmac.Platform.Speed
import Stmmac.Cmdline
import Stmmac.Rx.Accounts
import Stmmac.Dma.Init
import Stmmac.Net.Registers
import Stmmac.Net.Programmed
import Stmmac.Net.Resume
import Stmmac.Net.Offload
import Stmmac.Library.Framing
import Stmmac.Net.Power
import Stmmac.Tx.Wire
import Stmmac.Tx.Mapped

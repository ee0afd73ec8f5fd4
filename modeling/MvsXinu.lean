import MvsXinu.Lib.SeqSpace
import MvsXinu.Lib.Ring
import MvsXinu.Lib.Runs
import MvsXinu.Lib.Storage
import MvsXinu.Lib.Custody
import MvsXinu.Kernel.Gpq
import MvsXinu.Tcp.Types
import MvsXinu.Tcp.Receive
import MvsXinu.Tcp.ReceiveTrim
import MvsXinu.Tcp.ReceiveStream
import MvsXinu.Tcp.ReceiveWindow
import MvsXinu.Tcp.Timer
import MvsXinu.Tcp.Output
import MvsXinu.Tcp.Input
import MvsXinu.Tcp.Machine
import MvsXinu.Tcp.SendSide
import MvsXinu.Tcp.Flight
import MvsXinu.Tcp.SendAccounting
import MvsXinu.Tcp.ControlFlags
import MvsXinu.Tcp.FinAcknowledge
import MvsXinu.Tcp.Handshake
import MvsXinu.Tcp.PeerWindow
import MvsXinu.Tcp.TimerCoverage
import MvsXinu.Ctc.Block
import MvsXinu.Ctc.BlockRoundTrip
import MvsXinu.Ctc.WriteQueue
import MvsXinu.Ctc.WriteOwnership
import MvsXinu.Route.Table
import MvsXinu.Route.LongestPrefix
import MvsXinu.Lib.Spans
import MvsXinu.Ip.Packet
import MvsXinu.Ip.Reassembly
import MvsXinu.Ip.ReassemblySafety
import MvsXinu.Ip.ReassemblyComplete
import MvsXinu.Ip.Fragment
import MvsXinu.Ip.FragmentSlices
import MvsXinu.Ip.FragmentRoundTrip
import MvsXinu.Lib.Tiling
import MvsXinu.Memory.Heap
import MvsXinu.Memory.HeapConservation
import MvsXinu.Lib.Links
import MvsXinu.Kernel.Queue
import MvsXinu.Kernel.Process
import MvsXinu.Lib.Packing
import MvsXinu.Lib.Ranks
import MvsXinu.Kernel.Threads
import MvsXinu.Kernel.Board
import MvsXinu.Kernel.Scheduling
import MvsXinu.Kernel.Calls
import MvsXinu.Kernel.Semaphores
import MvsXinu.Kernel.Consistency
import MvsXinu.Kernel.SemaphoreOrder
import MvsXinu.Lib.Chains
import MvsXinu.Memory.BufferPool
import MvsXinu.Memory.BufferPoolLaw
import MvsXinu.Kernel.Permits
import MvsXinu.Lib.Mutex
import MvsXinu.Lib.Counting
import MvsXinu.Ctc.IoHook
import MvsXinu.Ctc.ReadDevice
import MvsXinu.Ctc.ReadRing
import MvsXinu.Ctc.ReadHandoff
import MvsXinu.Tcp.TimerPort
import MvsXinu.Tcp.CloseOwner
import MvsXinu.Tcp.UserCalls
import MvsXinu.Tcp.UserProgress
import MvsXinu.Lib.DeltaList
import MvsXinu.Kernel.SleepClock
import MvsXinu.Lib.References
import MvsXinu.Route.Buffers
import MvsXinu.Route.Holders
import MvsXinu.Lib.Checksum
import MvsXinu.Ip.Outbound
import MvsXinu.Lib.Stocks
import MvsXinu.Net.PacketPaths
import MvsXinu.Net.PacketCustody
import MvsXinu.Lib.Locks
import MvsXinu.Tcp.Acceptance
import MvsXinu.Kernel.Rousing
import MvsXinu.Kernel.CallParts
import MvsXinu.Kernel.ProcessTable
import MvsXinu.Kernel.ReadyOrder
import MvsXinu.Kernel.DispatchLaw
import MvsXinu.Lib.Mailboxes
import MvsXinu.Kernel.Messages
import MvsXinu.Kernel.MessageLaw
import MvsXinu.Lib.Register
import MvsXinu.Kernel.ProcessCount
import MvsXinu.Ip.InputQueue
import MvsXinu.Ip.InputLaw
import MvsXinu.Lib.Tokens
import MvsXinu.Udp.Ports
import MvsXinu.Udp.PortSteps
import MvsXinu.Udp.PortLaw
import MvsXinu.Lib.Headcount
import MvsXinu.Tcp.EstabCount
import MvsXinu.Tcp.EstabHandlers
import MvsXinu.Tcp.EstabLaw
import MvsXinu.Tcp.BlockTurns
import MvsXinu.Tcp.OpenBlocks
import MvsXinu.Tcp.Binding
import MvsXinu.Tcp.BindingLaw
import MvsXinu.Tcp.BlockMutex
import MvsXinu.Tcp.MutexLaw
import MvsXinu.Tcp.OptionReads
import MvsXinu.Tcp.ActiveOpen
import MvsXinu.Tcp.WindowProbe
import MvsXinu.Tcp.UrgentRead
import MvsXinu.Tcp.SendGauge
import MvsXinu.Tcp.UrgentPointer
import MvsXinu.Tcp.TimerStamps
import MvsXinu.Tcp.RetransmitTimeout
import MvsXinu.Tcp.FinPlace
import MvsXinu.Tcp.SegmentSize
import MvsXinu.Lib.Gather
import MvsXinu.Tcp.Coalescing
import MvsXinu.Tcp.Reassembly
import MvsXinu.Tcp.FinArrival
import MvsXinu.Memory.Ports
import MvsXinu.Lib.Countdown
import MvsXinu.Tcp.TimerDeltas
import MvsXinu.Tcp.TimerPunctual
import MvsXinu.Ip.HeaderCopy
import MvsXinu.Lib.EndAround
import MvsXinu.Ip.Cksums
import MvsXinu.Ip.InputProcess
import MvsXinu.Ip.TimeToLive
import MvsXinu.Lib.StableOrder
import MvsXinu.Kernel.GpqArrays
import MvsXinu.Kernel.GpqLaw
import MvsXinu.Memory.Stacks
import MvsXinu.Memory.FreeSpace
import MvsXinu.Memory.StackHistory
import MvsXinu.Lib.Rounds
import MvsXinu.Memory.Constructors
import MvsXinu.Memory.ConstructorLaw
import MvsXinu.Udp.Lengths
import MvsXinu.Udp.LengthLaw
import MvsXinu.Route.Expiry
import MvsXinu.Route.SetMask
import MvsXinu.Net.Quotation
import MvsXinu.Net.AddressText
import MvsXinu.Config.Statements
import MvsXinu.Config.StatementLaw
import MvsXinu.Lib.Numerals
import MvsXinu.Kernel.Doprnt
import MvsXinu.Kernel.NumberText
import MvsXinu.Kernel.NumericFormat
import MvsXinu.Kernel.DeltaQueue
import MvsXinu.Lib.Shelves
import MvsXinu.Memory.PortLaw
import MvsXinu.Memory.PortCalls
import MvsXinu.Memory.PortWaits
import MvsXinu.Memory.PortClearing
import MvsXinu.Memory.PortRuns
import MvsXinu.Memory.PortCapacity
import MvsXinu.Net.StackPorts
import MvsXinu.Net.MessageNodes
import MvsXinu.Tcp.PeerView
import MvsXinu.Tcp.Outflow
import MvsXinu.Tcp.Inflow
import MvsXinu.Tcp.Transfer
import MvsXinu.Arp.Cache
import MvsXinu.Arp.Provenance
import MvsXinu.Arp.Lan
import MvsXinu.Arp.Custody
import MvsXinu.Arp.Undisturbed
import MvsXinu.Rip.Updates
import MvsXinu.Rip.Responses
import MvsXinu.Rip.Packets
import MvsXinu.Rip.HopCounts

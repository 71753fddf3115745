import Trtp.Lib.Gapless
import Trtp.Lib.Runs
import Trtp.Lib.Chain
import Trtp.Lib.Tally
import Trtp.Lib.Probe
import Trtp.Lib.Tokens
import Trtp.Lib.Classes
import Trtp.Lib.Shift
import Trtp.Lib.Blocks
import Trtp.Lib.Gather
import Trtp.Packet.Bytes
import Trtp.Packet.Basic
import Trtp.Packet.Crc
import Trtp.Packet.CrcTable
import Trtp.Packet.CrcSteps
import Trtp.Packet.CrcRoutines
import Trtp.Packet.Unpack
import Trtp.Packet.RoundTrip
import Trtp.Packet.SetPayload
import Trtp.Packet.Format
import Trtp.Packet.Repack
import Trtp.Packet.Corruption
import Trtp.Packet.Detection
import Trtp.Handler.Buffer
import Trtp.Handler.Client
import Trtp.Handler.Run
import Trtp.Handler.Session
import Trtp.Handler.Refine
import Trtp.Handler.Calls
import Trtp.Handler.Window
import Trtp.Handler.Reassembly
import Trtp.Handler.Progress
import Trtp.Handler.Ending
import Trtp.Handler.Acks
import Trtp.Handler.Confluence
import Trtp.Handler.Isolation
import Trtp.Handler.Advertise
import Trtp.Handler.Failure
import Trtp.Handler.Arrays
import Trtp.Stream.Basic
import Trtp.Stream.Fifo
import Trtp.Stream.WakeUp
import Trtp.Stream.Single
import Trtp.Stream.Alone
import Trtp.Stream.Counter
import Trtp.HashTable.Basic
import Trtp.HashTable.Put
import Trtp.HashTable.Refinement
import Trtp.HashTable.Removal
import Trtp.HashTable.Termination
import Trtp.HashTable.Exhaustion
import Trtp.HashTable.Shared
import Trtp.Receiver.Basic
import Trtp.Receiver.Dispatch
import Trtp.Receiver.Errors
import Trtp.Receiver.Admission
import Trtp.Server.Basic
import Trtp.Server.Threads
import Trtp.Server.Sequential
import Trtp.Server.Nodes
import Trtp.Server.Delivery
import Trtp.Server.Shutdown
import Trtp.Cli.Text
import Trtp.Cli.Streams
import Trtp.Cli.Lines
import Trtp.Cli.Assignment
import Trtp.Cli.Sides
import Trtp.Cli.Bounds
import Trtp.Cli.Format
import Trtp.Cli.Receiver
import Trtp.Cli.Argument
import Trtp.Cli.OutputName
import Trtp.Cli.Numbers
import Trtp.Cli.Affinity
import Trtp.Cli.Mapping
import Trtp.Cli.Getopt
import Trtp.Server.Clients
import Trtp.Server.Transfer
import Trtp.Server.Schedule
import Trtp.Server.Loop
import Trtp.Server.Receive

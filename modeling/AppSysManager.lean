import AppSysManager.Bytes.BitFields
import AppSysManager.Bytes.Crc
import AppSysManager.Bytes.Memory
import AppSysManager.Bytes.RingBuffer
import AppSysManager.Bytes.Store
import AppSysManager.Channels.Demux
import AppSysManager.Channels.LinkedList
import AppSysManager.Channels.Serial
import AppSysManager.Channels.SharedQueue
import AppSysManager.Csp.Buffers
import AppSysManager.Csp.Bus
import AppSysManager.Csp.Can
import AppSysManager.Csp.Crc32
import AppSysManager.Csp.EndToEnd
import AppSysManager.Csp.Fragmentation
import AppSysManager.Csp.Header
import AppSysManager.Csp.Rdp
import AppSysManager.Csp.RdpEnds
import AppSysManager.Csp.RdpLink
import AppSysManager.Csp.RdpMoves
import AppSysManager.Csp.RdpProgress
import AppSysManager.Csp.Reassembly
import AppSysManager.Csp.Route
import AppSysManager.Csp.Routing
import AppSysManager.Installer.Abort
import AppSysManager.Installer.Chunks
import AppSysManager.Installer.Passes
import AppSysManager.Installer.Reinstall
import AppSysManager.Installer.Stages
import AppSysManager.Installer.Update
import AppSysManager.Mpack.Reader
import AppSysManager.Mpack.ReaderInvariants
import AppSysManager.Mpack.RoundTrip
import AppSysManager.Mpack.Writer
import AppSysManager.Node.Blind
import AppSysManager.Node.Frame
import AppSysManager.Node.LastChars
import AppSysManager.Node.Log
import AppSysManager.Node.Main
import AppSysManager.Node.State
import AppSysManager.Node.Streams
import AppSysManager.Node.Table
import AppSysManager.Server.Apply
import AppSysManager.Server.ArrayIndex
import AppSysManager.Server.ConfigMirror
import AppSysManager.Server.Confined
import AppSysManager.Server.Congruence
import AppSysManager.Server.Containment
import AppSysManager.Server.Contents
import AppSysManager.Server.Decode
import AppSysManager.Server.Encoding
import AppSysManager.Server.LogDownlink
import AppSysManager.Server.LogRuns
import AppSysManager.Server.Malformed
import AppSysManager.Server.OwnBytes
import AppSysManager.Server.PowerLoss
import AppSysManager.Server.Processes
import AppSysManager.Server.Progress
import AppSysManager.Server.PullAnswers
import AppSysManager.Server.PullResponses
import AppSysManager.Server.ReadBack
import AppSysManager.Server.ReadOnly
import AppSysManager.Server.Responses
import AppSysManager.Server.RoundTrip
import AppSysManager.Server.Runs
import AppSysManager.Server.SecondPass
import AppSysManager.Server.Sequential
import AppSysManager.Server.Serializer
import AppSysManager.Server.Serve
import AppSysManager.Server.Sessions
import AppSysManager.Server.VmemServer
import AppSysManager.Shell.Command
import AppSysManager.Shell.Environment

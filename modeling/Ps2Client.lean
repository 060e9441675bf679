import Ps2Client.CMemory.Proofs.CStringProofs
import Ps2Client.Network.Socket
import Ps2Client.Network.Transfer
import Ps2Client.Network.Proofs.TransferProofs
import Ps2Client.Utility.FixArguments
import Ps2Client.Utility.Proofs.FixArgumentsProofs
import Ps2Client.Ps2link.Host
import Ps2Client.Ps2link.Requests
import Ps2Client.Ps2link.Operations
import Ps2Client.Ps2link.Proofs.OperationsProofs
import Ps2Client.Ps2link.Proofs.ThreadProofs
import Ps2Client.Ps2link.Framing
import Ps2Client.Ps2link.Proofs.ResponsesProofs
import Ps2Client.Ps2link.Proofs.FramingProofs
import Ps2Client.Ps2link.Console
import Ps2Client.Ps2link.Mainloop
import Ps2Client.Ps2link.Proofs.ConsoleProofs
import Ps2Client.Ps2link.Proofs.MainloopProofs
import Ps2Client.Ps2link.Proofs.WriteProofs
import Ps2Client.Ps2link.Coverage
import Ps2Client.Ps2link.Proofs.CoverageProofs
import Ps2Client.Ps2link.Fields
import Ps2Client.Ps2link.Proofs.FieldsProofs
import Ps2Client.Ps2link.Directories
import Ps2Client.Ps2link.Proofs.DirectoriesProofs
import Ps2Client.Posix.Files
import Ps2Client.Posix.Proofs.FilesProofs
import Ps2Client.Ps2link.PosixHost
import Ps2Client.Ps2link.Proofs.PosixHostProofs
import Ps2Client.Ps2link.Seeking
import Ps2Client.Ps2link.Proofs.SeekingProofs
import Ps2Client.Ps2link.Appending
import Ps2Client.Ps2link.Proofs.AppendingProofs
import Ps2Client.CMemory.Struct
import Ps2Client.CMemory.Proofs.StructProofs
import Ps2Client.Ps2netfs.Commands
import Ps2Client.Ps2netfs.Protocol
import Ps2Client.Ps2netfs.Proofs.ProtocolProofs
import Ps2Client.Ps2netfs.Session
import Ps2Client.Ps2netfs.Proofs.SessionProofs
import Ps2Client.Utility.FixArgv
import Ps2Client.Utility.Proofs.FixArgvProofs
import Ps2Client.Ps2link.Commands
import Ps2Client.CMemory.Numbers
import Ps2Client.Main.Operands
import Ps2Client.Main.Proofs.ArgumentsProofs
import Ps2Client.Wire.Commands
import Ps2Client.Wire.Proofs.PathOperandsProofs
import Ps2Client.Wire.Determined
import Ps2Client.Wire.Proofs.DeterminedProofs
import Ps2Client.CMemory.Proofs.NumbersProofs
import Ps2Client.Main.Numerals
import Ps2Client.Main.Proofs.NumeralsProofs
import Ps2Client.Ps2link.Proofs.ReadingProofs
import Ps2Client.Resetcheck.Observer
import Ps2Client.Resetcheck.Proofs.ObserverProofs
import Ps2Client.CMemory.Proofs.ScanProofs
import Ps2Client.Symbolize.Annotate
import Ps2Client.Symbolize.Proofs.AnnotateProofs
import Ps2Client.History.Past
import Ps2Client.History.Proofs.PastProofs
import Ps2Client.Ps2link.Handshake
import Ps2Client.Ps2link.Proofs.HandshakeProofs
import Ps2Client.Ps2link.Idle
import Ps2Client.Ps2link.Proofs.IdleProofs
import Ps2Client.Fsclient.Complete
import Ps2Client.Fsclient.Proofs.CompleteProofs
import Ps2Client.Fsclient.Proofs.CopytoProofs
import Ps2Client.CMemory.Options
import Ps2Client.CMemory.Proofs.OptionsProofs
import Ps2Client.Fsclient.Main
import Ps2Client.Fsclient.Proofs.MainProofs
import Ps2Client.Main.CommandLine
import Ps2Client.Main.Proofs.CommandLineProofs
import Ps2Client.Ps2link.Attributes
import Ps2Client.Ps2link.Joining
import Ps2Client.Ps2link.Pacing
import Ps2Client.Ps2link.Proofs.AttributesProofs
import Ps2Client.Ps2link.Proofs.JoiningProofs
import Ps2Client.Ps2link.Proofs.PacingProofs
import Ps2Client.CMemory.Lines
import Ps2Client.Symbolize.Log
import Ps2Client.Symbolize.Proofs.LogProofs
import Ps2Client.CMemory.Bounded
import Ps2Client.CMemory.Proofs.BoundedProofs
import Ps2Client.Fsclient.Devlist
import Ps2Client.Fsclient.Dir
import Ps2Client.Fsclient.Proofs.DevlistProofs
import Ps2Client.Fsclient.Proofs.DirProofs
import Ps2Client.Main.Ping
import Ps2Client.Main.Proofs.PingProofs
import Ps2Client.Network.Proofs.StreamsProofs
import Ps2Client.Ps2link.Proofs.LineBufferProofs
import Ps2Client.Utility.FixPathname
import Ps2Client.Utility.Proofs.FixPathnameProofs
import Ps2Client.History.Contract
import Ps2Client.History.Progress
import Ps2Client.History.Proofs.ContractProofs
import Ps2Client.History.Proofs.ProgressProofs
import Ps2Client.Main.Process
import Ps2Client.Main.Proofs.ExitProofs
import Ps2Client.Main.Proofs.DescriptorsProofs
import Ps2Client.Main.Proofs.StdoutProofs
import Ps2Client.Main.Proofs.WireProofs
import Ps2Client.Posix.Proofs.ServiceProofs
import Ps2Client.Ps2link.Proofs.ServiceProofs
import Ps2Client.Resetcheck.Children
import Ps2Client.Resetcheck.Proofs.ChildrenProofs
import Ps2Client.Symbolize.Options
import Ps2Client.Symbolize.Program
import Ps2Client.Symbolize.Proofs.OptionsProofs
import Ps2Client.Symbolize.Proofs.ProgramProofs
import Ps2Client.Fsclient.Program
import Ps2Client.Fsclient.Proofs.ProgramProofs
import Ps2Client.Fsclient.Proofs.ServedProofs
import Ps2Client.Ps2link.Proofs.NullDeviceProofs

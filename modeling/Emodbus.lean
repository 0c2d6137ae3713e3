import Emodbus.Proofs.ClientRegs
import Emodbus.Proofs.ClientRun
import Emodbus.Proofs.FootprintFile
import Emodbus.Proofs.RegsRun
import Emodbus.Proofs.RtuFraming
import Emodbus.Proofs.RxBuffers
import Emodbus.Proofs.ServerRegs
import Emodbus.Proofs.TcpIsolation
import Emodbus.Proofs.TcpSafety
import Emodbus.Proofs.TcpStream
import Emodbus.Proofs.TcpArrivals
import Emodbus.BitsRun
import Emodbus.Proofs.PackLoop
import Emodbus.Proofs.ClientBits
import Emodbus.Proofs.BitsRun
import Emodbus.TcpPair
import Emodbus.Proofs.TcpLink
import Emodbus.Proofs.ClientTurn
import Emodbus.Proofs.TcpPair
import Emodbus.Lib.Lookup
import Emodbus.Lib.Cursor
import Emodbus.Registry
import Emodbus.Proofs.Registry
import Emodbus.Proofs.SrvCases
import Emodbus.Proofs.StoreRange
import Emodbus.Proofs.AnswerForm
import Emodbus.SimpleCrc
import Emodbus.Proofs.Crc
import Emodbus.BitErrors
import Emodbus.Proofs.BitErrors
import Emodbus.FileReads
import Emodbus.Proofs.FileReads
import Emodbus.FileSubs
import Emodbus.Proofs.FileSubs
import Emodbus.Proofs.WriteAtomic
import Emodbus.LengthFields
import Emodbus.Proofs.LengthFields
import Emodbus.Proofs.RtuBurst
import Emodbus.ClientFile
import Emodbus.FileStore
import Emodbus.Proofs.ClientFile
import Emodbus.Proofs.FileAnswer
import Emodbus.Proofs.FileRoundTrip
import Emodbus.TcpClient
import Emodbus.Proofs.TcpClient
import Emodbus.Proofs.LateAnswer
import Emodbus.TcpViaTcpClient
import Emodbus.Proofs.TcpViaTcpClient
import Emodbus.WriteFileLimits
import Emodbus.Transaction
import Emodbus.Proxy
import Emodbus.Proofs.Transaction
import Emodbus.Proofs.Proxy
import Emodbus.Proofs.WriteFileLimits
import Emodbus.Proofs.FifoRoundTrip
import Emodbus.Proofs.FileWalk
import Emodbus.Lib.Links
import Emodbus.SList
import Emodbus.Proofs.SList
import Emodbus.RemoteBits
import Emodbus.Proofs.RemoteBits
import Emodbus.Lib.Outbox
import Emodbus.PartialWrites
import Emodbus.Proofs.PartialWrites
import Emodbus.Builders
import Emodbus.Proofs.Builders
import Emodbus.ClientSend
import Emodbus.Proofs.ClientSend
import Emodbus.Reuse
import Emodbus.Proofs.Reuse
import Emodbus.AnswerGetters
import Emodbus.Proofs.AnswerGetters
import Emodbus.RtuBus
import Emodbus.Proofs.RtuLine
import Emodbus.Proofs.RtuBus
import Emodbus.Proofs.RtuSilence
import Emodbus.Proofs.RunTogether
import Emodbus.SyncClient
import Emodbus.Proofs.SyncClient
import Emodbus.TcpConnection
import Emodbus.Proofs.TcpConnection
import Emodbus.RemoteMemory
import Emodbus.Proofs.StoreKeeps
import Emodbus.Proofs.RemoteMemory
import Emodbus.Lib.Rings
import Emodbus.ListHead
import Emodbus.Proofs.ListHead
import Emodbus.RtuViaSerial
import Emodbus.Proofs.RtuViaSerial
import Emodbus.TcpServerPort
import Emodbus.Proofs.TcpServerPort
import Emodbus.Lib.Parts
import Emodbus.SuperServerT
import Emodbus.Proofs.ServerParts
import Emodbus.Proofs.SuperServerT

import KvFdw.Bytes
import KvFdw.Shm.Frame
import KvFdw.Shm.Protocol
import KvFdw.Shm.Transition
import KvFdw.Shm.Tokens
import KvFdw.Shm.Shape
import KvFdw.Shm.Start
import KvFdw.Shm.Ledger
import KvFdw.Shm.Faults
import KvFdw.Shm.Delivery
import KvFdw.Shm.Progress
import KvFdw.Shm.Iterators
import KvFdw.Shm.Commands
import KvFdw.Shm.Responses
import KvFdw.Shm.Handlers
import KvFdw.Shm.Results
import KvFdw.Shm.Replay
import KvFdw.Shm.Tables
import KvFdw.Shm.TableInvariants
import KvFdw.Shm.TableRuns
import KvFdw.Shm.Engine
import KvFdw.Shm.WorkerExit
import KvFdw.Shm.Service
import KvFdw.Shm.Scan
import KvFdw.Server.Message
import KvFdw.Server.Cursor
import KvFdw.Server.Worker
import KvFdw.Server.Codec
import KvFdw.Server.Tables

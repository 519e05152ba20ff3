import KvFdw.Shm.Frame
import Mathlib.Algebra.BigOperators.Fin

/-!
# The kv_shm.c protocol as a transition system

`SharedMem`, the response slots, the clients, `KVWorkerMain` and `KVStorageThreadFun`: one
step per semaphore operation, `memcpy` or branch on shared data, with a few ghost logs.
-/

set_option autoImplicit false

namespace KvFdw.Shm

/-- The build constants of kv_shm.c that are not among the sources, as parameters.
`responseQueueLength` is `RESPONSEQUEUELENGTH`; the slot index of
`GetResponseQueueIndex` is a `uint32`, so the queue has at most `2 ^ 32` slots.
`bufSize` is `BUFSIZE`, the size of `ptr->area` and of each response slot. -/
structure ShmConfig where
  responseQueueLength : Nat
  bufSize : Nat
  responseQueueLength_pos : 0 < responseQueueLength
  responseQueueLength_le : responseQueueLength ≤ 2 ^ 32

/-- The protocol together with the worker's command handlers. `dispatch store func buf`
is the `switch` of `KVWorkerMain` on a non-`TERMINATE` command: `none` when the handler
(or the `default` branch) raises an error, otherwise the handler's new state and the
bytes it writes at the start of `ResponseQueue[responseId]` (empty when it writes none).
`initStore` is the state `KVWorkerMain` builds before its loop. -/
structure Protocol (σ : Type) extends ShmConfig where
  dispatch : σ → Nat → List UInt8 → Option (σ × List UInt8)
  initStore : σ

/-- Where a client is in the request function it is running. The slot is the
`responseId` leased from `GetResponseQueueIndex`; for `lease` it is the slot the scan
tries next. -/
inductive Phase
  | idle
  | waitMutex
  | checkCreated
  | postAgent0
  | waitAgent1
  | waitFull
  | writeFunc
  | lease (slot : Nat)
  | writeBody (slot : Nat)
  | getOptions (slot : Nat)
  | checkSize (slot : Nat)
  | errorPostMutex (slot : Nat)
  | errorPostLease (slot : Nat)
  | postWorker (slot : Nat)
  | postMutex (slot : Nat)
  | waitSync (slot : Nat)
  | readResponse (slot : Nat)
  | mapSegment (slot : Nat)
  | postLease (slot : Nat)
  deriving DecidableEq, Repr

/-- A client process: its current call, its `getpid()`, and whether it holds a `ptr`
returned by a completed `OpenRequest` (the other request functions take that `ptr`).
`frame` (ghost) is what the current call has written into the area and `ticket` (ghost)
the position of its command among all commands posted to the worker; `reply` is the
response slot as the client read it. -/
structure Client where
  phase : Phase
  call : Call
  pid : Nat
  opened : Bool
  frame : List UInt8
  ticket : Nat
  reply : Region

/-- Where `KVWorkerMain` is. The worker keeps what it copied out of the area (`func`,
`responseId` and the local `buf`) from the copy until it posts `responseSync`. -/
inductive WorkerPhase
  | notStarted
  | waitWorker
  | copyOut
  | postFull (func responseId : Nat) (buf : List UInt8)
  | dispatch (func responseId : Nat) (buf : List UInt8)
  | postSync (responseId : Nat) (terminating : Bool)
  | exited
  deriving DecidableEq, Repr

/-- A worker process that is running its loop: started, and not exited. -/
def WorkerPhase.alive : WorkerPhase → Bool
  | .notStarted | .exited => false
  | _ => true

theorem WorkerPhase.forked_ne_notStarted (worker : WorkerPhase) :
    (if worker.alive then worker else .waitWorker) ≠ .notStarted := by
  cases worker <;> simp [WorkerPhase.alive]

/-- Where the `KVStorageThreadFun` loop is. -/
inductive StarterPhase
  | waitAgent0
  | startWorker
  | setCreated
  | postAgent1
  deriving DecidableEq, Repr

/-- The whole system: the semaphores and flag of `SharedMem`, `ptr->area`, the response
slots, the clients, the worker and its handler state, the start thread, and ghost state. -/
structure State (n : Nat) (σ : Type) where
  mutex : Nat
  full : Nat
  agent0 : Nat
  agent1 : Nat
  worker : Nat
  responseMutex : Nat → Nat
  responseSync : Nat → Nat
  workerProcessCreated : Bool
  area : Region
  responseQueue : Nat → Region
  clients : Fin n → Client
  kvWorker : WorkerPhase
  store : σ
  starter : StarterPhase
  starts : Nat
  handshakes : Nat
  posted : List (List UInt8)
  copied : List (List UInt8)
  responses : List (List UInt8)
  synced : Nat

variable {n : Nat} {σ : Type}

/-- The state after `KVStorageThreadFun` has initialised the semaphores, before any
request: `mutex` and `full` at one, every `responseMutex[i]` at one, the rest at zero. -/
def State.init (P : Protocol σ) (pids : Fin n → Nat) : State n σ where
  mutex := 1
  full := 1
  agent0 := 0
  agent1 := 0
  worker := 0
  responseMutex := fun slot => if slot < P.responseQueueLength then 1 else 0
  responseSync := fun _ => 0
  workerProcessCreated := false
  area := fun _ => 0
  responseQueue := fun _ _ => 0
  clients := fun c =>
    { phase := .idle, call := .closeRequest 0, pid := pids c, opened := false, frame := [],
      ticket := 0, reply := fun _ => 0 }
  kvWorker := .notStarted
  store := P.initStore
  starter := .waitAgent0
  starts := 0
  handshakes := 0
  posted := []
  copied := []
  responses := []
  synced := 0

/-- `sem_post` on one semaphore of an array of them. -/
def postAt (sems : Nat → Nat) (slot : Nat) : Nat → Nat :=
  Function.update sems slot (sems slot + 1)

/-- A successful `sem_wait` or `sem_trywait` on one semaphore of an array of them. -/
def takeAt (sems : Nat → Nat) (slot : Nat) : Nat → Nat :=
  Function.update sems slot (sems slot - 1)

/-- `memcpy(ResponseQueue[slot], bytes, length)` into a slot of `BUFSIZE` bytes: the
bytes past its end do not reach the slot. -/
def writeSlot (C : ShmConfig) (queue : Nat → Region) (slot : Nat) (bytes : List UInt8) :
    Nat → Region :=
  Function.update queue slot ((queue slot).write 0 (bytes.take C.bufSize))

/-- Replace one client. -/
@[simps]
def State.setClient (s : State n σ) (c : Fin n) (client : Client) : State n σ :=
  { s with clients := Function.update s.clients c client }

@[simp] theorem State.clients_setClient (s : State n σ) (c : Fin n) (client : Client) :
    (s.setClient c client).clients = Function.update s.clients c client := rfl

/-- A decision of the scheduler or of the environment: run the next statement, start a
call, let `KVGetOptions` return a path, let a callee raise an error, or let a blocked
`sem_wait` fail with `EINTR`. -/
inductive Move
  | proceed
  | invoke (call : Call)
  | options (path : List UInt8)
  | raise
  | interrupt
  deriving DecidableEq, Repr

/-- Which party takes a step. -/
inductive Action (n : Nat)
  | client (c : Fin n) (move : Move)
  | kvWorker (move : Move)
  | starter (move : Move)
  deriving DecidableEq, Repr

/-- The next slot `GetResponseQueueIndex` tries after a failed `SemTryWait`: the `for`
loop goes up to `RESPONSEQUEUELENGTH` and the `while (true)` restarts it at zero. -/
def nextSlot (C : ShmConfig) (slot : Nat) : Nat :=
  if slot + 1 < C.responseQueueLength then slot + 1 else 0

/-- Where a request continues once it holds `mutex`: `OpenRequest` first checks
`workerProcessCreated`, the others wait for `full`. -/
def afterMutex (call : Call) : Phase :=
  if call.isOpen then .checkCreated else .waitFull

/-- Where a request continues after writing its body: `OpenRequest` asks `KVGetOptions`
for the path, `PutRequest` checks the frame size, the others post `worker`. -/
def afterBody (call : Call) (slot : Nat) : Phase :=
  if call.isOpen then .getOptions slot
  else if call.checksSize then .checkSize slot
  else .postWorker slot

/-- Where a request continues after `SemWait(&ptr->responseSync[responseId])`. -/
def afterSync (call : Call) (slot : Nat) : Phase :=
  if call.readsResponse then .readResponse slot else .postLease slot

/-- `*bufLen` as `RangeQueryRequest` reads it from its response slot. -/
def replyBufLen (reply : Region) : Nat :=
  decodeLE (reply.read 0 8)

/-- One step of client `c`, following its request function line by line: what the
statement at its current phase does, for each decision that can occur there. -/
def clientStep (P : Protocol σ) (s : State n σ) (c : Fin n) (move : Move) :
    Option (State n σ) :=
  match (s.clients c).phase with
  | .idle =>
      match move with
      | .invoke call =>
          if call.isOpen || (s.clients c).opened then
            some (s.setClient c
              { s.clients c with phase := .waitMutex, call := call, frame := [] })
          else none
      | _ => none
  | .waitMutex =>
      match move with
      | .proceed =>
          if 0 < s.mutex then
            some ({ s with mutex := s.mutex - 1 }.setClient c
              { s.clients c with phase := afterMutex (s.clients c).call })
          else none
      | .interrupt =>
          if s.mutex = 0 then
            some (s.setClient c { s.clients c with phase := afterMutex (s.clients c).call })
          else none
      | _ => none
  | .checkCreated =>
      match move with
      | .proceed =>
          if s.workerProcessCreated then
            some (s.setClient c { s.clients c with phase := .waitFull })
          else some (s.setClient c { s.clients c with phase := .postAgent0 })
      | _ => none
  | .postAgent0 =>
      match move with
      | .proceed =>
          some ({ s with agent0 := s.agent0 + 1, handshakes := s.handshakes + 1 }.setClient c
            { s.clients c with phase := .waitAgent1 })
      | _ => none
  | .waitAgent1 =>
      match move with
      | .proceed =>
          if 0 < s.agent1 then
            some ({ s with agent1 := s.agent1 - 1 }.setClient c
              { s.clients c with phase := .waitFull })
          else none
      | .interrupt =>
          if s.agent1 = 0 then some (s.setClient c { s.clients c with phase := .waitFull })
          else none
      | _ => none
  | .waitFull =>
      match move with
      | .proceed =>
          if 0 < s.full then
            some ({ s with full := s.full - 1 }.setClient c
              { s.clients c with phase := .writeFunc })
          else none
      | .interrupt =>
          if s.full = 0 then some (s.setClient c { s.clients c with phase := .writeFunc })
          else none
      | _ => none
  | .writeFunc =>
      match move with
      | .proceed =>
          some ({ s with area := s.area.write 0 (encodeU32 (s.clients c).call.funcName.code) }.setClient c
            { s.clients c with
              phase := .lease 0, frame := encodeU32 (s.clients c).call.funcName.code })
      | _ => none
  | .lease slot =>
      match move with
      | .proceed =>
          if 0 < s.responseMutex slot then
            some ({ s with responseMutex := takeAt s.responseMutex slot }.setClient c
              { s.clients c with phase := .writeBody slot })
          else
            some (s.setClient c { s.clients c with phase := .lease (nextSlot P.toShmConfig slot) })
      | .raise => some (s.setClient c { s.clients c with phase := .idle })
      | _ => none
  | .writeBody slot =>
      match move with
      | .proceed =>
          some ({ s with
              area := s.area.write wordSize
                (encodeU32 slot ++ (s.clients c).call.body (s.clients c).pid) }.setClient c
            { s.clients c with
              phase := afterBody (s.clients c).call slot
              frame := (s.clients c).frame ++
                (encodeU32 slot ++ (s.clients c).call.body (s.clients c).pid) })
      | _ => none
  | .getOptions slot =>
      match move with
      | .options path =>
          some ({ s with area := s.area.write openPathOffset (strcpyBytes path) }.setClient c
            { s.clients c with
              phase := .postWorker slot, frame := (s.clients c).frame ++ strcpyBytes path })
      | .raise => some (s.setClient c { s.clients c with phase := .idle })
      | _ => none
  | .checkSize slot =>
      match move with
      | .proceed =>
          if P.bufSize < (s.clients c).frame.length then
            some (s.setClient c { s.clients c with phase := .errorPostMutex slot })
          else some (s.setClient c { s.clients c with phase := .postWorker slot })
      | _ => none
  | .errorPostMutex slot =>
      match move with
      | .proceed =>
          some ({ s with mutex := s.mutex + 1 }.setClient c
            { s.clients c with phase := .errorPostLease slot })
      | _ => none
  | .errorPostLease slot =>
      match move with
      | .proceed =>
          some ({ s with responseMutex := postAt s.responseMutex slot }.setClient c
            { s.clients c with phase := .idle })
      | _ => none
  | .postWorker slot =>
      match move with
      | .proceed =>
          some ({ s with worker := s.worker + 1, posted := s.posted ++ [(s.clients c).frame] }.setClient c
            { s.clients c with phase := .postMutex slot, ticket := s.posted.length })
      | _ => none
  | .postMutex slot =>
      match move with
      | .proceed =>
          some ({ s with mutex := s.mutex + 1 }.setClient c
            { s.clients c with phase := .waitSync slot })
      | _ => none
  | .waitSync slot =>
      match move with
      | .proceed =>
          if 0 < s.responseSync slot then
            some ({ s with responseSync := takeAt s.responseSync slot }.setClient c
              { s.clients c with phase := afterSync (s.clients c).call slot })
          else none
      | .interrupt =>
          if s.responseSync slot = 0 then
            some (s.setClient c { s.clients c with phase := afterSync (s.clients c).call slot })
          else none
      | _ => none
  | .readResponse slot =>
      match move with
      | .proceed =>
          if (s.clients c).call.isRangeQuery && replyBufLen (s.responseQueue slot) != 0 then
            some (s.setClient c
              { s.clients c with phase := .mapSegment slot, reply := s.responseQueue slot })
          else
            some (s.setClient c
              { s.clients c with phase := .postLease slot, reply := s.responseQueue slot })
      | _ => none
  | .mapSegment slot =>
      match move with
      | .proceed => some (s.setClient c { s.clients c with phase := .postLease slot })
      | .raise => some (s.setClient c { s.clients c with phase := .idle })
      | _ => none
  | .postLease slot =>
      match move with
      | .proceed =>
          some ({ s with responseMutex := postAt s.responseMutex slot }.setClient c
            { s.clients c with
              phase := .idle, opened := (s.clients c).opened || (s.clients c).call.isOpen })
      | _ => none

/-- The `buf` `KVWorkerMain` hands to the handlers: `memset(buf, 0, BUFSIZE)`, then the
area from `sizeof(FuncName)` on, `BUFSIZE - sizeof(FuncName)` bytes. -/
def workerBuf (C : ShmConfig) (area : Region) : List UInt8 :=
  area.read wordSize (C.bufSize - wordSize) ++ List.replicate (min wordSize C.bufSize) 0

/-- What `KVWorkerMain` takes from the area before posting `full`: `func` from its first
`sizeof(FuncName)` bytes, `responseId` from the next four, and `buf`. -/
def copyOutOf (C : ShmConfig) (area : Region) : WorkerPhase :=
  .postFull (decodeLE (area.read 0 wordSize)) (decodeLE (area.read wordSize wordSize))
    (workerBuf C area)

/-- One step of the `KVWorkerMain` loop. -/
def workerStep (P : Protocol σ) (s : State n σ) (move : Move) : Option (State n σ) :=
  match s.kvWorker, move with
  | .waitWorker, .proceed =>
      if 0 < s.worker then some { s with worker := s.worker - 1, kvWorker := .copyOut }
      else none
  | .waitWorker, .interrupt =>
      if s.worker = 0 then some { s with kvWorker := .copyOut } else none
  | .copyOut, .proceed =>
      some { s with
        kvWorker := copyOutOf P.toShmConfig s.area
        copied := s.copied ++ [s.area.read 0 P.bufSize] }
  | .postFull func responseId buf, .proceed =>
      if func = FuncName.TERMINATE.code then
        some { s with
          full := s.full + 1
          kvWorker := .postSync responseId true
          responses := s.responses ++ [[]] }
      else some { s with full := s.full + 1, kvWorker := .dispatch func responseId buf }
  | .dispatch func responseId buf, .proceed =>
      match P.dispatch s.store func buf with
      | none => some { s with kvWorker := .exited }
      | some (store, response) =>
          some { s with
            store := store
            responseQueue := writeSlot P.toShmConfig s.responseQueue responseId response
            responses := s.responses ++ [response]
            kvWorker := .postSync responseId false }
  | .postSync responseId terminating, .proceed =>
      some { s with
        responseSync := postAt s.responseSync responseId
        synced := s.synced + 1
        kvWorker := if terminating then .exited else .waitWorker }
  | _, _ => none

/-- One step of the `KVStorageThreadFun` loop. `StartKVWorker` forks a fresh worker
process, which builds its hash tables and enters its loop. The model has one worker
process: a fork while the previous one is still alive keeps that one. -/
def starterStep (P : Protocol σ) (s : State n σ) (move : Move) : Option (State n σ) :=
  match s.starter, move with
  | .waitAgent0, .proceed =>
      if 0 < s.agent0 then some { s with agent0 := s.agent0 - 1, starter := .startWorker }
      else none
  | .waitAgent0, .interrupt =>
      if s.agent0 = 0 then some { s with starter := .startWorker } else none
  | .startWorker, .proceed =>
      some { s with
        starts := s.starts + 1
        kvWorker := if s.kvWorker.alive then s.kvWorker else .waitWorker
        store := if s.kvWorker.alive then s.store else P.initStore
        starter := .setCreated }
  | .setCreated, .proceed =>
      some { s with workerProcessCreated := true, starter := .postAgent1 }
  | .postAgent1, .proceed =>
      some { s with agent1 := s.agent1 + 1, starter := .waitAgent0 }
  | _, _ => none

/-- One step of the system. -/
def step (P : Protocol σ) (s : State n σ) : Action n → Option (State n σ)
  | .client c move => clientStep P s c move
  | .kvWorker move => workerStep P s move
  | .starter move => starterStep P s move

/-- The steps in which a blocked `sem_wait` returns `EINTR`. -/
def Action.interrupts : Action n → Bool
  | .client _ .interrupt | .kvWorker .interrupt | .starter .interrupt => true
  | _ => false

/-- The steps that raise an error: a callee of a client raising one, `PutRequest`
reaching its `ereport` after releasing `mutex` and its slot, or a handler of the worker
raising one. -/
def Action.raises (P : Protocol σ) (s : State n σ) : Action n → Bool
  | .client _ .raise => true
  | .client c .proceed =>
      match (s.clients c).phase with
      | .errorPostLease _ => true
      | _ => false
  | .kvWorker .proceed =>
      match s.kvWorker with
      | .dispatch func _ buf => (P.dispatch s.store func buf).isNone
      | _ => false
  | _ => false

/-- A step in which no `sem_wait` is interrupted; errors may be raised. -/
def Step (P : Protocol σ) (s t : State n σ) : Prop :=
  ∃ action : Action n, action.interrupts = false ∧ step P s action = some t

/-- A step in which no `sem_wait` is interrupted and no error is raised. -/
def NormalStep (P : Protocol σ) (s t : State n σ) : Prop :=
  ∃ action : Action n, action.interrupts = false ∧ action.raises P s = false ∧
    step P s action = some t

/-- A step of any kind, `EINTR` included. -/
def AnyStep (P : Protocol σ) (s t : State n σ) : Prop :=
  ∃ action : Action n, step P s action = some t

/-- The states some run without interrupted waits reaches. -/
def Reachable (P : Protocol σ) (pids : Fin n → Nat) (s : State n σ) : Prop :=
  Relation.ReflTransGen (Step P) (State.init P pids) s

/-- The states some run without interrupted waits and without errors reaches. -/
def NormalReachable (P : Protocol σ) (pids : Fin n → Nat) (s : State n σ) : Prop :=
  Relation.ReflTransGen (NormalStep P) (State.init P pids) s

/-- A small configuration to run the protocol on: one response slot, a 32-byte area, and
handlers that all succeed and answer each command with its `func`. -/
def Protocol.echo : Protocol Unit where
  responseQueueLength := 1
  bufSize := 32
  responseQueueLength_pos := by decide
  responseQueueLength_le := by decide
  dispatch := fun store func _ => some (store, encodeU32 func)
  initStore := ()

end KvFdw.Shm

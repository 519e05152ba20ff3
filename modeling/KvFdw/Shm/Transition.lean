import KvFdw.Shm.Protocol

/-!
# Transitions

The steps of `step` one by one, each with its guard and its resulting state.
-/

set_option autoImplicit false

namespace KvFdw.Shm

variable {n : Nat} {σ : Type}

/-- The steps of client `c`. -/
inductive ClientTransition (P : Protocol σ) (s : State n σ) (c : Fin n) :
    Move → State n σ → Prop
  | invoke {call : Call} (current : (s.clients c).phase = .idle)
      (allowed : (call.isOpen || (s.clients c).opened) = true) :
      ClientTransition P s c (.invoke call)
        (s.setClient c { s.clients c with phase := .waitMutex, call := call, frame := [] })
  | waitMutex (current : (s.clients c).phase = .waitMutex) (available : 0 < s.mutex) :
      ClientTransition P s c .proceed
        ({ s with mutex := s.mutex - 1 }.setClient c
          { s.clients c with phase := afterMutex (s.clients c).call })
  | waitMutexInterrupted (current : (s.clients c).phase = .waitMutex) (blocked : s.mutex = 0) :
      ClientTransition P s c .interrupt
        (s.setClient c { s.clients c with phase := afterMutex (s.clients c).call })
  | checkCreated (current : (s.clients c).phase = .checkCreated)
      (created : s.workerProcessCreated = true) :
      ClientTransition P s c .proceed (s.setClient c { s.clients c with phase := .waitFull })
  | checkNotCreated (current : (s.clients c).phase = .checkCreated)
      (notCreated : s.workerProcessCreated = false) :
      ClientTransition P s c .proceed (s.setClient c { s.clients c with phase := .postAgent0 })
  | postAgent0 (current : (s.clients c).phase = .postAgent0) :
      ClientTransition P s c .proceed
        ({ s with agent0 := s.agent0 + 1, handshakes := s.handshakes + 1 }.setClient c
          { s.clients c with phase := .waitAgent1 })
  | waitAgent1 (current : (s.clients c).phase = .waitAgent1) (available : 0 < s.agent1) :
      ClientTransition P s c .proceed
        ({ s with agent1 := s.agent1 - 1 }.setClient c { s.clients c with phase := .waitFull })
  | waitAgent1Interrupted (current : (s.clients c).phase = .waitAgent1)
      (blocked : s.agent1 = 0) :
      ClientTransition P s c .interrupt (s.setClient c { s.clients c with phase := .waitFull })
  | waitFull (current : (s.clients c).phase = .waitFull) (available : 0 < s.full) :
      ClientTransition P s c .proceed
        ({ s with full := s.full - 1 }.setClient c { s.clients c with phase := .writeFunc })
  | waitFullInterrupted (current : (s.clients c).phase = .waitFull) (blocked : s.full = 0) :
      ClientTransition P s c .interrupt (s.setClient c { s.clients c with phase := .writeFunc })
  | writeFunc (current : (s.clients c).phase = .writeFunc) :
      ClientTransition P s c .proceed
        ({ s with area := s.area.write 0 (encodeU32 (s.clients c).call.funcName.code) }.setClient c
          { s.clients c with
            phase := .lease 0, frame := encodeU32 (s.clients c).call.funcName.code })
  | leaseTake {slot : Nat} (current : (s.clients c).phase = .lease slot)
      (available : 0 < s.responseMutex slot) :
      ClientTransition P s c .proceed
        ({ s with responseMutex := takeAt s.responseMutex slot }.setClient c
          { s.clients c with phase := .writeBody slot })
  | leaseSpin {slot : Nat} (current : (s.clients c).phase = .lease slot)
      (busy : s.responseMutex slot = 0) :
      ClientTransition P s c .proceed
        (s.setClient c { s.clients c with phase := .lease (nextSlot P.toShmConfig slot) })
  | leaseRaise {slot : Nat} (current : (s.clients c).phase = .lease slot) :
      ClientTransition P s c .raise (s.setClient c { s.clients c with phase := .idle })
  | writeBody {slot : Nat} (current : (s.clients c).phase = .writeBody slot) :
      ClientTransition P s c .proceed
        ({ s with
            area := s.area.write wordSize
              (encodeU32 slot ++ (s.clients c).call.body (s.clients c).pid) }.setClient c
          { s.clients c with
            phase := afterBody (s.clients c).call slot
            frame := (s.clients c).frame ++
              (encodeU32 slot ++ (s.clients c).call.body (s.clients c).pid) })
  | getOptions {slot : Nat} {path : List UInt8} (current : (s.clients c).phase = .getOptions slot) :
      ClientTransition P s c (.options path)
        ({ s with area := s.area.write openPathOffset (strcpyBytes path) }.setClient c
          { s.clients c with
            phase := .postWorker slot, frame := (s.clients c).frame ++ strcpyBytes path })
  | getOptionsRaise {slot : Nat} (current : (s.clients c).phase = .getOptions slot) :
      ClientTransition P s c .raise (s.setClient c { s.clients c with phase := .idle })
  | checkSizeTooLong {slot : Nat} (current : (s.clients c).phase = .checkSize slot)
      (tooLong : P.bufSize < (s.clients c).frame.length) :
      ClientTransition P s c .proceed
        (s.setClient c { s.clients c with phase := .errorPostMutex slot })
  | checkSizeFits {slot : Nat} (current : (s.clients c).phase = .checkSize slot)
      (fits : ¬P.bufSize < (s.clients c).frame.length) :
      ClientTransition P s c .proceed (s.setClient c { s.clients c with phase := .postWorker slot })
  | errorPostMutex {slot : Nat} (current : (s.clients c).phase = .errorPostMutex slot) :
      ClientTransition P s c .proceed
        ({ s with mutex := s.mutex + 1 }.setClient c
          { s.clients c with phase := .errorPostLease slot })
  | errorPostLease {slot : Nat} (current : (s.clients c).phase = .errorPostLease slot) :
      ClientTransition P s c .proceed
        ({ s with responseMutex := postAt s.responseMutex slot }.setClient c
          { s.clients c with phase := .idle })
  | postWorker {slot : Nat} (current : (s.clients c).phase = .postWorker slot) :
      ClientTransition P s c .proceed
        ({ s with worker := s.worker + 1, posted := s.posted ++ [(s.clients c).frame] }.setClient c
          { s.clients c with phase := .postMutex slot, ticket := s.posted.length })
  | postMutex {slot : Nat} (current : (s.clients c).phase = .postMutex slot) :
      ClientTransition P s c .proceed
        ({ s with mutex := s.mutex + 1 }.setClient c { s.clients c with phase := .waitSync slot })
  | waitSync {slot : Nat} (current : (s.clients c).phase = .waitSync slot)
      (available : 0 < s.responseSync slot) :
      ClientTransition P s c .proceed
        ({ s with responseSync := takeAt s.responseSync slot }.setClient c
          { s.clients c with phase := afterSync (s.clients c).call slot })
  | waitSyncInterrupted {slot : Nat} (current : (s.clients c).phase = .waitSync slot)
      (blocked : s.responseSync slot = 0) :
      ClientTransition P s c .interrupt
        (s.setClient c { s.clients c with phase := afterSync (s.clients c).call slot })
  | readResponseSegment {slot : Nat} (current : (s.clients c).phase = .readResponse slot)
      (segment : ((s.clients c).call.isRangeQuery && replyBufLen (s.responseQueue slot) != 0) = true) :
      ClientTransition P s c .proceed
        (s.setClient c
          { s.clients c with phase := .mapSegment slot, reply := s.responseQueue slot })
  | readResponse {slot : Nat} (current : (s.clients c).phase = .readResponse slot)
      (noSegment : ((s.clients c).call.isRangeQuery && replyBufLen (s.responseQueue slot) != 0) = false) :
      ClientTransition P s c .proceed
        (s.setClient c
          { s.clients c with phase := .postLease slot, reply := s.responseQueue slot })
  | mapSegment {slot : Nat} (current : (s.clients c).phase = .mapSegment slot) :
      ClientTransition P s c .proceed (s.setClient c { s.clients c with phase := .postLease slot })
  | mapSegmentRaise {slot : Nat} (current : (s.clients c).phase = .mapSegment slot) :
      ClientTransition P s c .raise (s.setClient c { s.clients c with phase := .idle })
  | postLease {slot : Nat} (current : (s.clients c).phase = .postLease slot) :
      ClientTransition P s c .proceed
        ({ s with responseMutex := postAt s.responseMutex slot }.setClient c
          { s.clients c with
            phase := .idle, opened := (s.clients c).opened || (s.clients c).call.isOpen })

/-- The steps of the worker. -/
inductive WorkerTransition (P : Protocol σ) (s : State n σ) : Move → State n σ → Prop
  | waitWorker (current : s.kvWorker = .waitWorker) (available : 0 < s.worker) :
      WorkerTransition P s .proceed { s with worker := s.worker - 1, kvWorker := .copyOut }
  | waitWorkerInterrupted (current : s.kvWorker = .waitWorker) (blocked : s.worker = 0) :
      WorkerTransition P s .interrupt { s with kvWorker := .copyOut }
  | copyOut (current : s.kvWorker = .copyOut) :
      WorkerTransition P s .proceed
        { s with
          kvWorker := copyOutOf P.toShmConfig s.area
          copied := s.copied ++ [s.area.read 0 P.bufSize] }
  | postFullTerminate {func responseId : Nat} {buf : List UInt8}
      (current : s.kvWorker = .postFull func responseId buf)
      (terminate : func = FuncName.TERMINATE.code) :
      WorkerTransition P s .proceed
        { s with
          full := s.full + 1
          kvWorker := .postSync responseId true
          responses := s.responses ++ [[]] }
  | postFull {func responseId : Nat} {buf : List UInt8}
      (current : s.kvWorker = .postFull func responseId buf)
      (command : func ≠ FuncName.TERMINATE.code) :
      WorkerTransition P s .proceed
        { s with full := s.full + 1, kvWorker := .dispatch func responseId buf }
  | dispatchRaise {func responseId : Nat} {buf : List UInt8}
      (current : s.kvWorker = .dispatch func responseId buf)
      (raised : P.dispatch s.store func buf = none) :
      WorkerTransition P s .proceed { s with kvWorker := .exited }
  | dispatch {func responseId : Nat} {buf : List UInt8} {store : σ} {response : List UInt8}
      (current : s.kvWorker = .dispatch func responseId buf)
      (handled : P.dispatch s.store func buf = some (store, response)) :
      WorkerTransition P s .proceed
        { s with
          store := store
          responseQueue := writeSlot P.toShmConfig s.responseQueue responseId response
          responses := s.responses ++ [response]
          kvWorker := .postSync responseId false }
  | postSync {responseId : Nat} {terminating : Bool}
      (current : s.kvWorker = .postSync responseId terminating) :
      WorkerTransition P s .proceed
        { s with
          responseSync := postAt s.responseSync responseId
          synced := s.synced + 1
          kvWorker := if terminating then .exited else .waitWorker }

/-- The steps of the start thread. -/
inductive StarterTransition (P : Protocol σ) (s : State n σ) : Move → State n σ → Prop
  | waitAgent0 (current : s.starter = .waitAgent0) (available : 0 < s.agent0) :
      StarterTransition P s .proceed { s with agent0 := s.agent0 - 1, starter := .startWorker }
  | waitAgent0Interrupted (current : s.starter = .waitAgent0) (blocked : s.agent0 = 0) :
      StarterTransition P s .interrupt { s with starter := .startWorker }
  | startWorker (current : s.starter = .startWorker) :
      StarterTransition P s .proceed
        { s with
          starts := s.starts + 1
          kvWorker := if s.kvWorker.alive then s.kvWorker else .waitWorker
          store := if s.kvWorker.alive then s.store else P.initStore
          starter := .setCreated }
  | setCreated (current : s.starter = .setCreated) :
      StarterTransition P s .proceed
        { s with workerProcessCreated := true, starter := .postAgent1 }
  | postAgent1 (current : s.starter = .postAgent1) :
      StarterTransition P s .proceed
        { s with agent1 := s.agent1 + 1, starter := .waitAgent0 }

/-- The steps of the system. -/
inductive Transition (P : Protocol σ) (s : State n σ) : Action n → State n σ → Prop
  | client {c : Fin n} {move : Move} {t : State n σ} :
      ClientTransition P s c move t → Transition P s (.client c move) t
  | kvWorker {move : Move} {t : State n σ} :
      WorkerTransition P s move t → Transition P s (.kvWorker move) t
  | starter {move : Move} {t : State n σ} :
      StarterTransition P s move t → Transition P s (.starter move) t

theorem ClientTransition.of_clientStep {P : Protocol σ} {s t : State n σ} {c : Fin n}
    {move : Move} (stepped : clientStep P s c move = some t) : ClientTransition P s c move t := by
  unfold clientStep at stepped
  cases current : (s.clients c).phase <;> rw [current] at stepped <;> cases move <;>
    simp only [reduceCtorEq] at stepped <;> (try split_ifs at stepped with guard) <;>
    cases stepped
  -- the branches of clientStep come in the order of the constructors
  exacts [.invoke current ‹_›, .waitMutex current ‹_›, .waitMutexInterrupted current ‹_›,
    .checkCreated current ‹_›, .checkNotCreated current (by simpa using guard),
    .postAgent0 current, .waitAgent1 current ‹_›, .waitAgent1Interrupted current ‹_›,
    .waitFull current ‹_›, .waitFullInterrupted current ‹_›, .writeFunc current,
    .leaseTake current ‹_›, .leaseSpin current (by omega), .leaseRaise current,
    .writeBody current, .getOptions current, .getOptionsRaise current,
    .checkSizeTooLong current ‹_›, .checkSizeFits current ‹_›, .errorPostMutex current,
    .errorPostLease current, .postWorker current, .postMutex current,
    .waitSync current ‹_›, .waitSyncInterrupted current ‹_›,
    .readResponseSegment current ‹_›, .readResponse current (by simpa using guard),
    .mapSegment current, .mapSegmentRaise current, .postLease current]

theorem WorkerTransition.of_workerStep {P : Protocol σ} {s t : State n σ} {move : Move}
    (stepped : workerStep P s move = some t) : WorkerTransition P s move t := by
  unfold workerStep at stepped
  split at stepped
  next current => split_ifs at stepped; cases stepped; exact .waitWorker current ‹_›
  next current => split_ifs at stepped; cases stepped; exact .waitWorkerInterrupted current ‹_›
  next current => cases stepped; exact .copyOut current
  next current =>
    split_ifs at stepped with terminate <;> cases stepped
    · exact .postFullTerminate current terminate
    · exact .postFull current terminate
  next current =>
    split at stepped <;> cases stepped
    · exact .dispatchRaise current ‹_›
    · exact .dispatch current ‹_›
  next current => cases stepped; exact .postSync current
  next => cases stepped

theorem StarterTransition.of_starterStep {P : Protocol σ} {s t : State n σ} {move : Move}
    (stepped : starterStep P s move = some t) : StarterTransition P s move t := by
  unfold starterStep at stepped
  split at stepped
  next current => split_ifs at stepped; cases stepped; exact .waitAgent0 current ‹_›
  next current => split_ifs at stepped; cases stepped; exact .waitAgent0Interrupted current ‹_›
  next current => cases stepped; exact .startWorker current
  next current => cases stepped; exact .setCreated current
  next current => cases stepped; exact .postAgent1 current
  next => cases stepped

theorem Transition.of_step {P : Protocol σ} {s t : State n σ} {action : Action n}
    (stepped : step P s action = some t) : Transition P s action t := by
  cases action with
  | client c move => exact .client (.of_clientStep stepped)
  | kvWorker move => exact .kvWorker (.of_workerStep stepped)
  | starter move => exact .starter (.of_starterStep stepped)

theorem ClientTransition.clientStep_eq {P : Protocol σ} {s t : State n σ} {c : Fin n}
    {move : Move} (tr : ClientTransition P s c move t) : clientStep P s c move = some t := by
  cases tr <;> unfold clientStep <;> simp_all

theorem WorkerTransition.workerStep_eq {P : Protocol σ} {s t : State n σ} {move : Move}
    (tr : WorkerTransition P s move t) : workerStep P s move = some t := by
  cases tr <;> unfold workerStep <;> simp_all

theorem StarterTransition.starterStep_eq {P : Protocol σ} {s t : State n σ} {move : Move}
    (tr : StarterTransition P s move t) : starterStep P s move = some t := by
  cases tr <;> unfold starterStep <;> simp_all

theorem Transition.step_eq {P : Protocol σ} {s t : State n σ} {action : Action n}
    (tr : Transition P s action t) : step P s action = some t := by
  cases tr with
  | client tr => exact tr.clientStep_eq
  | kvWorker tr => exact tr.workerStep_eq
  | starter tr => exact tr.starterStep_eq

theorem ClientTransition.anyStep {P : Protocol σ} {s t : State n σ} {c : Fin n} {move : Move}
    (tr : ClientTransition P s c move t) : AnyStep P s t :=
  ⟨.client c move, tr.clientStep_eq⟩

theorem WorkerTransition.anyStep {P : Protocol σ} {s t : State n σ} {move : Move}
    (tr : WorkerTransition P s move t) : AnyStep P s t :=
  ⟨.kvWorker move, tr.workerStep_eq⟩

theorem step_eq_some_iff {P : Protocol σ} {s t : State n σ} {action : Action n} :
    step P s action = some t ↔ Transition P s action t :=
  ⟨Transition.of_step, Transition.step_eq⟩

/-! ## Runs -/

section Runs

variable {P : Protocol σ} {pids : Fin n → Nat}

/-- Whatever holds initially and after every step without an interrupted wait holds in
every state such a run reaches. -/
theorem Reachable.induction {motive : State n σ → Prop} (initial : motive (State.init P pids))
    (preserved : ∀ {s t : State n σ} {action : Action n}, Reachable P pids s → motive s →
      Transition P s action t → action.interrupts = false → motive t)
    {s : State n σ} (reachable : Reachable P pids s) : motive s := by
  induction reachable with
  | refl => exact initial
  | tail earlier last ih =>
      obtain ⟨action, calm, stepped⟩ := last
      exact preserved earlier ih (.of_step stepped) calm

/-- The same for runs that also raise no error. -/
theorem NormalReachable.induction {motive : State n σ → Prop}
    (initial : motive (State.init P pids))
    (preserved : ∀ {s t : State n σ} {action : Action n}, NormalReachable P pids s → motive s →
      Transition P s action t → action.interrupts = false → action.raises P s = false →
      motive t)
    {s : State n σ} (reachable : NormalReachable P pids s) : motive s := by
  induction reachable with
  | refl => exact initial
  | tail earlier last ih =>
      obtain ⟨action, calm, normal, stepped⟩ := last
      exact preserved earlier ih (.of_step stepped) calm normal

theorem NormalReachable.reachable {s : State n σ} (reachable : NormalReachable P pids s) :
    Reachable P pids s :=
  reachable.mono fun _ _ ⟨action, calm, _, stepped⟩ => ⟨action, calm, stepped⟩

/-- The state reached by taking the actions in order, as long as `allowed` admits each of
them in the state where it is taken and `step` can take it. -/
def runWith (allowed : State n σ → Action n → Bool) (P : Protocol σ) (s : State n σ) :
    List (Action n) → Option (State n σ)
  | [] => some s
  | action :: rest =>
      if allowed s action then (step P s action).bind fun t => runWith allowed P t rest
      else none

theorem runWith_append (allowed : State n σ → Action n → Bool) (P : Protocol σ)
    (first second : List (Action n)) (s : State n σ) :
    runWith allowed P s (first ++ second) =
      (runWith allowed P s first).bind fun t => runWith allowed P t second := by
  induction first generalizing s with
  | nil => rfl
  | cons action rest ih =>
      simp only [List.cons_append, runWith]
      split
      · cases step P s action <;> simp [ih]
      · rfl

theorem runWith_reflTransGen {allowed : State n σ → Action n → Bool}
    {R : State n σ → State n σ → Prop}
    (sound : ∀ {s t : State n σ} {action : Action n}, allowed s action = true →
      step P s action = some t → R s t) :
    ∀ {actions : List (Action n)} {s t : State n σ}, runWith allowed P s actions = some t →
      Relation.ReflTransGen R s t
  | [], _, _, ran => by cases ran; exact .refl
  | action :: rest, s, t, ran => by
      simp only [runWith] at ran
      split at ran
      · obtain ⟨u, stepped, ran⟩ := Option.bind_eq_some.mp ran
        exact .head (sound ‹_› stepped) (runWith_reflTransGen sound ran)
      · cases ran

/-- The actions a run without interrupted waits and without errors may take. -/
def Action.normal (P : Protocol σ) (s : State n σ) (action : Action n) : Bool :=
  !action.interrupts && !action.raises P s

theorem NormalReachable.of_run (actions : List (Action n)) {s : State n σ}
    (ran : runWith (Action.normal P) P (State.init P pids) actions = some s) :
    NormalReachable P pids s :=
  runWith_reflTransGen (fun {s t action} normal stepped => ⟨action,
    by simp_all [Action.normal], by simp_all [Action.normal], stepped⟩) ran

theorem NormalReachable.of_isSome (actions : List (Action n))
    (ran : (runWith (Action.normal P) P (State.init P pids) actions).isSome) :
    NormalReachable P pids ((runWith (Action.normal P) P (State.init P pids) actions).get ran) :=
  .of_run actions (Option.some_get ran).symm

theorem step_of_run (actions : List (Action n)) {s t : State n σ}
    (ran : runWith (fun _ action => !action.interrupts) P s actions = some t) :
    Relation.ReflTransGen (Step P) s t :=
  runWith_reflTransGen (fun calm stepped => ⟨_, by simpa using calm, stepped⟩) ran

theorem anyStep_of_run (actions : List (Action n)) {s t : State n σ}
    (ran : runWith (fun _ _ => true) P s actions = some t) :
    Relation.ReflTransGen (AnyStep P) s t :=
  runWith_reflTransGen (fun _ stepped => ⟨_, stepped⟩) ran

/-- Client `c` of a fresh system opening relation 0 at `path`: the start handshake with
`KVStorageThreadFun`, the frame and `KVGetOptions`, the worker serving the command, and
the release of the slot. After its first fourteen steps the client is about to post
`worker`. -/
def openScript (c : Fin n) (path : List UInt8) : List (Action n) :=
  [.client c (.invoke (.openRequest 0 false 0)), .client c .proceed, .client c .proceed,
    .client c .proceed, .starter .proceed, .starter .proceed, .starter .proceed,
    .starter .proceed, .client c .proceed, .client c .proceed, .client c .proceed,
    .client c .proceed, .client c .proceed, .client c (.options path), .client c .proceed,
    .client c .proceed, .kvWorker .proceed, .kvWorker .proceed, .kvWorker .proceed,
    .kvWorker .proceed, .kvWorker .proceed, .client c .proceed, .client c .proceed]

end Runs

end KvFdw.Shm

import KvFdw.Shm.Delivery

/-!
# Freedom from deadlock

In a run without interrupted waits or errors some party can always move an unfinished
request on, and the worker answers a posted command on its own.
-/

set_option autoImplicit false

namespace KvFdw.Shm

variable {n : Nat} {σ : Type}

/-- The decision an action makes. -/
def Action.move : Action n → Move
  | .client _ move | .kvWorker move | .starter move => move

/-- An action that moves an unfinished request on: a step of the worker, of the start
thread, or of a client in the middle of a call that does not spin in
`GetResponseQueueIndex` on a taken slot, none of them raising or interrupted. -/
def Action.Advances (s : State n σ) (action : Action n) : Prop :=
  action.move ≠ .raise ∧ action.move ≠ .interrupt ∧
    match action with
    | .client c _ =>
        (s.clients c).phase ≠ .idle ∧
          ∀ slot, (s.clients c).phase = .lease slot → 0 < s.responseMutex slot
    | _ => True

/-- What a client waits for when it cannot advance. -/
def Phase.Blocked (s : State n σ) : Phase → Prop
  | .waitMutex => s.mutex = 0
  | .waitAgent1 => s.agent1 = 0
  | .waitFull => s.full = 0
  | .lease slot => s.responseMutex slot = 0
  | .waitSync slot => s.responseSync slot = 0
  | _ => False

section Enabled

variable (P : Protocol σ) (s : State n σ)

theorem client_advances_or_blocked (c : Fin n) (active : (s.clients c).phase ≠ .idle) :
    (∃ move, (Action.client c move).Advances s ∧ (clientStep P s c move).isSome) ∨
      (s.clients c).phase.Blocked s := by
  have advances : ∀ move, move ≠ .raise → move ≠ .interrupt →
      (∀ slot, (s.clients c).phase = .lease slot → 0 < s.responseMutex slot) →
      (Action.client c move).Advances s :=
    fun move raise interrupt lease => ⟨raise, interrupt, active, lease⟩
  have other : ∀ phase : Phase, (∀ slot, phase ≠ .lease slot) → (s.clients c).phase = phase →
      ∀ slot, (s.clients c).phase = .lease slot → 0 < s.responseMutex slot :=
    fun phase notLease current slot leasing => absurd (current.symm.trans leasing) (notLease slot)
  have proceeds : (∀ slot, (s.clients c).phase ≠ .lease slot) →
      (clientStep P s c .proceed).isSome →
      (∃ move, (Action.client c move).Advances s ∧ (clientStep P s c move).isSome) :=
    fun notLease stepped => ⟨.proceed, advances _ nofun nofun
      (fun slot leasing => absurd leasing (notLease slot)), stepped⟩
  cases current : (s.clients c).phase with
  | idle => exact absurd current active
  | waitMutex =>
      by_cases free : s.mutex = 0
      · exact .inr free
      · exact .inl (proceeds (by simp [current]) (by
          unfold clientStep; simp [current, Nat.pos_of_ne_zero free]))
  | waitAgent1 =>
      by_cases free : s.agent1 = 0
      · exact .inr free
      · exact .inl (proceeds (by simp [current]) (by
          unfold clientStep; simp [current, Nat.pos_of_ne_zero free]))
  | waitFull =>
      by_cases free : s.full = 0
      · exact .inr free
      · exact .inl (proceeds (by simp [current]) (by
          unfold clientStep; simp [current, Nat.pos_of_ne_zero free]))
  | waitSync slot =>
      by_cases free : s.responseSync slot = 0
      · exact .inr free
      · exact .inl (proceeds (by simp [current]) (by
          unfold clientStep; simp [current, Nat.pos_of_ne_zero free]))
  | lease slot =>
      by_cases free : s.responseMutex slot = 0
      · exact .inr free
      · refine .inl ⟨.proceed, advances _ nofun nofun fun other leasing => ?_, ?_⟩
        · rw [current] at leasing; cases leasing; exact Nat.pos_of_ne_zero free
        · unfold clientStep; simp [current, Nat.pos_of_ne_zero free]
  | getOptions slot =>
      exact .inl ⟨.options [], advances _ nofun nofun (by simp [current]),
        by unfold clientStep; simp [current]⟩
  | checkCreated | readResponse =>
      exact .inl (proceeds (by simp [current]) (by unfold clientStep; simp only [current]; split <;> rfl))
  | checkSize =>
      exact .inl (proceeds (by simp [current]) (by unfold clientStep; simp only [current]; split <;> rfl))
  | _ => exact .inl (proceeds (by simp [current]) (by unfold clientStep; simp [current]))

theorem worker_advances_or_blocked :
    (∃ move, (Action.kvWorker (n := n) move).Advances s ∧ (workerStep P s move).isSome) ∨
      s.kvWorker = .notStarted ∨ (s.kvWorker = .waitWorker ∧ s.worker = 0) ∨
      s.kvWorker = .exited := by
  have proceeds : (workerStep P s .proceed).isSome →
      ∃ move, (Action.kvWorker (n := n) move).Advances s ∧ (workerStep P s move).isSome :=
    fun stepped => ⟨.proceed, ⟨nofun, nofun, trivial⟩, stepped⟩
  cases current : s.kvWorker with
  | notStarted => exact .inr (.inl rfl)
  | exited => exact .inr (.inr (.inr rfl))
  | waitWorker =>
      by_cases free : s.worker = 0
      · exact .inr (.inr (.inl ⟨rfl, free⟩))
      · exact .inl (proceeds (by simp [workerStep, current, Nat.pos_of_ne_zero free]))
  | dispatch =>
      exact .inl (proceeds (by simp only [workerStep, current]; split <;> rfl))
  | postFull =>
      exact .inl (proceeds (by simp only [workerStep, current]; split <;> rfl))
  | _ => exact .inl (proceeds (by simp [workerStep, current]))

theorem starter_advances_or_blocked :
    (∃ move, (Action.starter (n := n) move).Advances s ∧ (starterStep P s move).isSome) ∨
      (s.starter = .waitAgent0 ∧ s.agent0 = 0) := by
  have proceeds : (starterStep P s .proceed).isSome →
      ∃ move, (Action.starter (n := n) move).Advances s ∧ (starterStep P s move).isSome :=
    fun stepped => ⟨.proceed, ⟨nofun, nofun, trivial⟩, stepped⟩
  cases current : s.starter with
  | waitAgent0 =>
      by_cases free : s.agent0 = 0
      · exact .inr ⟨rfl, free⟩
      · exact .inl (proceeds (by simp [starterStep, current, Nat.pos_of_ne_zero free]))
  | _ => exact .inl (proceeds (by simp [starterStep, current]))

end Enabled

section Runs

variable {P : Protocol σ} {pids : Fin n → Nat} {s : State n σ}

theorem NormalReachable.kvWorker_ne_exited (reachable : NormalReachable P pids s) :
    s.kvWorker ≠ .exited := by
  refine reachable.induction (motive := fun s => s.kvWorker ≠ .exited)
    (by simp [State.init]) ?_
  intro s t action earlier running tr _ normal
  cases tr with
  | client tr => rw [tr.worker_frame.2.2.2.1]; exact running
  | kvWorker tr =>
      have ledger := earlier.reachable.ledger
      cases tr with
      | dispatchRaise current raised =>
          simp [Action.raises, current, raised] at normal
      | postFullTerminate current terminate =>
          obtain ⟨frame, _, found, -, func, -⟩ := current ▸ ledger.serves
          exact absurd (func ▸ terminate) (ledger.framed frame (List.getElem?_mem found)).2
      | postSync current =>
          obtain ⟨_, -, -, rfl⟩ := current ▸ ledger.serves
          simp
      | _ => simp [copyOutOf]
  | starter tr =>
      cases tr <;> try exact running
      show (if s.kvWorker.alive then s.kvWorker else .waitWorker) ≠ _
      split
      · exact running
      · nofun

theorem exists_of_countClients_pos (clients : Fin n → Client) (weight : Phase → Nat)
    (positive : 0 < countClients clients weight) : ∃ c, 0 < weight (clients c).phase := by
  by_contra none
  push_neg at none
  have : countClients clients weight = 0 := countClients_eq_zero fun c =>
    Nat.le_zero.mp (none c)
  omega

/-- A client cannot wait forever on `responseSync` while the worker waits on `worker`:
its command has been posted, so the worker has answered it. -/
theorem Reachable.waitSync_answered (reachable : Reachable P pids s) {c : Fin n} {slot : Nat}
    (waiting : (s.clients c).phase = .waitSync slot) (idle : s.kvWorker = .notStarted ∨
      (s.kvWorker = .waitWorker ∧ s.worker = 0)) : 0 < s.responseSync slot := by
  have ledger := reachable.ledger
  have delivery := reachable.delivery
  have posted := delivery.ticket_lt (c := c) (by rw [waiting]; rfl)
  have sync := delivery.sync c slot (by rw [waiting]; rfl)
  have postedLength := ledger.posted_length
  have progress := ledger.progress
  rcases idle with unstarted | ⟨current, noWork⟩
  · rw [ledger.unstarted unstarted] at posted; simp at posted
  · rw [current] at postedLength progress
    simp only [WorkerPhase.pendingCopy, WorkerPhase.Progress] at postedLength progress
    rw [sync, if_pos (by omega)]
    exact Nat.one_pos

theorem Phase.hasPosted_of_leased {phase : Phase} {slot : Nat}
    (leased : phase.leaseSlot = some slot) (noMutex : phase.mutexHeld = 0)
    (noSlot : phase.fullHeld = 0) : phase.hasPosted = true := by
  cases phase <;> simp_all [Phase.leaseSlot, Phase.mutexHeld, Phase.fullHeld, Phase.hasPosted]

theorem Reachable.spinner_leases_copied (reachable : Reachable P pids s) {c : Fin n}
    {slot : Nat} (spinning : (s.clients c).phase = .lease slot) {d : Fin n} {leased : Nat}
    (holds : (s.clients d).phase.leaseSlot = some leased) :
    (s.clients d).phase.hasPosted = true ∧ (s.clients d).ticket < s.copied.length := by
  have mutexC : (s.clients c).phase.mutexHeld = 1 := by rw [spinning]; rfl
  have fullC : (s.clients c).phase.fullHeld = 1 := by rw [spinning]; rfl
  have other : d ≠ c := by rintro rfl; rw [spinning] at holds; cases holds
  have noMutex : (s.clients d).phase.mutexHeld = 0 := by
    by_contra held
    exact other (reachable.mutex_holder_unique
      (by have := (s.clients d).phase.mutexHeld_le_one; omega) mutexC)
  have noSlot : (s.clients d).phase.fullHeld = 0 := by
    by_contra held
    exact other (reachable.full_holder_unique
      (by have := (s.clients d).phase.fullHeld_le_one; omega) fullC)
  have posted := Phase.hasPosted_of_leased holds noMutex noSlot
  refine ⟨posted, ?_⟩
  rw [← reachable.ledger.posted_length_of_holder reachable fullC]
  exact reachable.delivery.ticket_lt posted

/-- A state in which no party can advance: every client in a call waits on a semaphore,
the worker waits on `worker` or is not started, and the start thread waits on
`agent[0]`. -/
structure Stuck (s : State n σ) : Prop where
  clients : ∀ c, (s.clients c).phase ≠ .idle → (s.clients c).phase.Blocked s
  worker : s.kvWorker = .notStarted ∨ (s.kvWorker = .waitWorker ∧ s.worker = 0)
  starter : s.starter = .waitAgent0 ∧ s.agent0 = 0

theorem Phase.ne_idle_of_mutexHeld {phase : Phase} (holds : 0 < phase.mutexHeld) :
    phase ≠ .idle := by
  rintro rfl; simp [Phase.mutexHeld] at holds

theorem Phase.ne_idle_of_leased {phase : Phase} {slot : Nat}
    (leased : phase.leaseSlot = some slot) : phase ≠ .idle := by
  rintro rfl; simp [Phase.leaseSlot] at leased

theorem Phase.ne_idle_of_fullHeld {phase : Phase} (holds : 0 < phase.fullHeld) :
    phase ≠ .idle := by
  rintro rfl; simp [Phase.fullHeld] at holds

theorem Phase.Blocked.waitSync_of_leased {s : State n σ} {phase : Phase} {slot : Nat}
    (blocked : phase.Blocked s) (leased : phase.leaseSlot = some slot) :
    phase = .waitSync slot := by
  cases phase <;> simp_all [Phase.Blocked, Phase.leaseSlot]

theorem Phase.Blocked.lease_of_fullHeld {s : State n σ} {phase : Phase}
    (blocked : phase.Blocked s) (holds : 0 < phase.fullHeld) : ∃ slot, phase = .lease slot := by
  cases phase <;> simp_all [Phase.Blocked, Phase.fullHeld]

theorem NormalReachable.not_stuck (reachable : NormalReachable P pids s) (stuck : Stuck s)
    {c : Fin n} (active : (s.clients c).phase ≠ .idle) : False := by
  have reach := reachable.reachable
  obtain ⟨⟨mutexLE, fullLE, leaseLE⟩, ⟨mutexGE, fullGE, leaseGE⟩⟩ := reachable.tokensEq
  simp only [State.mutexTokens_init, State.fullTokens_init, State.leaseTokens_init] at *
  have answered : ∀ d slot, (s.clients d).phase = .waitSync slot → 0 < s.responseSync slot :=
    fun d slot waiting => reach.waitSync_answered waiting stuck.worker
  by_cases free : s.mutex = 0
  · obtain ⟨m, holdsM⟩ := exists_of_countClients_pos s.clients Phase.mutexHeld
      (by unfold State.mutexTokens at mutexLE mutexGE; omega)
    have blockedM := stuck.clients m (Phase.ne_idle_of_mutexHeld holdsM)
    cases current : (s.clients m).phase <;>
      simp only [current, Phase.Blocked, Phase.mutexHeld] at blockedM holdsM <;>
      (try omega)
    next =>
      -- `agent[1]`: the start thread holds no token of the handshake, yet `m` waits on it
      have agents := reach.startInvariant.agentTokens_eq
      have waiting := le_countClients s.clients m Phase.awaitsAgent
      simp only [current, Phase.awaitsAgent, State.agentTokens, stuck.starter.1,
        stuck.starter.2, StarterPhase.busy] at agents waiting
      omega
    next =>
      -- `full`: the command slot's token is with nobody who could pass it on
      have noCopy : s.kvWorker.copying = 0 := by
        rcases stuck.worker with current | ⟨current, -⟩ <;> simp [current, WorkerPhase.copying]
      have noWork : s.worker = 0 := by
        rcases stuck.worker with unstarted | ⟨-, noWork⟩
        · have := reach.ledger.posted_length
          rw [reach.ledger.unstarted unstarted] at this
          simp at this; omega
        · exact noWork
      obtain ⟨d, holdsD⟩ := exists_of_countClients_pos s.clients Phase.fullHeld
        (by unfold State.fullTokens at fullLE fullGE; omega)
      obtain ⟨slot, spinning⟩ := (stuck.clients d (Phase.ne_idle_of_fullHeld holdsD)).lease_of_fullHeld
        holdsD
      have same := reach.mutex_holder_unique (c := d) (d := m) (by rw [spinning]; rfl)
        (by rw [current]; rfl)
      subst same
      rw [current] at spinning; cases spinning
    next slot =>
      -- a spin on a taken slot: its lease holder waits on an answered `responseSync`
      have inRange := (reach.wellFormed m).shaped
      rw [current] at inRange
      have tokens := leaseGE slot
      simp only [inRange.1, if_true, State.leaseTokens, blockedM] at tokens
      obtain ⟨d, holdsD⟩ := exists_of_countClients_pos s.clients (Phase.leaseHeld slot)
        (by omega)
      have leased : (s.clients d).phase.leaseSlot = some slot := by
        by_contra other; simp [Phase.leaseHeld, other] at holdsD
      have waiting := (stuck.clients d (Phase.ne_idle_of_leased leased)).waitSync_of_leased leased
      have blocked := stuck.clients d (Phase.ne_idle_of_leased leased)
      rw [waiting] at blocked
      exact absurd blocked (Nat.pos_iff_ne_zero.mp (answered d slot waiting))
  · have noHolder : countClients s.clients Phase.mutexHeld = 0 := by
      unfold State.mutexTokens at mutexLE; omega
    have blocked := stuck.clients c active
    have held := le_countClients s.clients c Phase.mutexHeld
    cases current : (s.clients c).phase <;>
      simp only [current, Phase.Blocked, Phase.mutexHeld] at blocked held <;>
      (try omega)
    next slot => exact absurd blocked (Nat.pos_iff_ne_zero.mp (answered c slot current))

/-- In every run without interrupted waits and without errors, while a request is
unfinished the worker, the start thread or a client not spinning on a taken slot can
take a step; and a client spinning in `GetResponseQueueIndex` waits only for leases of
requests whose commands the worker has already copied out. -/
theorem deadlock_free (reachable : NormalReachable P pids s) :
    ((∃ c, (s.clients c).phase ≠ .idle) →
      ∃ action : Action n, action.Advances s ∧ (step P s action).isSome) ∧
    (∀ c slot, (s.clients c).phase = .lease slot → ∀ d leased,
      (s.clients d).phase.leaseSlot = some leased →
        (s.clients d).phase.hasPosted = true ∧ (s.clients d).ticket < s.copied.length) := by
  refine ⟨fun ⟨c, active⟩ => ?_, fun c slot spinning d leased holds =>
    reachable.reachable.spinner_leases_copied spinning holds⟩
  by_contra none
  push_neg at none
  refine reachable.not_stuck ⟨fun d active => ?_, ?_, ?_⟩ active
  · exact (client_advances_or_blocked P s d active).resolve_left
      fun ⟨move, advances, stepped⟩ => none _ advances stepped
  · rcases worker_advances_or_blocked P s with ⟨move, advances, stepped⟩ | idle | idle | exited
    · exact absurd stepped (none _ advances)
    · exact .inl idle
    · exact .inr idle
    · exact absurd exited reachable.kvWorker_ne_exited
  · exact (starter_advances_or_blocked P s).resolve_left
      fun ⟨move, advances, stepped⟩ => none _ advances stepped

/-- Two backends on one response slot: while the second spins for the slot, the first
holds it for a command the worker has copied out, and some party can still move on. -/
theorem deadlock_free_on_one_slot :
    ∃ s : State 2 Unit, NormalReachable Protocol.echo (fun _ => 7) s ∧
      (s.clients 1).phase = .lease 0 ∧ (s.clients 0).phase.leaseSlot = some 0 ∧
      (s.clients 0).ticket < s.copied.length ∧
      ∃ action : Action 2, action.Advances s ∧ (step Protocol.echo s action).isSome :=
  have reachable : NormalReachable Protocol.echo (fun _ : Fin 2 => 7) _ :=
    .of_isSome (openScript 0 [47, 107, 118] ++ .client 0 (.invoke (.countRequest 0)) ::
      List.replicate 7 (.client 0 .proceed) ++ List.replicate 3 (.kvWorker .proceed) ++
      .client 1 (.invoke (.openRequest 1 false 0)) :: List.replicate 4 (.client 1 .proceed))
      (by decide)
  ⟨_, reachable, by decide, by decide,
    ((deadlock_free reachable).2 1 0 (by decide) 0 0 (by decide)).2,
    (deadlock_free reachable).1 ⟨1, by decide⟩⟩

end Runs

/-! ## The worker answers unaided

`KVWorkerMain` waits only on `worker`, and every posted command leaves a token there. So
while a command is unanswered, the worker answers it within five of its own steps, or a
handler raises and the worker exits; no client needs to move (`worker_answers_unaided`).
-/

section Unaided

variable {P : Protocol σ} {pids : Fin n → Nat} {s t : State n σ} {bound : Nat}

/-- Within `bound` of its own steps, none interrupted, the worker records a response or
exits. -/
def AnswersWithin (P : Protocol σ) (bound : Nat) (s : State n σ) : Prop :=
  ∃ steps ≤ bound, ∃ u, runWith (fun _ action => !action.interrupts) P s
    (List.replicate steps (.kvWorker .proceed)) = some u ∧
      (s.responses.length < u.responses.length ∨ u.kvWorker = .exited)

theorem runWith_kvWorker_cons (rest : List (Action n)) :
    runWith (fun _ action => !action.interrupts) P s (.kvWorker .proceed :: rest) =
      (workerStep P s .proceed).bind fun t => runWith (fun _ action => !action.interrupts) P t rest :=
  rfl

theorem AnswersWithin.mono (answers : AnswersWithin P bound s) {more : Nat} (le : bound ≤ more) :
    AnswersWithin P more s :=
  let ⟨steps, fewer, rest⟩ := answers
  ⟨steps, fewer.trans le, rest⟩

theorem AnswersWithin.answered (stepped : workerStep P s .proceed = some t)
    (answered : s.responses.length < t.responses.length ∨ t.kvWorker = .exited) :
    AnswersWithin P 1 s :=
  ⟨1, le_rfl, t, by rw [List.replicate_one, runWith_kvWorker_cons, stepped]; rfl, answered⟩

theorem AnswersWithin.later (stepped : workerStep P s .proceed = some t)
    (same : t.responses = s.responses) (later : AnswersWithin P bound t) :
    AnswersWithin P (bound + 1) s :=
  let ⟨steps, fewer, u, ran, answered⟩ := later
  ⟨steps + 1, by omega, u,
    by rw [List.replicate_succ, runWith_kvWorker_cons, stepped, Option.some_bind, ran],
    same ▸ answered⟩

theorem AnswersWithin.of_dispatch {func responseId : Nat} {buf : List UInt8}
    (current : s.kvWorker = .dispatch func responseId buf) : AnswersWithin P 1 s := by
  cases handled : P.dispatch s.store func buf with
  | none =>
      exact .answered (t := { s with kvWorker := .exited })
        (by simp [workerStep, current, handled]) (.inr rfl)
  | some result =>
      exact .answered (t := { s with
          store := result.1, responseQueue := writeSlot P.toShmConfig s.responseQueue responseId result.2,
          responses := s.responses ++ [result.2], kvWorker := .postSync responseId false })
        (by simp [workerStep, current, handled]) (.inl (by simp))

theorem AnswersWithin.of_postFull {func responseId : Nat} {buf : List UInt8}
    (current : s.kvWorker = .postFull func responseId buf) : AnswersWithin P 2 s := by
  by_cases terminate : func = FuncName.TERMINATE.code
  · exact (AnswersWithin.answered
      (t := { s with
        full := s.full + 1, kvWorker := .postSync responseId true, responses := s.responses ++ [[]] })
      (by simp [workerStep, current, terminate]) (.inl (by simp))).mono (by omega)
  · exact .later (t := { s with full := s.full + 1, kvWorker := .dispatch func responseId buf })
      (by simp [workerStep, current, terminate]) rfl (.of_dispatch rfl)

theorem AnswersWithin.of_copyOut (current : s.kvWorker = .copyOut) : AnswersWithin P 3 s :=
  .later
    (t := { s with
      kvWorker := copyOutOf P.toShmConfig s.area, copied := s.copied ++ [s.area.read 0 P.bufSize] })
    (by simp [workerStep, current]) rfl (.of_postFull rfl)

theorem AnswersWithin.of_waitWorker (current : s.kvWorker = .waitWorker) (token : 0 < s.worker) :
    AnswersWithin P 4 s :=
  .later (t := { s with worker := s.worker - 1, kvWorker := .copyOut })
    (by simp [workerStep, current, token]) rfl (.of_copyOut rfl)

/-- The worker answers without help: in every run, while a posted command is unanswered,
at most five of the worker's own steps either record a response or end with the worker
exited, its handler having raised. -/
theorem worker_answers_unaided (reachable : Reachable P pids s)
    (pending : s.responses.length < s.posted.length) :
    ∃ steps ≤ 5, ∃ u, runWith (fun _ action => !action.interrupts) P s
      (List.replicate steps (.kvWorker .proceed)) = some u ∧
        (s.responses.length < u.responses.length ∨ u.kvWorker = .exited) := by
  have ledger := reachable.ledger
  have posted := ledger.posted_length
  have progress := ledger.progress
  cases current : s.kvWorker with
  | notStarted => simp [ledger.unstarted current] at pending
  | exited => exact ⟨0, by omega, s, rfl, .inr current⟩
  | waitWorker =>
      rw [current] at progress posted
      exact (AnswersWithin.of_waitWorker current
        (by simp only [WorkerPhase.pendingCopy, WorkerPhase.Progress] at posted progress; omega)).mono
          (by omega)
  | copyOut => exact (AnswersWithin.of_copyOut current).mono (by omega)
  | postFull => exact (AnswersWithin.of_postFull current).mono (by omega)
  | dispatch => exact (AnswersWithin.of_dispatch current).mono (by omega)
  | postSync responseId terminating =>
      rw [current] at progress posted
      cases terminating with
      | true =>
          exact (AnswersWithin.answered
            (t := { s with
              responseSync := postAt s.responseSync responseId, synced := s.synced + 1
              kvWorker := .exited })
            (by simp [workerStep, current]) (.inr rfl)).mono (by omega)
      | false =>
          exact AnswersWithin.later
            (t := { s with
              responseSync := postAt s.responseSync responseId, synced := s.synced + 1
              kvWorker := .waitWorker })
            (by simp [workerStep, current]) rfl (.of_waitWorker rfl
              (by simp only [WorkerPhase.pendingCopy, WorkerPhase.Progress] at posted progress ⊢; omega))

set_option maxRecDepth 8000 in
/-- A backend has posted its OPEN, which the worker has not answered yet: the worker
answers it within five of its own steps. -/
theorem open_posted_answered : ∃ s : State 1 Unit, Reachable Protocol.echo (fun _ => 7) s ∧
    s.responses.length < s.posted.length ∧
    ∃ steps ≤ 5, ∃ u, runWith (fun _ action => !action.interrupts) Protocol.echo s
      (List.replicate steps (.kvWorker .proceed)) = some u ∧
        (s.responses.length < u.responses.length ∨ u.kvWorker = .exited) := by
  obtain ⟨s, ran⟩ := Option.isSome_iff_exists.mp (show (runWith (Action.normal Protocol.echo)
      Protocol.echo (State.init Protocol.echo fun (_ : Fin 1) => 7)
      ((openScript 0 [47, 107, 118]).take 16)).isSome by decide)
  have pending : decide (s.responses.length < s.posted.length) = true := by
    have mapped := congrArg (Option.map fun (s : State 1 Unit) =>
      decide (s.responses.length < s.posted.length)) ran
    rw [Option.map_some'] at mapped
    exact Option.some_injective _ (mapped.symm.trans (by decide))
  have reachable := (NormalReachable.of_run _ ran).reachable
  exact ⟨s, reachable, of_decide_eq_true pending,
    worker_answers_unaided reachable (of_decide_eq_true pending)⟩

end Unaided

end KvFdw.Shm

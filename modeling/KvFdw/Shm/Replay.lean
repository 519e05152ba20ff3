import KvFdw.Shm.Results

/-!
# The worker's state as a replay

However the clients interleave, the worker's state is its handlers applied to the posted
commands in posting order.
-/

set_option autoImplicit false

namespace KvFdw.Shm

variable {n : Nat} {σ : Type}

/-! ## Replaying the handled commands -/

/-- The worker's handlers run one after another on posted commands, each paired with the
worker's copy of it: `dispatch` on the command's `func` and on the `buf` of the copy;
`none` once a handler raises an error. -/
def Protocol.replay (P : Protocol σ) (store : σ) : List (List UInt8 × List UInt8) → Option σ
  | [] => some store
  | (frame, snapshot) :: rest =>
      (P.dispatch store (frameFunc frame) (handlerBuf P.toShmConfig snapshot)).bind
        fun handled => P.replay handled.1 rest

theorem Protocol.replay_append (P : Protocol σ) (store : σ)
    (done later : List (List UInt8 × List UInt8)) :
    P.replay store (done ++ later) = (P.replay store done).bind fun middle => P.replay middle later := by
  induction done generalizing store with
  | nil => rfl
  | cons command done ih =>
      obtain ⟨frame, snapshot⟩ := command
      simp only [List.cons_append, Protocol.replay, Option.bind_assoc, List.append_eq, ih]

/-- The replay with what each handler wrote to its response slot. -/
def Protocol.replayAnswers (P : Protocol σ) (store : σ) :
    List (List UInt8 × List UInt8) → Option (σ × List (List UInt8))
  | [] => some (store, [])
  | (frame, snapshot) :: rest =>
      (P.dispatch store (frameFunc frame) (handlerBuf P.toShmConfig snapshot)).bind fun handled =>
        (P.replayAnswers handled.1 rest).map fun replayed => (replayed.1, handled.2 :: replayed.2)

theorem Protocol.replay_eq_map (P : Protocol σ) (store : σ)
    (commands : List (List UInt8 × List UInt8)) :
    P.replay store commands = (P.replayAnswers store commands).map Prod.fst := by
  induction commands generalizing store with
  | nil => rfl
  | cons command rest ih =>
      obtain ⟨frame, snapshot⟩ := command
      simp only [Protocol.replay, Protocol.replayAnswers, Option.map_bind, Function.comp_def,
        Option.map_map, ih]

theorem Protocol.replayAnswers_concat (P : Protocol σ) {frame snapshot response : List UInt8}
    {middle next : σ} (handled : P.dispatch middle (frameFunc frame)
      (handlerBuf P.toShmConfig snapshot) = some (next, response)) :
    ∀ {store : σ} {done : List (List UInt8 × List UInt8)} {answers : List (List UInt8)},
      P.replayAnswers store done = some (middle, answers) →
        P.replayAnswers store (done ++ [(frame, snapshot)]) = some (next, answers ++ [response])
  | _, [], _, replayed => by
      cases replayed
      simp [Protocol.replayAnswers, handled]
  | _, (_, _) :: _, _, replayed => by
      obtain ⟨⟨_, _⟩, dispatched, replayed⟩ := Option.bind_eq_some.mp replayed
      obtain ⟨⟨_, _⟩, ran, same⟩ := Option.map_eq_some'.mp replayed
      obtain ⟨rfl, rfl⟩ := Prod.mk.inj same
      simp [Protocol.replayAnswers, dispatched, P.replayAnswers_concat handled ran]

/-- Whatever every handler that returns keeps true holds after a replay. -/
theorem Protocol.replay_invariant (P : Protocol σ) {I : σ → Prop}
    (step : ∀ store func buf next response, I store →
      P.dispatch store func buf = some (next, response) → I next) :
    ∀ {store final : σ} {commands : List (List UInt8 × List UInt8)}, I store →
      P.replay store commands = some final → I final
  | _, _, [], holds, replayed => by cases replayed; exact holds
  | _, _, (_, _) :: _, holds, replayed => by
      obtain ⟨⟨next, response⟩, handled, replayed⟩ := Option.bind_eq_some.mp replayed
      exact P.replay_invariant step (step _ _ _ next response holds handled) replayed

/-- The commands the worker has handled, in order: each posted command with the worker's
copy of it, as far as the recorded responses go. -/
def State.handled (s : State n σ) : List (List UInt8 × List UInt8) :=
  (s.posted.take s.responses.length).zip (s.copied.take s.responses.length)

/-- The worker's state and its responses are its handlers' replay of the commands it
handled. -/
def Replayed (P : Protocol σ) (s : State n σ) : Prop :=
  P.replayAnswers P.initStore s.handled = some (s.store, s.responses)

section Preservation

variable {P : Protocol σ} {pids : Fin n → Nat} {s t : State n σ}

theorem State.handled_of_append (lengths : s.responses.length ≤ s.copied.length ∧
      s.copied.length ≤ s.posted.length)
    {postedMore copiedMore : List (List UInt8)} (responses : t.responses = s.responses)
    (posted : t.posted = s.posted ++ postedMore) (copied : t.copied = s.copied ++ copiedMore) :
    t.handled = s.handled := by
  rw [State.handled, State.handled, responses, posted, copied,
    List.take_append_of_le_length (by omega), List.take_append_of_le_length lengths.1]

theorem State.handled_getElem? {k : Nat} (answered : k < s.responses.length)
    {frame snapshot : List UInt8} (posted : s.posted[k]? = some frame)
    (copied : s.copied[k]? = some snapshot) : s.handled[k]? = some (frame, snapshot) :=
  List.getElem?_zip_eq_some.mpr
    ⟨by rwa [List.getElem?_take_of_lt answered], by rwa [List.getElem?_take_of_lt answered]⟩

theorem WorkerTransition.replayed (reachable : Reachable P pids s) (inv : Replayed P s)
    {move : Move} (tr : WorkerTransition P s move t) : Replayed P t := by
  have ledger := reachable.ledger
  have lengths := ledger.lengths
  cases tr with
  | copyOut =>
      show P.replayAnswers P.initStore ((s.posted.take s.responses.length).zip
        ((s.copied ++ [s.area.read 0 P.bufSize]).take s.responses.length)) =
          some (s.store, s.responses)
      rw [List.take_append_of_le_length lengths.2.1]
      exact inv
  | postFullTerminate current terminate =>
      obtain ⟨frame, _, found, -, func, -⟩ := current ▸ ledger.serves
      exact absurd (func ▸ terminate) (ledger.framed frame (List.getElem?_mem found)).2
  | @dispatch func responseId buf store response current handled =>
      have progress := ledger.progress
      have serves := ledger.serves
      rw [current] at progress serves
      obtain ⟨frame, snapshot, framed, snapped, rfl, -, rfl⟩ := serves
      obtain ⟨answered, synced⟩ := progress
      have taken : ∀ (log : List (List UInt8)) (entry : List UInt8),
          log[s.responses.length]? = some entry →
            log.take (s.responses ++ [response]).length = log.take s.responses.length ++ [entry] :=
        fun log entry found => by
          rw [List.length_append, List.length_singleton, List.take_succ, found, Option.toList_some]
      have sameLength : (s.posted.take s.responses.length).length =
          (s.copied.take s.responses.length).length := by
        simp only [List.length_take]; omega
      show P.replayAnswers P.initStore ((s.posted.take (s.responses ++ [response]).length).zip
        (s.copied.take (s.responses ++ [response]).length)) = some (store, s.responses ++ [response])
      rw [taken _ _ (synced ▸ framed), taken _ _ (synced ▸ snapped), List.zip_append sameLength]
      exact P.replayAnswers_concat handled inv
  | _ => exact inv

theorem Transition.replayed (reachable : Reachable P pids s) (inv : Replayed P s)
    {action : Action n} (tr : Transition P s action t) : Replayed P t := by
  have lengths := reachable.ledger.lengths
  cases tr with
  | client tr =>
      have copied : t.copied = s.copied := by cases tr <;> rfl
      have responses : t.responses = s.responses := by cases tr <;> rfl
      have store : t.store = s.store := by cases tr <;> rfl
      obtain ⟨more, posted⟩ : ∃ more, t.posted = s.posted ++ more := by
        rcases tr.posted_cases with ⟨posted, -⟩ | ⟨_, _, posted, -⟩
        · exact ⟨[], posted.trans (List.append_nil _).symm⟩
        · exact ⟨_, posted⟩
      rw [Replayed, State.handled_of_append lengths.2 responses posted
        (copied.trans (List.append_nil _).symm), store, responses]
      exact inv
  | kvWorker tr => exact tr.replayed reachable inv
  | starter tr =>
      cases tr with
      | startWorker current =>
          have started := reachable.unstarted_of_starting current
          have unposted := reachable.ledger.posted_length
          rw [reachable.ledger.unstarted started, List.length_nil] at unposted
          have unanswered : s.responses = [] := List.length_eq_zero.mp (by omega)
          show P.replayAnswers P.initStore s.handled =
            some (if s.kvWorker.alive then s.store else P.initStore, s.responses)
          simp [State.handled, unanswered, started, WorkerPhase.alive, Protocol.replayAnswers]
      | _ => exact inv

/-- In every run, the worker's state and responses are its handlers' replay of the
commands it handled, in the order they were posted. -/
theorem Reachable.replayedAnswers (reachable : Reachable P pids s) : Replayed P s :=
  reachable.induction (motive := Replayed P) rfl fun earlier inv tr _ => tr.replayed earlier inv

theorem Reachable.replayed (reachable : Reachable P pids s) :
    P.replay P.initStore s.handled = some s.store := by
  rw [P.replay_eq_map, reachable.replayedAnswers]
  rfl

/-- Whatever the handlers keep true from `KVWorkerMain`'s initial state holds of the
worker in every run. -/
theorem Reachable.store_invariant (reachable : Reachable P pids s) {I : σ → Prop}
    (initial : I P.initStore)
    (step : ∀ store func buf next response, I store →
      P.dispatch store func buf = some (next, response) → I next) : I s.store :=
  P.replay_invariant step initial reachable.replayed

/-- However the clients' steps interleave, in every run the worker's state is its
handlers run one after another on the commands posted, in the order they were posted,
each on the worker's own copy of it, as far as the recorded responses go. -/
theorem worker_state_replays_commands (reachable : Reachable P pids s) :
    P.replay P.initStore
      ((s.posted.take s.responses.length).zip (s.copied.take s.responses.length)) = some s.store :=
  reachable.replayed

/-- A backend opens a relation and counts its records: the worker has handled both
commands, and its state is their replay. -/
theorem open_count_replayed :
    ∃ s : State 1 Unit, Reachable Protocol.echo (fun _ => 7) s ∧ s.responses.length = 2 ∧
      Protocol.echo.replay Protocol.echo.initStore
        ((s.posted.take s.responses.length).zip (s.copied.take s.responses.length)) =
          some s.store := by
  obtain ⟨s, ran⟩ := Option.isSome_iff_exists.mp (show (runWith (Action.normal Protocol.echo)
      Protocol.echo (State.init Protocol.echo fun (_ : Fin 1) => 7)
      (openScript 0 [47, 107, 118] ++ Action.client 0 (Move.invoke (Call.countRequest 0)) ::
        List.replicate 7 (Action.client 0 Move.proceed) ++
          List.replicate 5 (Action.kvWorker Move.proceed))).isSome by decide)
  have answered : (s.responses.length == 2) = true := by
    have mapped := congrArg (Option.map fun (s : State 1 Unit) => s.responses.length == 2) ran
    rw [Option.map_some'] at mapped
    exact Option.some_injective _ (mapped.symm.trans (by decide))
  have reachable := (NormalReachable.of_run _ ran).reachable
  exact ⟨s, reachable, beq_iff_eq.mp answered, worker_state_replays_commands reachable⟩

end Preservation

/-! ## The commands the handlers took -/

/-- The command the handler `func` names decoded from the worker's copy of a posted
command; `none` where the switch has no handler for `func`. -/
def ShmConfig.handledCommand (C : ShmConfig) (handled : List UInt8 × List UInt8) :
    Option Command :=
  (FuncName.ofCode (frameFunc handled.1)).bind fun name => name.decode (handlerBuf C handled.2)

/-- The handlers run one after another on the commands they decoded. -/
def Handlers.run (handlers : Handlers σ) (store : σ) : List Command → Option σ
  | [] => some store
  | command :: rest => (handlers.respond store command).bind fun handled => handlers.run handled.1 rest

/-- The run with what each handler wrote to its response slot. -/
def Handlers.runAnswers (handlers : Handlers σ) (store : σ) :
    List Command → Option (σ × List (List UInt8))
  | [] => some (store, [])
  | command :: rest => (handlers.respond store command).bind fun handled =>
      (handlers.runAnswers handled.1 rest).map fun ran => (ran.1, handled.2 :: ran.2)

theorem Handlers.run_eq_map (handlers : Handlers σ) (store : σ) (commands : List Command) :
    handlers.run store commands = (handlers.runAnswers store commands).map Prod.fst := by
  induction commands generalizing store with
  | nil => rfl
  | cons command rest ih =>
      simp only [Handlers.run, Handlers.runAnswers, Option.map_bind, Function.comp_def,
        Option.map_map, ih]

theorem Handlers.runAnswers_at (handlers : Handlers σ) {I : List Command → σ → Prop}
    (step : ∀ done store command next response, I done store →
      handlers.respond store command = some (next, response) → I (done ++ [command]) next) :
    ∀ {store final : σ} {done commands : List Command} {answers : List (List UInt8)},
      handlers.runAnswers store commands = some (final, answers) → I done store →
        ∀ (k : Nat) (command : Command), commands[k]? = some command →
          ∃ before next response, I (done ++ commands.take k) before ∧
            handlers.respond before command = some (next, response) ∧ answers[k]? = some response
  | _, _, _, [], _, _, _, _, _, found => by simp at found
  | store, _, _, _ :: _, _, ran, holds, k, command, found => by
      obtain ⟨⟨next, response⟩, handled, ran⟩ := Option.bind_eq_some.mp ran
      obtain ⟨⟨_, _⟩, rest, same⟩ := Option.map_eq_some'.mp ran
      obtain ⟨rfl, rfl⟩ := Prod.mk.inj same
      cases k with
      | zero =>
          rw [List.getElem?_cons_zero, Option.some_inj] at found
          subst found
          exact ⟨store, next, response, by simpa using holds, handled, List.getElem?_cons_zero⟩
      | succ k =>
          rw [List.getElem?_cons_succ] at found
          rw [List.take_succ_cons, List.append_cons, List.getElem?_cons_succ]
          exact handlers.runAnswers_at step rest (step _ _ _ _ _ holds handled) k command found

theorem Handlers.runAnswers_end (handlers : Handlers σ) {I : List Command → σ → Prop}
    (step : ∀ done store command next response, I done store →
      handlers.respond store command = some (next, response) → I (done ++ [command]) next) :
    ∀ {store final : σ} {done commands : List Command} {answers : List (List UInt8)},
      handlers.runAnswers store commands = some (final, answers) → I done store →
        I (done ++ commands) final
  | _, _, _, [], _, ran, holds => by
      cases ran
      simpa using holds
  | _, _, _, _ :: _, _, ran, holds => by
      obtain ⟨⟨next, response⟩, handled, ran⟩ := Option.bind_eq_some.mp ran
      obtain ⟨⟨_, _⟩, rest, same⟩ := Option.map_eq_some'.mp ran
      obtain ⟨rfl, rfl⟩ := Prod.mk.inj same
      rw [List.append_cons]
      exact handlers.runAnswers_end step rest (step _ _ _ _ _ holds handled)

theorem Handlers.decoded_of_dispatch (handlers : Handlers σ) (C : ShmConfig) {store next : σ}
    {frame snapshot response : List UInt8}
    (handled : handlers.dispatch store (frameFunc frame) (handlerBuf C snapshot) =
      some (next, response)) :
    ∃ command, C.handledCommand (frame, snapshot) = some command ∧
      handlers.respond store command = some (next, response) := by
  obtain ⟨name, named, decoded⟩ := Option.bind_eq_some.mp handled
  obtain ⟨command, decodes, responded⟩ := Option.bind_eq_some.mp decoded
  exact ⟨command, by simp only [ShmConfig.handledCommand, named, Option.some_bind]; exact decodes,
    responded⟩

theorem Handlers.respond_of_dispatch (handlers : Handlers σ) {store next : σ} {func : Nat}
    {buf response : List UInt8} (handled : handlers.dispatch store func buf = some (next, response)) :
    ∃ command, handlers.respond store command = some (next, response) := by
  obtain ⟨name, -, decoded⟩ := Option.bind_eq_some.mp handled
  obtain ⟨command, -, responded⟩ := Option.bind_eq_some.mp decoded
  exact ⟨command, responded⟩

theorem Handlers.runAnswers_of_replayAnswers (handlers : Handlers σ) (C : ShmConfig)
    (initStore : σ) : ∀ {store : σ} {commands : List (List UInt8 × List UInt8)}
      {replayed : σ × List (List UInt8)},
      (handlers.protocol C initStore).replayAnswers store commands = some replayed →
        handlers.runAnswers store (commands.filterMap C.handledCommand) = some replayed
  | _, [], _, replayed => replayed
  | _, (_, _) :: _, _, replayed => by
      obtain ⟨⟨_, _⟩, handled, replayed⟩ := Option.bind_eq_some.mp replayed
      obtain ⟨command, took, responded⟩ := handlers.decoded_of_dispatch C handled
      obtain ⟨_, ran, rfl⟩ := Option.map_eq_some'.mp replayed
      rw [List.filterMap_cons_some took, Handlers.runAnswers, responded, Option.some_bind,
        handlers.runAnswers_of_replayAnswers C initStore ran]
      rfl

theorem Handlers.decodes_of_replayAnswers (handlers : Handlers σ) (C : ShmConfig)
    (initStore : σ) : ∀ {store : σ} {commands : List (List UInt8 × List UInt8)}
      {replayed : σ × List (List UInt8)},
      (handlers.protocol C initStore).replayAnswers store commands = some replayed →
        ∀ entry ∈ commands, (C.handledCommand entry).isSome
  | _, [], _, _ => by simp
  | _, (_, _) :: _, _, replayed => by
      obtain ⟨⟨_, _⟩, handled, replayed⟩ := Option.bind_eq_some.mp replayed
      obtain ⟨_, took, -⟩ := handlers.decoded_of_dispatch C handled
      obtain ⟨_, ran, -⟩ := Option.map_eq_some'.mp replayed
      rintro entry (_ | ⟨_, member⟩)
      · simp [took]
      · exact handlers.decodes_of_replayAnswers C initStore ran entry member

theorem getElem?_filterMap_of_isSome {α β : Type} {f : α → Option β} :
    ∀ {list : List α}, (∀ entry ∈ list, (f entry).isSome) →
      ∀ k : Nat, (list.filterMap f)[k]? = list[k]?.bind f
  | [], _, _ => by simp
  | entry :: list, all, k => by
      obtain ⟨_, found⟩ := Option.isSome_iff_exists.mp (all entry (List.mem_cons_self entry list))
      rw [List.filterMap_cons_some found]
      cases k with
      | zero => simp [found]
      | succ k =>
          simpa using getElem?_filterMap_of_isSome
            (fun other member => all other (List.mem_cons_of_mem entry member)) k

theorem Handlers.run_of_replay (handlers : Handlers σ) (C : ShmConfig) (initStore : σ)
    {store final : σ} {commands : List (List UInt8 × List UInt8)}
    (replayed : (handlers.protocol C initStore).replay store commands = some final) :
    handlers.run store (commands.filterMap C.handledCommand) = some final := by
  rw [Protocol.replay_eq_map] at replayed
  obtain ⟨_, answered, rfl⟩ := Option.map_eq_some'.mp replayed
  rw [Handlers.run_eq_map, handlers.runAnswers_of_replayAnswers C initStore answered]
  rfl

/-- In every run of these handlers, the worker's state and responses are the handlers run
on the commands they decoded, in the order they were posted. -/
theorem Reachable.runAnswers {handlers : Handlers σ} {C : ShmConfig} {initStore : σ}
    {pids : Fin n → Nat} {s : State n σ}
    (reachable : Reachable (handlers.protocol C initStore) pids s) :
    handlers.runAnswers initStore (s.handled.filterMap C.handledCommand) =
      some (s.store, s.responses) :=
  handlers.runAnswers_of_replayAnswers C initStore reachable.replayedAnswers

theorem Reachable.handledCommand_getElem? {handlers : Handlers σ} {C : ShmConfig}
    {initStore : σ} {pids : Fin n → Nat} {s : State n σ}
    (reachable : Reachable (handlers.protocol C initStore) pids s) (k : Nat) :
    (s.handled.filterMap C.handledCommand)[k]? = s.handled[k]?.bind C.handledCommand :=
  getElem?_filterMap_of_isSome
    (handlers.decodes_of_replayAnswers C initStore reachable.replayedAnswers) k

theorem Reachable.respond_invariant {handlers : Handlers σ} {C : ShmConfig} {initStore : σ}
    {pids : Fin n → Nat} {s : State n σ} (reachable : Reachable (handlers.protocol C initStore) pids s)
    {I : σ → Prop} (initial : I initStore)
    (step : ∀ store command next response, I store →
      handlers.respond store command = some (next, response) → I next) : I s.store :=
  reachable.store_invariant initial fun _ _ _ _ _ holds handled =>
    let ⟨_, responded⟩ := handlers.respond_of_dispatch handled
    step _ _ _ _ holds responded

end KvFdw.Shm

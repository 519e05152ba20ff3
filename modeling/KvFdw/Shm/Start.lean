import KvFdw.Shm.Shape

/-!
# Starting the worker

`OpenRequest`'s lazy start through `agent[0]` and `agent[1]`: a single handshake token.
-/

set_option autoImplicit false

namespace KvFdw.Shm

variable {n : Nat} {σ : Type}

/-- The phases from `SemWait(&ptr->full)` on, which a call reaches only once the worker
process exists. -/
def Phase.pastHandshake : Phase → Bool
  | .idle | .waitMutex | .checkCreated | .postAgent0 | .waitAgent1 => false
  | _ => true

/-- A client about to post `agent[0]`. -/
def Phase.announcing : Phase → Nat
  | .postAgent0 => 1
  | _ => 0

/-- A client that has got past the handshake, in this call or in an earlier one. -/
def Client.entered (client : Client) : Bool :=
  client.phase.pastHandshake || client.opened

/-- What the start handshake keeps true. -/
structure StartInvariant (s : State n σ) : Prop where
  /-- Each post of `agent[0]` is still pending, taken by the start thread, or answered by
  a call of `StartKVWorker`. -/
  handshakes_eq : s.handshakes = s.starts + s.agent0 + if s.starter = .startWorker then 1 else 0
  /-- The tokens of `agent[0]` and `agent[1]` belong to the clients waiting on `agent[1]`. -/
  agentTokens_eq : s.agentTokens = countClients s.clients Phase.awaitsAgent
  /-- At most one handshake is ever announced. -/
  handshake_token : s.handshakes + countClients s.clients Phase.announcing ≤ 1
  /-- While the flag is false, every handshake made has its client still waiting. -/
  pending : s.workerProcessCreated = false → s.handshakes ≤ countClients s.clients Phase.awaitsAgent
  created_of_agent1 : 0 < s.agent1 → s.workerProcessCreated = true
  created_of_posting : s.starter = .postAgent1 → s.workerProcessCreated = true
  started_of_setting : s.starter = .setCreated → 1 ≤ s.starts ∧ s.kvWorker ≠ .notStarted
  started_of_created : s.workerProcessCreated = true → 1 ≤ s.starts ∧ s.kvWorker ≠ .notStarted
  counted_of_started : s.kvWorker ≠ .notStarted → 1 ≤ s.starts
  created_of_entered : ∀ c, (s.clients c).entered = true → s.workerProcessCreated = true

@[simp] theorem Phase.announcing_afterMutex (call : Call) : (afterMutex call).announcing = 0 := by
  unfold afterMutex; split <;> rfl

@[simp] theorem Phase.announcing_afterBody (call : Call) (slot : Nat) :
    (afterBody call slot).announcing = 0 := by
  unfold afterBody; split_ifs <;> rfl

@[simp] theorem Phase.announcing_afterSync (call : Call) (slot : Nat) :
    (afterSync call slot).announcing = 0 := by
  unfold afterSync; split <;> rfl

@[simp] theorem Phase.pastHandshake_afterMutex (call : Call) :
    (afterMutex call).pastHandshake = !call.isOpen := by
  unfold afterMutex; split <;> simp_all [Phase.pastHandshake]

theorem countClients_eq_zero {clients : Fin n → Client} {weight : Phase → Nat}
    (none : ∀ d, weight (clients d).phase = 0) : countClients clients weight = 0 :=
  Finset.sum_eq_zero fun d _ => none d

section Preservation

variable {P : Protocol σ} {pids : Fin n → Nat} {s t : State n σ}

theorem Reachable.countClients_eq_zero_of_holder (reachable : Reachable P pids s) {c : Fin n}
    (holds : (s.clients c).phase.mutexHeld = 1) (weight : Phase → Nat)
    (within : ∀ phase, 0 < weight phase → phase.mutexHeld = 1)
    (own : weight (s.clients c).phase = 0) : countClients s.clients weight = 0 :=
  countClients_eq_zero fun d => by
    by_contra positive
    have same := reachable.mutex_holder_unique holds (within _ (Nat.pos_of_ne_zero positive))
    subst same
    exact positive own

/-! ### Steps of a client -/

theorem ClientTransition.start_frame {c : Fin n} {move : Move}
    (tr : ClientTransition P s c move t) :
    t.starts = s.starts ∧ t.starter = s.starter ∧
      t.workerProcessCreated = s.workerProcessCreated ∧ t.kvWorker = s.kvWorker := by
  cases tr <;> exact ⟨rfl, rfl, rfl, rfl⟩

theorem ClientTransition.agentTokens_add {c : Fin n} {move : Move}
    (tr : ClientTransition P s c move t) (calm : move ≠ .interrupt) :
    t.agentTokens + countClients s.clients Phase.awaitsAgent =
      s.agentTokens + countClients t.clients Phase.awaitsAgent := by
  have bound := le_countClients s.clients c Phase.awaitsAgent
  cases tr <;>
    simp only [State.agentTokens, State.clients_setClient, countClients_update,
      State.setClient_agent0, State.setClient_agent1, State.setClient_starter,
      Phase.awaitsAgent_afterMutex, Phase.awaitsAgent_afterBody, Phase.awaitsAgent_afterSync, *]
      at bound ⊢ <;>
    simp [Phase.awaitsAgent, *] at * <;> omega

theorem ClientTransition.handshake_add {c : Fin n} {move : Move}
    (tr : ClientTransition P s c move t) :
    t.handshakes + countClients t.clients Phase.announcing ≤
      s.handshakes + countClients s.clients Phase.announcing +
        if (s.clients c).phase = .checkCreated ∧ s.workerProcessCreated = false then 1 else 0 := by
  have bound := le_countClients s.clients c Phase.announcing
  cases tr <;>
    simp only [State.clients_setClient, countClients_update, State.setClient_handshakes,
      Phase.announcing_afterMutex, Phase.announcing_afterBody, Phase.announcing_afterSync, *]
      at bound ⊢ <;>
    simp [Phase.announcing, *] at * <;> omega

theorem ClientTransition.handshakes_pending {c : Fin n} {move : Move}
    (tr : ClientTransition P s c move t) (calm : move ≠ .interrupt) :
    t.handshakes + countClients s.clients Phase.awaitsAgent ≤
      s.handshakes + countClients t.clients Phase.awaitsAgent ∨ 0 < s.agent1 := by
  have bound := le_countClients s.clients c Phase.awaitsAgent
  cases tr <;>
    simp only [State.clients_setClient, countClients_update, State.setClient_handshakes,
      Phase.awaitsAgent_afterMutex, Phase.awaitsAgent_afterBody, Phase.awaitsAgent_afterSync, *]
      at bound ⊢ <;>
    simp [Phase.awaitsAgent, *] at *
  case postAgent0 => omega

theorem ClientTransition.handshakes_sub {c : Fin n} {move : Move}
    (tr : ClientTransition P s c move t) :
    t.handshakes + s.agent0 = s.handshakes + t.agent0 ∧ t.agent1 ≤ s.agent1 := by
  cases tr <;> simp
  case postAgent0 => omega

theorem ClientTransition.entered_of {c : Fin n} {move : Move}
    (tr : ClientTransition P s c move t) (calm : move ≠ .interrupt)
    (wf : (s.clients c).WellFormed P.responseQueueLength)
    (entered : (t.clients c).entered = true) :
    (s.clients c).entered = true ∨ s.workerProcessCreated = true ∨ 0 < s.agent1 := by
  have entitled := wf.entitled
  cases tr <;>
    simp only [State.clients_setClient, Function.update_same, Client.entered,
      Phase.pastHandshake_afterMutex] at entered <;>
    simp_all [Client.entered, Phase.pastHandshake]
  all_goals
    rcases entitled with isOpen | opened
    · exact .inl (entered.resolve_left (by simp [isOpen]))
    · exact .inl opened

theorem Reachable.handshake_fresh (reachable : Reachable P pids s) (inv : StartInvariant s)
    {c : Fin n} (checking : (s.clients c).phase = .checkCreated)
    (notCreated : s.workerProcessCreated = false) :
    s.handshakes + countClients s.clients Phase.announcing = 0 := by
  have holds : (s.clients c).phase.mutexHeld = 1 := by rw [checking]; rfl
  have noWaiter := reachable.countClients_eq_zero_of_holder holds Phase.awaitsAgent
    (fun phase => by cases phase <;> simp [Phase.awaitsAgent, Phase.mutexHeld])
    (by rw [checking]; rfl)
  have noAnnouncer := reachable.countClients_eq_zero_of_holder holds Phase.announcing
    (fun phase => by cases phase <;> simp [Phase.announcing, Phase.mutexHeld])
    (by rw [checking]; rfl)
  have := inv.pending notCreated
  omega

theorem ClientTransition.startInvariant {c : Fin n} {move : Move}
    (reachable : Reachable P pids s) (inv : StartInvariant s)
    (tr : ClientTransition P s c move t) (calm : move ≠ .interrupt) : StartInvariant t := by
  obtain ⟨starts, starter, created, worker⟩ := tr.start_frame
  obtain ⟨handshakes, agent1⟩ := tr.handshakes_sub
  have agents := tr.agentTokens_add calm
  have announced := tr.handshake_add
  have pending := tr.handshakes_pending calm
  refine ⟨?_, ?_, ?_, fun notCreated => ?_, fun posted => ?_, ?_, ?_, ?_, ?_,
    fun d entered => ?_⟩
  · rw [starts, starter]; have := inv.handshakes_eq; omega
  · have := inv.agentTokens_eq; omega
  · split_ifs at announced with first
    · have := reachable.handshake_fresh inv first.1 first.2; omega
    · have := inv.handshake_token; omega
  · rw [created] at notCreated
    have := inv.pending notCreated
    rcases pending with pending | agent
    · omega
    · simp [inv.created_of_agent1 agent] at notCreated
  · exact created ▸ inv.created_of_agent1 (by omega)
  · rw [starter, created]; exact inv.created_of_posting
  · rw [starter, starts, worker]; exact inv.started_of_setting
  · rw [created, starts, worker]; exact inv.started_of_created
  · rw [starts, worker]; exact inv.counted_of_started
  · rw [created]
    by_cases same : d = c
    · subst same
      rcases tr.entered_of calm (reachable.wellFormed d) entered with before | set | agent
      · exact inv.created_of_entered d before
      · exact set
      · exact inv.created_of_agent1 agent
    · exact inv.created_of_entered d (tr.clients_ne same ▸ entered)

/-! ### Steps of the worker and of the start thread -/

theorem WorkerTransition.kvWorker_ne {move : Move} (tr : WorkerTransition P s move t) :
    t.kvWorker ≠ .notStarted := by
  cases tr <;> simp [copyOutOf]
  split <;> simp

theorem WorkerTransition.startInvariant {move : Move} (inv : StartInvariant s)
    (tr : WorkerTransition P s move t) : StartInvariant t := by
  have worker := tr.kvWorker_ne
  have running : s.kvWorker ≠ .notStarted := by cases tr <;> simp_all
  have clients := tr.clients_eq
  have frame : t.handshakes = s.handshakes ∧ t.starts = s.starts ∧ t.agent0 = s.agent0 ∧
      t.agent1 = s.agent1 ∧ t.starter = s.starter ∧
      t.workerProcessCreated = s.workerProcessCreated := by
    cases tr <;> exact ⟨rfl, rfl, rfl, rfl, rfl, rfl⟩
  obtain ⟨handshakes, starts, agent0, agent1, starter, created⟩ := frame
  obtain ⟨handshakesEq, agents, token, pending, createdOfAgent1, posting, setting,
    createdStarted, counted, entered⟩ := inv
  simp only [State.agentTokens] at agents
  refine ⟨?_, ?_, ?_, ?_, ?_, ?_, ?_, ?_, ?_, ?_⟩ <;>
    simp only [State.agentTokens, handshakes, starts, agent0, agent1, starter, created,
      clients] <;>
    first
      | assumption
      | exact fun set => ⟨(setting set).1, worker⟩
      | exact fun set => ⟨(createdStarted set).1, worker⟩
      | exact fun _ => counted running

theorem StarterTransition.startInvariant {move : Move} (inv : StartInvariant s)
    (tr : StarterTransition P s move t) (calm : move ≠ .interrupt) : StartInvariant t := by
  obtain ⟨handshakesEq, agents, token, pending, createdOfAgent1, posting, setting,
    createdStarted, counted, entered⟩ := inv
  simp only [State.agentTokens] at agents
  cases tr with
  | waitAgent0 current available =>
      refine ⟨?_, ?_, token, pending, createdOfAgent1, nofun, nofun, createdStarted, counted,
        entered⟩
      · simp only [current, reduceCtorEq, if_false, if_true] at handshakesEq ⊢; omega
      · simp only [State.agentTokens, current, StarterPhase.busy] at agents ⊢; omega
  | waitAgent0Interrupted => exact absurd rfl calm
  | startWorker current =>
      have started := WorkerPhase.forked_ne_notStarted s.kvWorker
      refine ⟨?_, ?_, token, pending, createdOfAgent1, nofun,
        fun _ => ⟨Nat.le_add_left 1 s.starts, started⟩,
        fun set => ⟨Nat.le_succ_of_le (createdStarted set).1, started⟩,
        fun _ => Nat.le_add_left 1 s.starts, entered⟩
      · simp only [current, if_true, reduceCtorEq, if_false] at handshakesEq ⊢; omega
      · simpa [State.agentTokens, current, StarterPhase.busy] using agents
  | setCreated current =>
      refine ⟨by simpa [current] using handshakesEq, ?_, token, nofun, fun _ => rfl,
        fun _ => rfl, nofun, fun _ => setting current, counted, fun _ _ => rfl⟩
      simpa [State.agentTokens, current, StarterPhase.busy] using agents
  | postAgent1 current =>
      refine ⟨by simpa [current] using handshakesEq, ?_, token, pending,
        fun _ => posting current, nofun, nofun, createdStarted, counted, entered⟩
      simp only [State.agentTokens, current, StarterPhase.busy] at agents ⊢; omega

theorem Transition.startInvariant {action : Action n} (reachable : Reachable P pids s)
    (inv : StartInvariant s) (tr : Transition P s action t) (calm : action.interrupts = false) :
    StartInvariant t := by
  cases tr with
  | client tr => exact tr.startInvariant reachable inv (by rintro rfl; simp [Action.interrupts] at calm)
  | kvWorker tr => exact tr.startInvariant inv
  | starter tr => exact tr.startInvariant inv (by rintro rfl; simp [Action.interrupts] at calm)

theorem StartInvariant.init : StartInvariant (State.init P pids) where
  handshakes_eq := rfl
  agentTokens_eq := by simp [State.agentTokens, State.init, countClients, Phase.awaitsAgent,
    StarterPhase.busy]
  handshake_token := by simp [State.init, countClients, Phase.announcing]
  pending _ := by simp [State.init]
  created_of_agent1 := nofun
  created_of_posting := nofun
  started_of_setting := nofun
  started_of_created := nofun
  counted_of_started started := absurd rfl started
  created_of_entered _ := nofun

theorem Reachable.startInvariant (reachable : Reachable P pids s) : StartInvariant s :=
  reachable.induction .init fun earlier inv tr calm => tr.startInvariant earlier inv calm

/-- The start thread calls `StartKVWorker` only for the one handshake, before any worker
process exists. -/
theorem Reachable.unstarted_of_starting (reachable : Reachable P pids s)
    (starting : s.starter = .startWorker) : s.kvWorker = .notStarted := by
  have inv := reachable.startInvariant
  by_contra started
  have := inv.counted_of_started started
  have := inv.handshakes_eq
  have := inv.handshake_token
  simp only [starting, if_true] at *
  omega

end Preservation

/-! ## Lazy start -/

section LazyStart

variable {P : Protocol σ} {pids : Fin n → Nat} {s : State n σ}

theorem Reachable.starts_le (reachable : Reachable P pids s) : s.starts ≤ 1 := by
  have inv := reachable.startInvariant
  have := inv.handshakes_eq
  have := inv.handshake_token
  omega

/-- `StartKVWorker` runs at most once; a client that holds `mutex` and finds the flag
false is the first to make the handshake; and no request posts `worker` before the start
thread has started the worker and set the flag. -/
theorem lazy_start (reachable : Reachable P pids s) :
    s.starts ≤ 1 ∧ s.handshakes ≤ 1 ∧
      (∀ c, (s.clients c).phase = .checkCreated → s.workerProcessCreated = false →
        s.handshakes = 0) ∧
      (∀ c slot, (s.clients c).phase = .postWorker slot →
        s.workerProcessCreated = true ∧ s.starts = 1) := by
  have inv := reachable.startInvariant
  have token := inv.handshake_token
  refine ⟨reachable.starts_le, by omega, fun c checking notCreated => ?_,
    fun c slot posting => ?_⟩
  · have := reachable.handshake_fresh inv checking notCreated
    omega
  · have created := inv.created_of_entered c (by simp [Client.entered, posting, Phase.pastHandshake])
    exact ⟨created, by have := (inv.started_of_created created).1; have := reachable.starts_le; omega⟩

/-- A backend opening the first relation posts `worker` after the one start. -/
theorem lazy_start_before_posting :
    ∃ s : State 1 Unit, Reachable Protocol.echo (fun _ => 7) s ∧
      (s.clients 0).phase = .postWorker 0 ∧ s.workerProcessCreated = true ∧ s.starts = 1 :=
  have reachable : NormalReachable Protocol.echo (fun _ : Fin 1 => 7) _ :=
    .of_isSome ((openScript 0 [47, 107, 118]).take 14) (by decide)
  ⟨_, reachable.reachable, by decide, (lazy_start reachable.reachable).2.2.2 0 0 (by decide)⟩

end LazyStart

end KvFdw.Shm

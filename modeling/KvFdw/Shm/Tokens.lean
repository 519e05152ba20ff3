import KvFdw.Shm.Transition
import Mathlib.Algebra.Order.BigOperators.Group.Finset

/-!
# Semaphore tokens

Each binary semaphore is one token, held by the semaphore or by the process between its
wait and its post.
-/

set_option autoImplicit false

namespace KvFdw.Shm

variable {n : Nat} {σ : Type}

/-! ## Who holds what -/

/-- The client phases between `SemWait(&ptr->mutex)` and `SemPost(&ptr->mutex)`. -/
def Phase.mutexHeld : Phase → Nat
  | .checkCreated | .postAgent0 | .waitAgent1 | .waitFull | .writeFunc | .lease _
  | .writeBody _ | .getOptions _ | .checkSize _ | .errorPostMutex _ | .postWorker _
  | .postMutex _ => 1
  | _ => 0

/-- The client phases between `SemWait(&ptr->full)` and `SemPost(&ptr->worker)`, which
hands the command slot on to the worker. -/
def Phase.fullHeld : Phase → Nat
  | .writeFunc | .lease _ | .writeBody _ | .getOptions _ | .checkSize _ | .errorPostMutex _
  | .errorPostLease _ | .postWorker _ => 1
  | _ => 0

/-- The slot a client has leased, from a successful `SemTryWait` in
`GetResponseQueueIndex` to `SemPost(&ptr->responseMutex[responseId])`. -/
def Phase.leaseSlot : Phase → Option Nat
  | .writeBody slot | .getOptions slot | .checkSize slot | .errorPostMutex slot
  | .errorPostLease slot | .postWorker slot | .postMutex slot | .waitSync slot
  | .readResponse slot | .mapSegment slot | .postLease slot => some slot
  | _ => none

/-- Whether a client holds the lease on `slot`. -/
def Phase.leaseHeld (slot : Nat) (phase : Phase) : Nat :=
  if phase.leaseSlot = some slot then 1 else 0

/-- A client that posted `agent[0]` and waits on `agent[1]`. -/
def Phase.awaitsAgent : Phase → Nat
  | .waitAgent1 => 1
  | _ => 0

/-- The worker between `SemWait(&ptr->worker)` and `SemPost(&ptr->full)`. -/
def WorkerPhase.copying : WorkerPhase → Nat
  | .copyOut | .postFull .. => 1
  | _ => 0

/-- The worker holds a posted command it has not copied yet. -/
def WorkerPhase.pendingCopy : WorkerPhase → Nat
  | .copyOut => 1
  | _ => 0

/-- The worker holds a copied command whose `responseSync` it has not posted. -/
def WorkerPhase.processing : WorkerPhase → Nat
  | .postFull .. | .dispatch .. | .postSync .. => 1
  | _ => 0

/-- The worker has recorded its response and not yet posted `responseSync`. -/
def WorkerPhase.responded : WorkerPhase → Nat
  | .postSync .. => 1
  | _ => 0

/-- The start thread between `SemWait(&ptr->agent[0])` and `SemPost(&ptr->agent[1])`. -/
def StarterPhase.busy : StarterPhase → Nat
  | .waitAgent0 => 0
  | _ => 1

theorem Phase.mutexHeld_le_one (phase : Phase) : phase.mutexHeld ≤ 1 := by
  cases phase <;> simp [Phase.mutexHeld]

theorem Phase.fullHeld_le_one (phase : Phase) : phase.fullHeld ≤ 1 := by
  cases phase <;> simp [Phase.fullHeld]

/-- Where a call continues after each wait of its prologue, by the weights above. -/
@[simp] theorem Phase.mutexHeld_afterMutex (call : Call) : (afterMutex call).mutexHeld = 1 := by
  unfold afterMutex; split <;> rfl

@[simp] theorem Phase.mutexHeld_afterBody (call : Call) (slot : Nat) :
    (afterBody call slot).mutexHeld = 1 := by
  unfold afterBody; split_ifs <;> rfl

@[simp] theorem Phase.mutexHeld_afterSync (call : Call) (slot : Nat) :
    (afterSync call slot).mutexHeld = 0 := by
  unfold afterSync; split <;> rfl

@[simp] theorem Phase.fullHeld_afterMutex (call : Call) : (afterMutex call).fullHeld = 0 := by
  unfold afterMutex; split <;> rfl

@[simp] theorem Phase.fullHeld_afterBody (call : Call) (slot : Nat) :
    (afterBody call slot).fullHeld = 1 := by
  unfold afterBody; split_ifs <;> rfl

@[simp] theorem Phase.fullHeld_afterSync (call : Call) (slot : Nat) :
    (afterSync call slot).fullHeld = 0 := by
  unfold afterSync; split <;> rfl

@[simp] theorem Phase.leaseSlot_afterMutex (call : Call) : (afterMutex call).leaseSlot = none := by
  unfold afterMutex; split <;> rfl

@[simp] theorem Phase.leaseSlot_afterBody (call : Call) (slot : Nat) :
    (afterBody call slot).leaseSlot = some slot := by
  unfold afterBody; split_ifs <;> rfl

@[simp] theorem Phase.leaseSlot_afterSync (call : Call) (slot : Nat) :
    (afterSync call slot).leaseSlot = some slot := by
  unfold afterSync; split <;> rfl

@[simp] theorem Phase.awaitsAgent_afterMutex (call : Call) : (afterMutex call).awaitsAgent = 0 := by
  unfold afterMutex; split <;> rfl

@[simp] theorem Phase.awaitsAgent_afterBody (call : Call) (slot : Nat) :
    (afterBody call slot).awaitsAgent = 0 := by
  unfold afterBody; split_ifs <;> rfl

@[simp] theorem Phase.awaitsAgent_afterSync (call : Call) (slot : Nat) :
    (afterSync call slot).awaitsAgent = 0 := by
  unfold afterSync; split <;> rfl

/-! ## Counting clients -/

/-- How many clients are in a phase of positive weight. -/
def countClients (clients : Fin n → Client) (weight : Phase → Nat) : Nat :=
  ∑ c, weight (clients c).phase

@[simp] theorem countClients_update (clients : Fin n → Client) (c : Fin n) (client : Client)
    (weight : Phase → Nat) :
    countClients (Function.update clients c client) weight =
      countClients clients weight + weight client.phase - weight (clients c).phase := by
  have others : ∑ d ∈ Finset.univ.erase c, weight (Function.update clients c client d).phase =
      ∑ d ∈ Finset.univ.erase c, weight (clients d).phase :=
    Finset.sum_congr rfl fun d member => by
      rw [Function.update_noteq (Finset.ne_of_mem_erase member)]
  have updated : ∑ d, weight (Function.update clients c client d).phase =
      weight client.phase + ∑ d ∈ Finset.univ.erase c, weight (clients d).phase := by
    rw [← Finset.add_sum_erase _ _ (Finset.mem_univ c), Function.update_same, others]
  have original : ∑ d, weight (clients d).phase =
      weight (clients c).phase + ∑ d ∈ Finset.univ.erase c, weight (clients d).phase :=
    (Finset.add_sum_erase _ _ (Finset.mem_univ c)).symm
  simp only [countClients, updated, original]
  omega

theorem le_countClients (clients : Fin n → Client) (c : Fin n) (weight : Phase → Nat) :
    weight (clients c).phase ≤ countClients clients weight :=
  Finset.single_le_sum (f := fun d => weight (clients d).phase) (fun _ _ => Nat.zero_le _)
    (Finset.mem_univ c)

theorem eq_of_countClients_le_one (clients : Fin n → Client) (weight : Phase → Nat)
    (atMostOne : countClients clients weight ≤ 1) {c d : Fin n}
    (heldC : 0 < weight (clients c).phase) (heldD : 0 < weight (clients d).phase) :
    c = d := by
  by_contra different
  have pair : weight (clients c).phase + weight (clients d).phase ≤
      countClients clients weight := by
    have subset := Finset.sum_le_sum_of_subset (f := fun e => weight (clients e).phase)
      (Finset.subset_univ {c, d})
    rwa [Finset.sum_pair different] at subset
  omega

/-! ## Token counts -/

/-- Tokens of `mutex`. -/
def State.mutexTokens (s : State n σ) : Nat :=
  s.mutex + countClients s.clients Phase.mutexHeld

/-- Tokens of the command slot: `full`, then a writing client, then `worker`, then the
worker copying the command out. -/
def State.fullTokens (s : State n σ) : Nat :=
  s.full + s.worker + s.kvWorker.copying + countClients s.clients Phase.fullHeld

/-- Tokens of `responseMutex[slot]`. -/
def State.leaseTokens (s : State n σ) (slot : Nat) : Nat :=
  s.responseMutex slot + countClients s.clients (Phase.leaseHeld slot)

/-- Tokens of the start handshake: `agent[0]`, the start thread, `agent[1]`. -/
def State.agentTokens (s : State n σ) : Nat :=
  s.agent0 + s.agent1 + s.starter.busy

/-- The token counts of `t` are at most those of `s`. -/
def State.TokensLE (t s : State n σ) : Prop :=
  t.mutexTokens ≤ s.mutexTokens ∧ t.fullTokens ≤ s.fullTokens ∧
    ∀ slot, t.leaseTokens slot ≤ s.leaseTokens slot

theorem State.TokensLE.refl (s : State n σ) : s.TokensLE s :=
  ⟨le_rfl, le_rfl, fun _ => le_rfl⟩

theorem State.TokensLE.trans {s t u : State n σ} (first : u.TokensLE t) (second : t.TokensLE s) :
    u.TokensLE s :=
  ⟨first.1.trans second.1, first.2.1.trans second.2.1, fun slot => (first.2.2 slot).trans (second.2.2 slot)⟩

/-! ## Conservation -/

section Conservation

variable {P : Protocol σ} {s t : State n σ}

theorem ClientTransition.mutexTokens_le {c : Fin n} {move : Move}
    (tr : ClientTransition P s c move t) (calm : move ≠ .interrupt) :
    t.mutexTokens ≤ s.mutexTokens ∧
      ((Action.client c move).raises P s = false → t.mutexTokens = s.mutexTokens) := by
  have bound := le_countClients s.clients c Phase.mutexHeld
  cases tr <;>
    simp only [State.mutexTokens, State.clients_setClient, countClients_update,
      State.setClient_mutex, Phase.mutexHeld_afterMutex, Phase.mutexHeld_afterBody,
      Phase.mutexHeld_afterSync, *] at bound ⊢ <;>
    simp [Phase.mutexHeld, Action.raises, *] at * <;> omega

theorem ClientTransition.fullTokens_le {c : Fin n} {move : Move}
    (tr : ClientTransition P s c move t) (calm : move ≠ .interrupt) :
    t.fullTokens ≤ s.fullTokens ∧
      ((Action.client c move).raises P s = false → t.fullTokens = s.fullTokens) := by
  have bound := le_countClients s.clients c Phase.fullHeld
  cases tr <;>
    simp only [State.fullTokens, State.clients_setClient, countClients_update,
      State.setClient_full, State.setClient_worker, State.setClient_kvWorker,
      Phase.fullHeld_afterMutex, Phase.fullHeld_afterBody, Phase.fullHeld_afterSync, *]
      at bound ⊢ <;>
    simp [Phase.fullHeld, Action.raises, *] at * <;> omega

theorem ClientTransition.leaseTokens_le {c : Fin n} {move : Move}
    (tr : ClientTransition P s c move t) (calm : move ≠ .interrupt) (slot : Nat) :
    t.leaseTokens slot ≤ s.leaseTokens slot ∧
      ((Action.client c move).raises P s = false → t.leaseTokens slot = s.leaseTokens slot) := by
  have bound := le_countClients s.clients c (Phase.leaseHeld slot)
  cases tr <;>
    simp only [State.leaseTokens, State.clients_setClient, countClients_update,
      State.setClient_responseMutex, Phase.leaseHeld, Phase.leaseSlot_afterMutex,
      Phase.leaseSlot_afterBody, Phase.leaseSlot_afterSync, *] at bound ⊢ <;>
    simp [Phase.leaseSlot, Action.raises, takeAt, postAt, Function.update_apply, *] at * <;>
    split_ifs at * <;> subst_vars <;> omega

theorem WorkerTransition.fullTokens_eq {move : Move} (tr : WorkerTransition P s move t)
    (calm : move ≠ .interrupt) : t.fullTokens = s.fullTokens := by
  cases tr <;> simp_all [State.fullTokens, WorkerPhase.copying, copyOutOf] <;> try omega
  split_ifs <;> rfl

theorem StarterTransition.fullTokens_eq {move : Move} (tr : StarterTransition P s move t) :
    t.fullTokens = s.fullTokens := by
  cases tr <;> simp only [State.fullTokens]
  split_ifs with alive
  · rfl
  · revert alive; cases s.kvWorker <;> simp [WorkerPhase.alive, WorkerPhase.copying]

theorem State.tokensLE_of_eq (mutex : t.mutexTokens = s.mutexTokens)
    (full : t.fullTokens = s.fullTokens) (lease : ∀ slot, t.leaseTokens slot = s.leaseTokens slot) :
    t.TokensLE s ∧ s.TokensLE t :=
  ⟨⟨mutex.le, full.le, fun slot => (lease slot).le⟩,
    ⟨mutex.ge, full.ge, fun slot => (lease slot).ge⟩⟩

theorem Transition.tokensLE {action : Action n} (tr : Transition P s action t)
    (calm : action.interrupts = false) :
    t.TokensLE s ∧ (action.raises P s = false → s.TokensLE t) := by
  cases tr with
  | @client c move _ tr =>
      have calm : move ≠ .interrupt := by rintro rfl; simp [Action.interrupts] at calm
      obtain ⟨mutexLE, mutexEq⟩ := tr.mutexTokens_le calm
      obtain ⟨fullLE, fullEq⟩ := tr.fullTokens_le calm
      exact ⟨⟨mutexLE, fullLE, fun slot => (tr.leaseTokens_le calm slot).1⟩, fun normal =>
        ⟨(mutexEq normal).ge, (fullEq normal).ge,
          fun slot => ((tr.leaseTokens_le calm slot).2 normal).ge⟩⟩
  | @kvWorker move _ tr =>
      have calm : move ≠ .interrupt := by rintro rfl; simp [Action.interrupts] at calm
      have same := State.tokensLE_of_eq (by cases tr <;> rfl) (tr.fullTokens_eq calm)
        (by cases tr <;> intro <;> rfl)
      exact ⟨same.1, fun _ => same.2⟩
  | starter tr =>
      have same := State.tokensLE_of_eq (by cases tr <;> rfl) tr.fullTokens_eq
        (by cases tr <;> intro <;> rfl)
      exact ⟨same.1, fun _ => same.2⟩

end Conservation

/-! ## Token counts along runs -/

section Runs

variable {P : Protocol σ} {pids : Fin n → Nat}

theorem State.TokensLE.of_steps {s t : State n σ} (steps : Relation.ReflTransGen (Step P) s t) :
    t.TokensLE s := by
  induction steps with
  | refl => exact .refl _
  | tail _ last bound =>
      obtain ⟨action, calm, stepped⟩ := last
      exact ((Transition.of_step stepped).tokensLE calm).1.trans bound

theorem Reachable.tokensLE {s : State n σ} (reachable : Reachable P pids s) :
    s.TokensLE (State.init P pids) :=
  State.TokensLE.of_steps reachable

theorem NormalReachable.tokensEq {s : State n σ} (reachable : NormalReachable P pids s) :
    s.TokensLE (State.init P pids) ∧ (State.init P pids).TokensLE s :=
  reachable.induction (motive := fun s => s.TokensLE _ ∧ (State.init P pids).TokensLE s)
    ⟨.refl _, .refl _⟩ fun _ bound tr calm normal =>
    ⟨(tr.tokensLE calm).1.trans bound.1, bound.2.trans ((tr.tokensLE calm).2 normal)⟩

@[simp] theorem State.mutexTokens_init : (State.init P pids).mutexTokens = 1 := by
  simp [State.mutexTokens, State.init, countClients, Phase.mutexHeld]

@[simp] theorem State.fullTokens_init : (State.init P pids).fullTokens = 1 := by
  simp [State.fullTokens, State.init, countClients, Phase.fullHeld, WorkerPhase.copying]

@[simp] theorem State.leaseTokens_init (slot : Nat) :
    (State.init P pids).leaseTokens slot = if slot < P.responseQueueLength then 1 else 0 := by
  simp [State.leaseTokens, State.init, countClients, Phase.leaseHeld, Phase.leaseSlot]

end Runs

/-! ## Mutual exclusion -/

section Exclusion

variable {P : Protocol σ} {pids : Fin n → Nat} {s : State n σ}

theorem Reachable.mutexTokens_le (reachable : Reachable P pids s) : s.mutexTokens ≤ 1 := by
  simpa using reachable.tokensLE.1

theorem Reachable.fullTokens_le (reachable : Reachable P pids s) : s.fullTokens ≤ 1 := by
  simpa using reachable.tokensLE.2.1

theorem Reachable.leaseTokens_le (reachable : Reachable P pids s) (slot : Nat) :
    s.leaseTokens slot ≤ if slot < P.responseQueueLength then 1 else 0 := by
  simpa using reachable.tokensLE.2.2 slot

/-- At most one client holds `mutex`. -/
theorem Reachable.mutex_holder_unique (reachable : Reachable P pids s) {c d : Fin n}
    (holdsC : (s.clients c).phase.mutexHeld = 1) (holdsD : (s.clients d).phase.mutexHeld = 1) :
    c = d := by
  have bound := reachable.mutexTokens_le
  exact eq_of_countClients_le_one s.clients Phase.mutexHeld
    (by unfold State.mutexTokens at bound; omega)
    (by omega) (by omega)

/-- At most one party holds the command slot. -/
theorem Reachable.full_holder_unique (reachable : Reachable P pids s) {c d : Fin n}
    (holdsC : (s.clients c).phase.fullHeld = 1) (holdsD : (s.clients d).phase.fullHeld = 1) :
    c = d := by
  have bound := reachable.fullTokens_le
  exact eq_of_countClients_le_one s.clients Phase.fullHeld
    (by unfold State.fullTokens at bound; omega)
    (by omega) (by omega)

/-- At most one client leases a slot. -/
theorem Reachable.lease_holder_unique (reachable : Reachable P pids s) {c d : Fin n}
    {slot : Nat} (holdsC : (s.clients c).phase.leaseSlot = some slot)
    (holdsD : (s.clients d).phase.leaseSlot = some slot) : c = d := by
  have bound := reachable.leaseTokens_le slot
  have atMostOne : s.leaseTokens slot ≤ 1 := bound.trans (by split <;> omega)
  exact eq_of_countClients_le_one s.clients (Phase.leaseHeld slot)
    (by unfold State.leaseTokens at atMostOne; omega)
    (by simp [Phase.leaseHeld, holdsC]) (by simp [Phase.leaseHeld, holdsD])

/-- The semaphores of `SharedMem` stay binary. In every run without interrupted waits each
one has at most one token, in the semaphore or with its holder, and at most one client
holds `mutex` or the command slot; in a run that raises no error either, no token is
lost. -/
theorem semaphores_stay_binary (reachable : Reachable P pids s) :
    s.mutexTokens ≤ 1 ∧ s.fullTokens ≤ 1 ∧
      (∀ slot, s.leaseTokens slot ≤ if slot < P.responseQueueLength then 1 else 0) ∧
      (∀ c d, (s.clients c).phase.mutexHeld = 1 → (s.clients d).phase.mutexHeld = 1 → c = d) ∧
      (∀ c d, (s.clients c).phase.fullHeld = 1 → (s.clients d).phase.fullHeld = 1 → c = d) ∧
      (NormalReachable P pids s → s.mutexTokens = 1 ∧ s.fullTokens = 1 ∧
        ∀ slot, s.leaseTokens slot = if slot < P.responseQueueLength then 1 else 0) := by
  refine ⟨reachable.mutexTokens_le, reachable.fullTokens_le, reachable.leaseTokens_le,
    fun _ _ => reachable.mutex_holder_unique, fun _ _ => reachable.full_holder_unique,
    fun normal => ?_⟩
  obtain ⟨⟨mutexLE, fullLE, leaseLE⟩, ⟨mutexGE, fullGE, leaseGE⟩⟩ := normal.tokensEq
  simp only [State.mutexTokens_init, State.fullTokens_init, State.leaseTokens_init] at *
  exact ⟨le_antisymm mutexLE mutexGE, le_antisymm fullLE fullGE,
    fun slot => le_antisymm (leaseLE slot) (leaseGE slot)⟩

/-- A backend about to post `worker` for its `OPEN` holds `mutex` and the command slot,
whose semaphores are at zero: each token is with it. -/
theorem semaphores_binary_while_opening :
    ∃ s : State 1 Unit, Reachable Protocol.echo (fun _ => 7) s ∧
      (s.clients 0).phase = .postWorker 0 ∧ s.mutex = 0 ∧ s.full = 0 ∧
      s.mutexTokens = 1 ∧ s.fullTokens = 1 :=
  have reachable : NormalReachable Protocol.echo (fun _ : Fin 1 => 7) _ :=
    .of_isSome ((openScript 0 [47, 107, 118]).take 14) (by decide)
  have binary := semaphores_stay_binary reachable.reachable
  ⟨_, reachable.reachable, by decide, by decide, by decide, (binary.2.2.2.2.2 reachable).1,
    (binary.2.2.2.2.2 reachable).2.1⟩

end Exclusion

end KvFdw.Shm

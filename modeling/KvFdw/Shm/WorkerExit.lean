import KvFdw.Shm.Engine

/-!
# A handler's error ends the worker

Once `KVWorkerMain` has exited it stays exited, and the clients waiting on a response slot
wait for ever.
-/

set_option autoImplicit false

namespace KvFdw.Shm

variable {n : Nat} {σ : Type}

section Exited

variable {P : Protocol σ} {s t u : State n σ}

theorem clientStep_waitSync_blocked {c : Fin n} {slot : Nat}
    (waiting : (s.clients c).phase = .waitSync slot) (blocked : s.responseSync slot = 0)
    {move : Move} (calm : move ≠ .interrupt) : clientStep P s c move = none := by
  unfold clientStep
  rw [waiting]
  cases move <;> simp_all

/-- What the worker's exit in `s` leaves in a later state: the worker has exited, the
responses and syncs are those of `s`, no `responseSync` has grown, and every client that
waited in `s` on a response slot without a token waits there still. -/
structure Stalled (s u : State n σ) : Prop where
  exited : u.kvWorker = .exited
  responses : u.responses = s.responses
  synced : u.synced = s.synced
  responseSync : ∀ slot, u.responseSync slot ≤ s.responseSync slot
  waiting : ∀ c slot, (s.clients c).phase = .waitSync slot → s.responseSync slot = 0 →
    (u.clients c).phase = .waitSync slot

theorem Stalled.refl (exited : s.kvWorker = .exited) : Stalled s s :=
  ⟨exited, rfl, rfl, fun _ => le_rfl, fun _ _ waiting _ => waiting⟩

theorem Stalled.transition {pids : Fin n → Nat} (reachable : Reachable P pids t)
    (stalled : Stalled s t) {action : Action n} (tr : Transition P t action u)
    (calm : action.interrupts = false) : Stalled s u := by
  cases tr with
  | @client c move _ tr =>
      obtain ⟨-, responses, synced, kvWorker, -⟩ := tr.worker_frame
      have notInterrupt : move ≠ .interrupt := by rintro rfl; cases calm
      have fewer : ∀ slot, u.responseSync slot ≤ t.responseSync slot := by
        rcases tr.classify notInterrupt with quiet | ⟨_, _, _, same, _⟩ | ⟨_, _, _, _, took, _⟩
        · exact fun _ => quiet.responseSync ▸ le_rfl
        · exact fun _ => same ▸ le_rfl
        · intro slot
          rw [took, takeAt, Function.update_apply]
          split_ifs with same
          · subst same; omega
          · exact le_rfl
      refine ⟨kvWorker ▸ stalled.exited, responses ▸ stalled.responses, synced ▸ stalled.synced,
        fun slot => (fewer slot).trans (stalled.responseSync slot),
        fun d slot waiting blocked => ?_⟩
      have still := stalled.waiting d slot waiting blocked
      by_cases same : d = c
      · subst same
        have stuck := clientStep_waitSync_blocked (P := P) still
          (Nat.le_zero.mp (blocked ▸ stalled.responseSync slot)) notInterrupt
        rw [tr.clientStep_eq] at stuck
        cases stuck
      · rw [tr.clients_ne same]
        exact still
  | kvWorker tr =>
      have stepped := tr.workerStep_eq
      simp [workerStep, stalled.exited] at stepped
  | starter tr =>
      have clients := tr.clients_eq
      have kept : u.kvWorker = .exited ∧ u.responses = t.responses ∧ u.synced = t.synced ∧
          u.responseSync = t.responseSync := by
        cases tr with
        | startWorker current =>
            have unstarted := reachable.unstarted_of_starting current
            rw [stalled.exited] at unstarted
            cases unstarted
        | _ => simp [stalled.exited]
      obtain ⟨exited, responses, synced, responseSync⟩ := kept
      exact ⟨exited, responses ▸ stalled.responses, synced ▸ stalled.synced,
        responseSync ▸ stalled.responseSync, clients ▸ stalled.waiting⟩

theorem Stalled.run {pids : Fin n → Nat} (reachable : Reachable P pids s)
    (exited : s.kvWorker = .exited) (later : Relation.ReflTransGen (Step P) s u) :
    Stalled s u := by
  induction later with
  | refl => exact .refl exited
  | tail earlier last ih =>
      obtain ⟨action, calm, stepped⟩ := last
      exact ih.transition (reachable.trans earlier) (.of_step stepped) calm

/-- A handler's error ends the kv worker's service for good: once the worker has exited,
in every continuation without interrupted waits it stays exited, no command is answered
or synced again, and every client waiting on a response slot without a token waits there
for ever, able to take no step but an interrupted wait. -/
theorem worker_exit_hangs_waiters {pids : Fin n → Nat} (reachable : Reachable P pids s)
    (exited : s.kvWorker = .exited) (later : Relation.ReflTransGen (Step P) s u) :
    u.kvWorker = .exited ∧ u.responses = s.responses ∧ u.synced = s.synced ∧
      ∀ c slot, (s.clients c).phase = .waitSync slot → s.responseSync slot = 0 →
        (u.clients c).phase = .waitSync slot ∧
          ∀ move, move ≠ .interrupt → step P u (.client c move) = none := by
  have stalled := Stalled.run reachable exited later
  refine ⟨stalled.exited, stalled.responses, stalled.synced, fun c slot waiting blocked => ?_⟩
  have still := stalled.waiting c slot waiting blocked
  exact ⟨still, fun _ calm => clientStep_waitSync_blocked still
    (Nat.le_zero.mp (blocked ▸ stalled.responseSync slot)) calm⟩

/-- The script of `close_unopened_hangs`: backend 0 opens the relation at "/kv/5" and
closes relation 6, which no backend opened, and the worker runs the CLOSE. -/
def closeUnopenedScript : List (Action 2) :=
  openScript 0 [47, 107, 118, 47, 53] ++ Action.client 0 (Move.invoke (Call.closeRequest 6)) ::
    List.replicate 7 (Action.client 0 Move.proceed) ++ List.replicate 4 (Action.kvWorker Move.proceed)

/-- What follows: backend 1 starts an `OpenRequest`, takes `mutex` and `full`, and tries
the one response slot, which backend 0 still leases. -/
def openAfterExitScript : List (Action 2) :=
  Action.client 1 (Move.invoke (Call.openRequest 0 false 0)) ::
    List.replicate 5 (Action.client 1 Move.proceed)

set_option maxRecDepth 8000 in
/-- A CLOSE of a relation no backend opened makes `CloseResponse` raise: the worker exits,
and while backend 1 goes on to lease a slot, backend 0 waits on its response slot for
ever. -/
theorem close_unopened_hangs : ∃ s u : State 2 WorkerTables,
    Reachable Storage.emptyProtocol (fun _ => 7) s ∧ s.kvWorker = .exited ∧
      Relation.ReflTransGen (Step Storage.emptyProtocol) s u ∧
      (s.clients 0).phase = .waitSync 0 ∧ s.responseSync 0 = 0 ∧
      (s.clients 1).phase = .idle ∧ (u.clients 1).phase = .lease 0 ∧
      u.kvWorker = .exited ∧ u.responses = s.responses ∧ u.synced = s.synced ∧
      ∀ c slot, (s.clients c).phase = .waitSync slot → s.responseSync slot = 0 →
        (u.clients c).phase = .waitSync slot ∧
          ∀ move, move ≠ .interrupt → step Storage.emptyProtocol u (.client c move) = none := by
  obtain ⟨s, ran, facts⟩ := Option.map_eq_some'.mp (show (runWith
      (fun _ action => !action.interrupts) Storage.emptyProtocol
      (State.init Storage.emptyProtocol fun (_ : Fin 2) => 7) closeUnopenedScript).map (fun s =>
      s.kvWorker == .exited && (s.clients 0).phase == .waitSync 0 && s.responseSync 0 == 0 &&
        (s.clients 1).phase == .idle) = some true by decide)
  obtain ⟨u, continued, leasing⟩ := Option.map_eq_some'.mp (show (runWith
      (fun _ action => !action.interrupts) Storage.emptyProtocol
      (State.init Storage.emptyProtocol fun (_ : Fin 2) => 7)
      (closeUnopenedScript ++ openAfterExitScript)).map (fun u =>
      (u.clients 1).phase == .lease 0) = some true by decide)
  rw [runWith_append, ran, Option.some_bind] at continued
  simp only [Bool.and_eq_true, beq_iff_eq] at facts
  obtain ⟨⟨⟨exited, waiting⟩, blocked⟩, idle⟩ := facts
  have reachable := step_of_run _ ran
  have later := step_of_run _ continued
  exact ⟨s, u, reachable, exited, later, waiting, blocked, idle, beq_iff_eq.mp leasing,
    worker_exit_hangs_waiters reachable exited later⟩

end Exited

end KvFdw.Shm

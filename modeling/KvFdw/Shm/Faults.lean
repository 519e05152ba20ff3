import KvFdw.Shm.Ledger

/-!
# Error paths, interrupted waits and long frames

The runs that leave the invariants of the other modules.
-/

set_option autoImplicit false

namespace KvFdw.Shm

variable {n : Nat} {σ : Type}

/-! ## Errors raised while holding the command slot -/

section Errors

variable {P : Protocol σ} {pids : Fin n → Nat} {s t u : State n σ}

theorem ClientTransition.fullTokens_of_raises {c : Fin n} {move : Move}
    (tr : ClientTransition P s c move t) (raises : (Action.client c move).raises P s = true) :
    t.fullTokens + (s.clients c).phase.fullHeld = s.fullTokens := by
  have bound := le_countClients s.clients c Phase.fullHeld
  cases tr <;> simp only [Action.raises, *] at raises <;> (try contradiction) <;>
    simp only [State.fullTokens, State.clients_setClient, countClients_update,
      State.setClient_full, State.setClient_worker, State.setClient_kvWorker, *] at bound ⊢ <;>
    simp [Phase.fullHeld, *] at * <;> omega

/-- A client that raises an error while it holds the command slot (`PutRequest`'s
"tuple is too long", `KVGetOptions` failing in `OpenRequest`, `SemTryWait` failing in
`GetResponseQueueIndex`) takes the slot's only token with it: from then on, in every run
without interrupted waits, `full` and `worker` stay at zero and every request waiting on
`full` is blocked. -/
theorem raise_drops_full (reachable : Reachable P pids s) {c : Fin n} {move : Move}
    (holding : (s.clients c).phase.fullHeld = 1)
    (raises : (Action.client c move).raises P s = true)
    (raised : step P s (.client c move) = some t)
    (later : Relation.ReflTransGen (Step P) t u) :
    u.full = 0 ∧ u.worker = 0 ∧
      ∀ d, (u.clients d).phase = .waitFull → step P u (.client d .proceed) = none := by
  have dropped := (ClientTransition.of_clientStep raised).fullTokens_of_raises raises
  have bound := reachable.fullTokens_le
  have kept := (State.TokensLE.of_steps later).2.1
  have empty : u.full = 0 ∧ u.worker = 0 := by
    unfold State.fullTokens at dropped bound kept
    omega
  refine ⟨empty.1, empty.2, fun d waiting => ?_⟩
  unfold step clientStep
  simp [waiting, empty.1]

/-- With `BUFSIZE` 32, a `PutRequest` of a four-byte key and a four-byte value builds a
36-byte frame and raises its error; the same backend's next request then waits on
`full` for ever. -/
theorem putRequest_too_long_blocks_next :
    ∃ s t u : State 1 Unit, Reachable Protocol.echo (fun _ => 7) s ∧
      (s.clients 0).phase = .errorPostLease 0 ∧
      step Protocol.echo s (.client 0 .proceed) = some t ∧
      Relation.ReflTransGen (Step Protocol.echo) t u ∧ (u.clients 0).phase = .waitFull ∧
      u.full = 0 ∧ step Protocol.echo u (.client 0 .proceed) = none :=
  let s := (runWith (Action.normal Protocol.echo) Protocol.echo
    (State.init Protocol.echo fun _ => 7) (openScript 0 [47, 107, 118] ++
      .client 0 (.invoke (.putRequest 0 [1, 2, 3, 4] [5, 6, 7, 8])) ::
      List.replicate 7 (.client 0 .proceed))).get (by decide)
  let t := (step Protocol.echo s (.client 0 .proceed)).get (by decide)
  let u := (runWith (fun _ action => !action.interrupts) Protocol.echo t
    [.client 0 (.invoke (.countRequest 0)), .client 0 .proceed]).get (by decide)
  have reachable : NormalReachable Protocol.echo (fun _ => 7) s := .of_isSome _ _
  have raised : step Protocol.echo s (.client 0 .proceed) = some t := (Option.some_get _).symm
  have later : Relation.ReflTransGen (Step Protocol.echo) t u :=
    step_of_run _ (Option.some_get _).symm
  have blocked := raise_drops_full reachable.reachable (by decide) (by decide) raised later
  ⟨s, t, u, reachable.reachable, by decide, raised, later, by decide, blocked.1,
    blocked.2.2 0 (by decide)⟩

end Errors

/-! ## Interrupted waits

`SemWait` returns -1 when `sem_wait` fails with `EINTR`, without taking a token, and no
caller of `SemWait` looks at what it returns. -/

section Interrupts

variable {P : Protocol σ} {pids : Fin n → Nat} {s : State n σ}

theorem Reachable.mutex_eq_zero_of_holder (reachable : Reachable P pids s) {c : Fin n}
    (holds : (s.clients c).phase.mutexHeld = 1) : s.mutex = 0 := by
  have bound := reachable.mutexTokens_le
  have held := le_countClients s.clients c Phase.mutexHeld
  unfold State.mutexTokens at bound
  omega

theorem Reachable.full_eq_zero_of_holder (reachable : Reachable P pids s) {c : Fin n}
    (holds : (s.clients c).phase.fullHeld = 1) : s.full = 0 := by
  have bound := reachable.fullTokens_le
  have held := le_countClients s.clients c Phase.fullHeld
  unfold State.fullTokens at bound
  omega

/-- While one client holds `mutex` and `full` and writes the area, another client whose
waits on both are interrupted goes on to write the area too; and a worker whose wait on
`worker` is interrupted copies out a command nobody posted. -/
theorem interrupted_waits_pass (reachable : Reachable P pids s) :
    (∀ (c d : Fin n) (call : Call), (s.clients c).phase = .writeFunc →
      (s.clients d).phase = .idle → (s.clients d).opened = true → call.isOpen = false →
      ∃ t, Relation.ReflTransGen (AnyStep P) s t ∧
        (t.clients c).phase = .writeFunc ∧ (t.clients d).phase = .writeFunc) ∧
    (s.kvWorker = .waitWorker → s.worker = 0 →
      ∃ t, Relation.ReflTransGen (AnyStep P) s t ∧ t.posted.length < t.copied.length) := by
  refine ⟨fun c d call writing idle opened notOpen => ?_, fun waiting empty => ?_⟩
  · have other : c ≠ d := by rintro rfl; rw [writing] at idle; cases idle
    have mutex := reachable.mutex_eq_zero_of_holder (c := c) (by rw [writing]; rfl)
    have full := reachable.full_eq_zero_of_holder (c := c) (by rw [writing]; rfl)
    have invoked : ClientTransition P s d (.invoke call) _ := .invoke idle (by simp [opened])
    refine ⟨_, .head invoked.anyStep
      (.head (ClientTransition.waitMutexInterrupted (c := d) (by simp) (by simpa using mutex)).anyStep
      (.single (ClientTransition.waitFullInterrupted (c := d) (by simp [afterMutex, notOpen])
        (by simpa using full)).anyStep)), ?_, ?_⟩
    · simp [Function.update_noteq other, writing]
    · simp
  · have posted := reachable.ledger.posted_length
    rw [empty, waiting] at posted
    refine ⟨_, .head (WorkerTransition.waitWorkerInterrupted waiting empty).anyStep
      (.single (WorkerTransition.copyOut (by rfl)).anyStep), ?_⟩
    simp [posted, WorkerPhase.pendingCopy]

/-- Two backends that have opened the store: the first is about to write the area when
the second's waits on `mutex` and `full` are interrupted; the idle worker's wait is
interrupted too. -/
theorem interrupted_waits_share_area :
    ∃ s : State 2 Unit, Reachable Protocol.echo (fun _ => 7) s ∧
      (s.clients 0).phase = .writeFunc ∧ (s.clients 1).phase = .idle ∧
      (∃ t, Relation.ReflTransGen (AnyStep Protocol.echo) s t ∧
        (t.clients 0).phase = .writeFunc ∧ (t.clients 1).phase = .writeFunc) ∧
      ∃ t, Relation.ReflTransGen (AnyStep Protocol.echo) s t ∧ t.posted.length < t.copied.length :=
  have reachable : NormalReachable Protocol.echo (fun _ : Fin 2 => 7) _ :=
    .of_isSome (openScript 0 [47, 107, 118] ++ .client 1 (.invoke (.openRequest 1 false 0)) ::
      List.replicate 6 (.client 1 .proceed) ++ .client 1 (.options [47, 107, 118]) ::
      List.replicate 2 (.client 1 .proceed) ++ List.replicate 5 (.kvWorker .proceed) ++
      List.replicate 2 (.client 1 .proceed) ++ .client 0 (.invoke (.countRequest 0)) ::
      List.replicate 2 (.client 0 .proceed)) (by decide)
  have passing := interrupted_waits_pass reachable.reachable
  ⟨_, reachable.reachable, by decide, by decide,
    passing.1 0 1 (.countRequest 0) (by decide) (by decide) (by decide) rfl,
    passing.2 (by decide) (by decide)⟩

end Interrupts

/-! ## Frames longer than the area -/

section Overflow

variable {P : Protocol σ} {pids : Fin n → Nat} {s : State n σ}

/-- `GetRequest`, `DeleteRequest` and `RangeQueryRequest` never compare their frame with
`BUFSIZE`, and `PutRequest` compares only after writing all of it: the write of the body
puts every byte of a frame longer than the area into it, past its `BUFSIZE` bytes, in a
step that raises no error. -/
theorem writeBody_overflows_area (reachable : Reachable P pids s) {c : Fin n} {slot : Nat}
    (writing : (s.clients c).phase = .writeBody slot)
    (long : P.bufSize < wordSize + wordSize + ((s.clients c).call.body (s.clients c).pid).length) :
    ∃ t, step P s (.client c .proceed) = some t ∧ (Action.client c .proceed).raises P s = false ∧
      (t.clients c).frame.length =
        wordSize + wordSize + ((s.clients c).call.body (s.clients c).pid).length ∧
      P.bufSize < (t.clients c).frame.length ∧
      t.area.read 0 (t.clients c).frame.length = (t.clients c).frame := by
  have tr := ClientTransition.writeBody (P := P) writing
  have later : Reachable P pids _ := reachable.tail ⟨.client c .proceed, rfl, tr.clientStep_eq⟩
  have shaped := (reachable.wellFormed c).shaped
  simp only [writing, Phase.Shaped] at shaped
  have length : (s.clients c).frame.length = wordSize := by rw [shaped.2]; rfl
  refine ⟨_, tr.clientStep_eq, by simp [Action.raises, writing], ?_, ?_,
    later.ledger.writer c (by simp)⟩
  · simp [length, wordSize]
    omega
  · simp [length, wordSize] at long ⊢
    omega

/-- With `BUFSIZE` 32, a `GetRequest` of a 13-byte key writes a 33-byte frame into the
area and raises no error. -/
theorem getRequest_long_key_overflows :
    ∃ s : State 1 Unit, Reachable Protocol.echo (fun _ => 7) s ∧
      (s.clients 0).call = .getRequest 0 (List.replicate 13 107) ∧
      (s.clients 0).phase = .writeBody 0 ∧
      ∃ t, step Protocol.echo s (.client 0 .proceed) = some t ∧
        Protocol.echo.bufSize < (t.clients 0).frame.length ∧
        t.area.read 0 (t.clients 0).frame.length = (t.clients 0).frame :=
  have reachable : NormalReachable Protocol.echo (fun _ : Fin 1 => 7) _ :=
    .of_isSome (openScript 0 [47, 107, 118] ++
      .client 0 (.invoke (.getRequest 0 (List.replicate 13 107))) ::
      List.replicate 4 (.client 0 .proceed)) (by decide)
  have overflow := writeBody_overflows_area (c := 0) reachable.reachable
    (show _ = Phase.writeBody 0 by decide) (by decide)
  ⟨_, reachable.reachable, by decide, by decide, overflow.imp fun _ written =>
    ⟨written.1, written.2.2.2⟩⟩

end Overflow

end KvFdw.Shm

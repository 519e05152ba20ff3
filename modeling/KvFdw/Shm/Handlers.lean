import KvFdw.Shm.Commands
import KvFdw.Shm.Delivery

/-!
# The handlers in a run

Every posted command is the whole `Call.frame` of some call, so the handler the worker
dispatches takes the fields of the request a client posted.
-/

set_option autoImplicit false

namespace KvFdw.Shm

variable {n : Nat} {σ : Type}

/-! ## Whole commands -/

/-- What a client has written from the check of its command's size until it releases its
slot: the whole command of its call, with the path `KVGetOptions` gave for
`OpenRequest`. -/
def Phase.Framed (call : Call) (pid : Nat) (frame : List UInt8) : Phase → Prop
  | .checkSize slot | .postWorker slot | .postMutex slot | .waitSync slot | .readResponse slot
  | .mapSegment slot | .postLease slot => ∃ path, frame = call.frame pid slot path
  | _ => True

/-- Every client that may post `worker`, or has posted it, has written a whole command, and
every command posted so far is the whole command of a call on a slot below `N`. -/
structure Commanded (N : Nat) (s : State n σ) : Prop where
  clients : ∀ c, (s.clients c).phase.Framed (s.clients c).call (s.clients c).pid
    (s.clients c).frame
  posted : ∀ frame ∈ s.posted, ∃ (call : Call) (pid slot : Nat) (path : List UInt8),
    slot < N ∧ frame = call.frame pid slot path

section Preservation

variable {P : Protocol σ} {s t : State n σ}

theorem ClientTransition.framed {c : Fin n} {move : Move} (tr : ClientTransition P s c move t)
    (wf : (s.clients c).WellFormed P.responseQueueLength)
    (framed : (s.clients c).phase.Framed (s.clients c).call (s.clients c).pid
      (s.clients c).frame) :
    (t.clients c).phase.Framed (t.clients c).call (t.clients c).pid (t.clients c).frame := by
  have shaped := wf.shaped
  cases tr <;> simp only [State.clients_setClient, Function.update_same] <;>
    rw [‹(s.clients c).phase = _›] at shaped framed
  case writeBody =>
    unfold afterBody
    split_ifs with isOpen
    · trivial
    all_goals
      refine ⟨[], ?_⟩
      simp [Call.frame, frameHeader, isOpen, shaped.2]
  case getOptions path _ =>
    obtain ⟨-, isOpen, written⟩ := shaped
    exact ⟨path, by simp [Call.frame, isOpen, written]⟩
  case waitMutex | waitMutexInterrupted =>
    unfold afterMutex; split <;> trivial
  case waitSync | waitSyncInterrupted =>
    unfold afterSync; split <;> exact framed
  all_goals trivial

theorem Transition.commanded {action : Action n} (tr : Transition P s action t)
    (wf : ∀ c, (s.clients c).WellFormed P.responseQueueLength)
    (inv : Commanded P.responseQueueLength s) : Commanded P.responseQueueLength t := by
  cases tr with
  | @client c _ _ tr =>
      refine ⟨fun d => ?_, ?_⟩
      · by_cases same : d = c
        · subst same; exact tr.framed (wf d) (inv.clients d)
        · rw [tr.clients_ne same]; exact inv.clients d
      · rcases tr.posted_cases with ⟨posted, -⟩ | ⟨slot, posting, posted, -⟩ <;> rw [posted]
        · exact inv.posted
        · intro frame member
          rcases List.mem_append.mp member with old | new
          · exact inv.posted frame old
          · have framed := inv.clients c
            have shaped := (wf c).shaped
            rw [posting] at framed shaped
            obtain ⟨path, whole⟩ := framed
            exact ⟨_, _, slot, path, shaped.1, (List.mem_singleton.mp new).trans whole⟩
  | kvWorker tr =>
      have posted : t.posted = s.posted := by cases tr <;> rfl
      exact ⟨tr.clients_eq ▸ inv.clients, posted ▸ inv.posted⟩
  | starter tr =>
      have posted : t.posted = s.posted := by cases tr <;> rfl
      exact ⟨tr.clients_eq ▸ inv.clients, posted ▸ inv.posted⟩

theorem Reachable.commanded {pids : Fin n → Nat} (reachable : Reachable P pids s) :
    Commanded P.responseQueueLength s :=
  reachable.induction ⟨fun _ => trivial, nofun⟩
    fun earlier inv tr _ => tr.commanded earlier.wellFormed inv

end Preservation

/-! ## What the dispatched handler takes -/

theorem handlerBuf_of_prefix (C : ShmConfig) {snapshot frame : List UInt8}
    (agrees : snapshot.take frame.length = frame) (long : wordSize ≤ frame.length) :
    ∃ rest, handlerBuf C snapshot = frame.drop wordSize ++ rest := by
  refine ⟨snapshot.drop frame.length ++ List.replicate (min wordSize C.bufSize) 0, ?_⟩
  conv_lhs => rw [handlerBuf, ← List.take_append_drop frame.length snapshot, agrees]
  rw [List.drop_append_of_le_length long, List.append_assoc]

section Dispatch

variable {P : Protocol σ} {pids : Fin n → Nat} {s : State n σ}

/-- The handler the worker dispatches takes the fields of the request a client posted.
In every state a run without interrupted waits reaches, while the worker dispatches a
command: the command is the whole command a request function wrote for some call in a
slot below `RESPONSEQUEUELENGTH`; the worker dispatches that call's `func` with that slot
as `responseId`; when the command fits in `BUFSIZE`, the handler of every call but
`RangeQueryRequest`, with its arguments values of their C types and the slot below
`2 ^ 31`, decodes exactly the call's fields; and `RangeQueryResponse` decodes the fields of
a range query but its bounds. -/
theorem handlers_take_posted_calls (reachable : Reachable P pids s) {func responseId : Nat}
    {buf : List UInt8} (dispatching : s.kvWorker = .dispatch func responseId buf) :
    ∃ (call : Call) (pid slot : Nat) (path : List UInt8),
      s.posted[s.synced]? = some (call.frame pid slot path) ∧ slot < P.responseQueueLength ∧ func = call.funcName.code ∧ responseId = slot ∧
      ((call.frame pid slot path).length ≤ P.bufSize →
        (call.isRangeQuery = false → call.Representable pid → slot < 2 ^ 31 →
          call.funcName.decode buf = some (call.command pid slot path)) ∧
        (∀ (relationId : Nat) (options : RangeQueryOptions),
          call = .rangeQueryRequest relationId options → call.Representable pid →
          FuncName.RANGEQUERY.decode buf = some (.rangeQueryResponse slot ⟨relationId, pid⟩
            { options.fields with start := none, limit := none }))) := by
  obtain ⟨-, frame, snapshot, posted, copied, rfl, rfl, rfl⟩ := reachable.dispatching dispatching
  obtain ⟨call, pid, slot, path, inRange, rfl⟩ :=
    reachable.commanded.posted _ (List.getElem?_mem posted)
  have slotSmall : slot < 2 ^ 32 := lt_of_lt_of_le inRange P.responseQueueLength_le
  refine ⟨call, pid, slot, path, posted, inRange,
    frameFunc_eq (Call.frame_header pid slot path call) call.funcName.code_lt,
    frameSlot_eq (Call.frame_header pid slot path call) slotSmall, fun fits => ?_⟩
  have agrees := reachable.ledger.copies _ _ _ posted copied
  rw [List.take_of_length_le fits] at agrees
  obtain ⟨rest, handed⟩ := handlerBuf_of_prefix P.toShmConfig agrees
    (le_trans (by decide) (Call.frame_long pid slot path call))
  rw [handed]
  refine ⟨fun notRange representable slotBelow =>
    Call.decode_frame path notRange representable slotBelow rest, ?_⟩
  rintro relationId options rfl representable
  exact Call.decode_rangeQuery_frame representable slotSmall path rest

/-- A backend that has opened a relation sends `COUNT` for relation 0, and the worker
copies the command out and dispatches it. -/
theorem count_command_dispatched :
    ∃ s : State 1 Unit, Reachable Protocol.echo (fun _ => 7) s ∧
      ∃ (func responseId : Nat) (buf : List UInt8), s.kvWorker = .dispatch func responseId buf ∧
      ∃ (call : Call) (pid slot : Nat) (path : List UInt8),
        s.posted[s.synced]? = some (call.frame pid slot path) ∧
        slot < Protocol.echo.responseQueueLength ∧ func = call.funcName.code ∧ responseId = slot ∧
        ((call.frame pid slot path).length ≤ Protocol.echo.bufSize →
          (call.isRangeQuery = false → call.Representable pid → slot < 2 ^ 31 →
            call.funcName.decode buf = some (call.command pid slot path)) ∧
          (∀ (relationId : Nat) (options : RangeQueryOptions),
            call = .rangeQueryRequest relationId options → call.Representable pid →
            FuncName.RANGEQUERY.decode buf = some (.rangeQueryResponse slot ⟨relationId, pid⟩
              { options.fields with start := none, limit := none }))) := by
  obtain ⟨s, ran⟩ := Option.isSome_iff_exists.mp (show (runWith (Action.normal Protocol.echo)
      Protocol.echo (State.init Protocol.echo fun (_ : Fin 1) => 7)
      (openScript 0 [47, 107, 118] ++ Action.client 0 (Move.invoke (Call.countRequest 0)) ::
        List.replicate 7 (Action.client 0 Move.proceed) ++
          List.replicate 3 (Action.kvWorker Move.proceed))).isSome by decide)
  have dispatches : (s.kvWorker matches .dispatch ..) = true := by
    have mapped := congrArg (Option.map (·.kvWorker matches .dispatch ..)) ran
    rw [Option.map_some'] at mapped
    exact Option.some_injective _ (mapped.symm.trans (by decide))
  refine ⟨s, (NormalReachable.of_run _ ran).reachable, ?_⟩
  cases dispatching : s.kvWorker with
  | dispatch func responseId buf =>
      exact ⟨func, responseId, buf, rfl,
        handlers_take_posted_calls (NormalReachable.of_run _ ran).reachable dispatching⟩
  | _ => simp [dispatching] at dispatches

end Dispatch

end KvFdw.Shm

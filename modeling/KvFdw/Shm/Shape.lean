import KvFdw.Shm.Tokens

/-!
# What each client has written

How far a client's request function has come fixes what it has written into the area.
-/

set_option autoImplicit false

namespace KvFdw.Shm

variable {n : Nat} {σ : Type}

/-! ## Command headers -/

/-- The first eight bytes of every command: `func`, then `responseId`. -/
def frameHeader (func slot : Nat) : List UInt8 :=
  encodeU32 func ++ encodeU32 slot

/-- `func` as `KVWorkerMain` reads it from the first bytes of a command. -/
def frameFunc (frame : List UInt8) : Nat :=
  decodeLE (frame.take wordSize)

/-- `responseId` as `KVWorkerMain` reads it from a command. -/
def frameSlot (frame : List UInt8) : Nat :=
  decodeLE ((frame.drop wordSize).take wordSize)

@[simp] theorem length_frameHeader (func slot : Nat) : (frameHeader func slot).length = 8 := rfl

theorem take_frameHeader_append (func slot : Nat) (rest : List UInt8) :
    (frameHeader func slot ++ rest).take 8 = frameHeader func slot :=
  List.take_left' rfl

theorem take_eight_append {frame rest : List UInt8} {func slot : Nat}
    (header : frame.take 8 = frameHeader func slot) :
    (frame ++ rest).take 8 = frameHeader func slot := by
  have long : 8 ≤ frame.length := by
    have := congrArg List.length header
    simp only [List.length_take, length_frameHeader] at this
    omega
  rw [List.take_append_of_le_length long, header]

theorem frameFunc_eq {frame : List UInt8} {func slot : Nat}
    (header : frame.take 8 = frameHeader func slot) (small : func < 2 ^ 32) :
    frameFunc frame = func := by
  have first : frame.take wordSize = encodeU32 func := by
    rw [show wordSize = min 4 8 from rfl, ← List.take_take, header]
    exact List.take_left' rfl
  rw [frameFunc, first, decodeLE_encodeU32 small]

theorem frameSlot_eq {frame : List UInt8} {func slot : Nat}
    (header : frame.take 8 = frameHeader func slot) (small : slot < 2 ^ 32) :
    frameSlot frame = slot := by
  have second : (frame.drop wordSize).take wordSize = encodeU32 slot := by
    rw [show wordSize = 4 from rfl, show (frame.drop 4).take 4 = (frame.take 8).drop 4 by
      rw [List.drop_take], header]
    exact List.drop_left' rfl
  rw [frameSlot, second, decodeLE_encodeU32 small]

/-! ## Well-formed clients -/

/-- What a client has written in each phase of its request function, and that the slot
it scans or leases is in range. -/
def Phase.Shaped (N : Nat) (call : Call) (pid : Nat) (frame : List UInt8) : Phase → Prop
  | .lease slot | .writeBody slot => slot < N ∧ frame = encodeU32 call.funcName.code
  | .getOptions slot =>
      slot < N ∧ call.isOpen = true ∧ frame = frameHeader call.funcName.code slot ++ call.body pid
  | .checkSize slot | .errorPostMutex slot | .errorPostLease slot | .postWorker slot
  | .postMutex slot | .waitSync slot | .readResponse slot | .mapSegment slot
  | .postLease slot => slot < N ∧ frame.take 8 = frameHeader call.funcName.code slot
  | _ => True

/-- A client as its request function leaves it at every step. -/
structure Client.WellFormed (N : Nat) (client : Client) : Prop where
  /-- Only `OpenRequest` runs without the `ptr` of an earlier `OpenRequest`. -/
  entitled : client.phase ≠ .idle → (client.call.isOpen || client.opened) = true
  shaped : client.phase.Shaped N client.call client.pid client.frame

theorem nextSlot_lt (C : ShmConfig) (slot : Nat) : nextSlot C slot < C.responseQueueLength := by
  have positive := C.responseQueueLength_pos
  unfold nextSlot
  split <;> omega

theorem Phase.Shaped.slot_lt {N : Nat} {call : Call} {pid : Nat} {frame : List UInt8}
    {phase : Phase} {slot : Nat} (shaped : phase.Shaped N call pid frame)
    (leased : phase.leaseSlot = some slot) : slot < N := by
  cases phase <;> simp_all [Phase.Shaped, Phase.leaseSlot]

theorem Phase.Shaped.header {N : Nat} {call : Call} {pid : Nat} {frame : List UInt8}
    {phase : Phase} {slot : Nat} (shaped : phase.Shaped N call pid frame)
    (leased : phase.leaseSlot = some slot) (written : ∀ slot, phase ≠ .writeBody slot) :
    frame.take 8 = frameHeader call.funcName.code slot := by
  cases phase <;> simp_all [Phase.Shaped, Phase.leaseSlot, take_frameHeader_append]

section Preservation

variable {P : Protocol σ} {s t : State n σ}

theorem ClientTransition.clients_ne {c d : Fin n} {move : Move}
    (tr : ClientTransition P s c move t) (other : d ≠ c) : t.clients d = s.clients d := by
  cases tr <;> simp [Function.update_noteq other]

theorem WorkerTransition.clients_eq {move : Move} (tr : WorkerTransition P s move t) :
    t.clients = s.clients := by
  cases tr <;> rfl

theorem StarterTransition.clients_eq {move : Move} (tr : StarterTransition P s move t) :
    t.clients = s.clients := by
  cases tr <;> rfl

theorem ClientTransition.wellFormed {c : Fin n} {move : Move}
    (tr : ClientTransition P s c move t)
    (wf : (s.clients c).WellFormed P.responseQueueLength) :
    (t.clients c).WellFormed P.responseQueueLength := by
  obtain ⟨entitled, shaped⟩ := wf
  cases tr <;> simp only [State.clients_setClient, Function.update_same] <;>
    rw [‹(s.clients c).phase = _›] at entitled shaped <;> refine ⟨fun active => ?_, ?_⟩
  case waitMutex.refine_2 | waitMutexInterrupted.refine_2 =>
    unfold afterMutex; split <;> trivial
  case waitSync.refine_2 | waitSyncInterrupted.refine_2 =>
    unfold afterSync; split <;> exact shaped
  case writeBody.refine_2 =>
    obtain ⟨inRange, written⟩ := shaped
    unfold afterBody
    split_ifs with isOpen
    · exact ⟨inRange, isOpen, by rw [written, frameHeader, List.append_assoc]⟩
    all_goals exact ⟨inRange, by
      rw [written, ← List.append_assoc]; exact take_frameHeader_append _ _ _⟩
  all_goals simp only [Phase.Shaped] at shaped ⊢
  all_goals first
    | exact absurd rfl active
    | exact entitled nofun
    | assumption
    | trivial
    | exact shaped
    | exact ⟨P.responseQueueLength_pos, trivial⟩
    | exact ⟨nextSlot_lt _ _, shaped.2⟩
    | exact ⟨shaped.1, take_eight_append (shaped.2.2 ▸ take_frameHeader_append _ _ _)⟩

theorem Transition.wellFormed {action : Action n} (tr : Transition P s action t)
    (wf : ∀ c, (s.clients c).WellFormed P.responseQueueLength) (d : Fin n) :
    (t.clients d).WellFormed P.responseQueueLength := by
  cases tr with
  | @client c _ _ tr =>
      by_cases same : d = c
      · subst same; exact tr.wellFormed (wf d)
      · rw [tr.clients_ne same]; exact wf d
  | kvWorker tr => rw [tr.clients_eq]; exact wf d
  | starter tr => rw [tr.clients_eq]; exact wf d

theorem Reachable.wellFormed {pids : Fin n → Nat} (reachable : Reachable P pids s) (c : Fin n) :
    (s.clients c).WellFormed P.responseQueueLength :=
  reachable.induction (motive := fun s => ∀ c, (s.clients c).WellFormed _)
    (fun _ => ⟨fun active => absurd rfl active, trivial⟩)
    (fun _ wf tr _ => tr.wellFormed wf) c

end Preservation

end KvFdw.Shm

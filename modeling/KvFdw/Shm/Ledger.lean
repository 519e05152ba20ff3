import KvFdw.Shm.Start

/-!
# The command slot

The ghost logs of posted frames and of the worker's copies, and the single token that keeps
the area unchanged between them.
-/

set_option autoImplicit false

namespace KvFdw.Shm

variable {n : Nat} {σ : Type}

/-- The client phases in which the area holds what the client has written so far: from
the write of `func` to the post of `worker`, or to the error path of `PutRequest`. -/
def Phase.writing : Phase → Bool
  | .lease _ | .writeBody _ | .getOptions _ | .checkSize _ | .errorPostMutex _
  | .errorPostLease _ | .postWorker _ => true
  | _ => false

/-- How far the worker's logs have come at each point of its loop: copies taken,
responses recorded, and `responseSync` posts. -/
def WorkerPhase.Progress (copied responded synced : Nat) : WorkerPhase → Prop
  | .notStarted | .waitWorker | .copyOut => responded = copied ∧ synced = responded
  | .postFull .. | .dispatch .. => responded + 1 = copied ∧ synced = responded
  | .postSync .. => responded = copied ∧ synced + 1 = responded
  | .exited => synced ≤ responded ∧ responded ≤ copied

/-- The `buf` the worker hands its handlers, given its copy of the area. -/
def handlerBuf (C : ShmConfig) (snapshot : List UInt8) : List UInt8 :=
  snapshot.drop wordSize ++ List.replicate (min wordSize C.bufSize) 0

/-- The command the worker is serving is the oldest one not yet answered: `func`,
`responseId` and `buf` come from that command's frame and from the worker's copy. -/
def WorkerPhase.Serves (C : ShmConfig) (posted copied : List (List UInt8)) (synced : Nat) :
    WorkerPhase → Prop
  | .postFull func responseId buf | .dispatch func responseId buf =>
      ∃ frame snapshot, posted[synced]? = some frame ∧ copied[synced]? = some snapshot ∧
        func = frameFunc frame ∧ responseId = frameSlot frame ∧ buf = handlerBuf C snapshot
  | .postSync responseId terminating =>
      ∃ frame, posted[synced]? = some frame ∧ responseId = frameSlot frame ∧ terminating = false
  | _ => True

/-- What the command slot keeps true. -/
structure Ledger (P : Protocol σ) (s : State n σ) : Prop where
  /-- Every posted command is copied, or waits in `worker`, or is being copied. -/
  posted_length : s.posted.length = s.copied.length + s.worker + s.kvWorker.pendingCopy
  progress : s.kvWorker.Progress s.copied.length s.responses.length s.synced
  serves : s.kvWorker.Serves P.toShmConfig s.posted s.copied s.synced
  unstarted : s.kvWorker = .notStarted → s.posted = []
  /-- Every posted frame carries a header naming a request. -/
  framed : ∀ frame ∈ s.posted, 8 ≤ frame.length ∧ frameFunc frame ≠ FuncName.TERMINATE.code
  /-- The area starts with what the writing client has written. -/
  writer : ∀ c, (s.clients c).phase.writing = true →
    s.area.read 0 (s.clients c).frame.length = (s.clients c).frame
  /-- The area starts with the posted command the worker has not copied yet. -/
  unconsumed : ∀ (k : Nat) (frame : List UInt8), s.copied.length ≤ k → s.posted[k]? = some frame →
    s.area.read 0 frame.length = frame
  /-- Each copy agrees with its command as far as `BUFSIZE` reaches. -/
  copies : ∀ (k : Nat) (frame snapshot : List UInt8), s.posted[k]? = some frame → s.copied[k]? = some snapshot →
    snapshot.take frame.length = frame.take P.bufSize

theorem getElem?_concat_eq_some {α : Type} {list : List α} {last item : α} {k : Nat}
    (found : (list ++ [last])[k]? = some item) :
    list[k]? = some item ∨ (k = list.length ∧ last = item) := by
  rcases Nat.lt_or_ge k list.length with inside | beyond
  · exact .inl (by rwa [List.getElem?_append_left inside] at found)
  · rw [List.getElem?_append_right beyond] at found
    obtain ⟨bound, found⟩ := List.getElem?_eq_some_iff.mp found
    simp only [List.length_singleton] at bound
    exact .inr ⟨by omega, by simpa using found⟩

@[simp] theorem Phase.writing_afterMutex (call : Call) : (afterMutex call).writing = false := by
  unfold afterMutex; split <;> rfl

@[simp] theorem Phase.writing_afterBody (call : Call) (slot : Nat) :
    (afterBody call slot).writing = true := by
  unfold afterBody; split_ifs <;> rfl

@[simp] theorem Phase.writing_afterSync (call : Call) (slot : Nat) :
    (afterSync call slot).writing = false := by
  unfold afterSync; split <;> rfl

theorem getElem?_append_of_eq_some {α : Type} {list : List α} {item : α} {k : Nat}
    (found : list[k]? = some item) (rest : List α) : (list ++ rest)[k]? = some item := by
  obtain ⟨inside, _⟩ := List.getElem?_eq_some_iff.mp found
  rwa [List.getElem?_append_left inside]

theorem WorkerPhase.Serves.append {C : ShmConfig} {posted copied : List (List UInt8)}
    {synced : Nat} {phase : WorkerPhase} (serves : phase.Serves C posted copied synced)
    (frame : List UInt8) : phase.Serves C (posted ++ [frame]) copied synced := by
  cases phase with
  | postFull | dispatch =>
      obtain ⟨frame, snapshot, found, rest⟩ := serves
      exact ⟨frame, snapshot, getElem?_append_of_eq_some found _, rest⟩
  | postSync =>
      obtain ⟨frame, found, rest⟩ := serves
      exact ⟨frame, getElem?_append_of_eq_some found _, rest⟩
  | _ => trivial

theorem WorkerPhase.pendingCopy_le_copying (phase : WorkerPhase) :
    phase.pendingCopy ≤ phase.copying := by
  cases phase <;> simp [WorkerPhase.pendingCopy, WorkerPhase.copying]

theorem Phase.fullHeld_of_writing {phase : Phase} (writing : phase.writing = true) :
    phase.fullHeld = 1 := by
  cases phase <;> simp_all [Phase.writing, Phase.fullHeld]

theorem framed_of_header {frame : List UInt8} {call : Call} {slot : Nat}
    (header : frame.take 8 = frameHeader call.funcName.code slot) :
    8 ≤ frame.length ∧ frameFunc frame ≠ FuncName.TERMINATE.code := by
  refine ⟨?_, ?_⟩
  · have := congrArg List.length header
    simp only [List.length_take, length_frameHeader] at this
    omega
  · rw [frameFunc_eq header (FuncName.code_lt _)]
    exact fun same => call.funcName_ne_terminate (FuncName.code_injective same)

section Preservation

variable {P : Protocol σ} {pids : Fin n → Nat} {s t : State n σ}

theorem Ledger.posted_length_of_holder (reachable : Reachable P pids s) (inv : Ledger P s)
    {c : Fin n} (holds : (s.clients c).phase.fullHeld = 1) :
    s.posted.length = s.copied.length := by
  have bound := reachable.fullTokens_le
  have held := le_countClients s.clients c Phase.fullHeld
  have pending := s.kvWorker.pendingCopy_le_copying
  have := inv.posted_length
  unfold State.fullTokens at bound
  omega

/-! ### Steps of a client -/

theorem ClientTransition.worker_frame {c : Fin n} {move : Move}
    (tr : ClientTransition P s c move t) :
    t.copied = s.copied ∧ t.responses = s.responses ∧ t.synced = s.synced ∧
      t.kvWorker = s.kvWorker ∧ t.responseQueue = s.responseQueue := by
  cases tr <;> exact ⟨rfl, rfl, rfl, rfl, rfl⟩

theorem ClientTransition.posted_cases {c : Fin n} {move : Move}
    (tr : ClientTransition P s c move t) :
    (t.posted = s.posted ∧ t.worker = s.worker) ∨
      (∃ slot, (s.clients c).phase = .postWorker slot ∧
        t.posted = s.posted ++ [(s.clients c).frame] ∧ t.worker = s.worker + 1 ∧
        t.area = s.area) := by
  cases tr with
  | postWorker current => exact .inr ⟨_, current, rfl, rfl, rfl⟩
  | _ => exact .inl ⟨rfl, rfl⟩

theorem ClientTransition.area_cases {c : Fin n} {move : Move}
    (tr : ClientTransition P s c move t) :
    t.area = s.area ∨ (s.clients c).phase.fullHeld = 1 := by
  cases tr with
  | writeFunc current | writeBody current | getOptions current =>
      exact .inr (by rw [current]; rfl)
  | _ => exact .inl rfl

theorem ClientTransition.writer_self {c : Fin n} {move : Move}
    (tr : ClientTransition P s c move t)
    (wf : (s.clients c).WellFormed P.responseQueueLength)
    (holds : (s.clients c).phase.writing = true →
      s.area.read 0 (s.clients c).frame.length = (s.clients c).frame)
    (writing : (t.clients c).phase.writing = true) :
    t.area.read 0 (t.clients c).frame.length = (t.clients c).frame := by
  have shaped := wf.shaped
  cases tr <;>
    simp only [State.setClient_clients, Function.update_same, State.setClient_area,
      Phase.writing_afterMutex, Phase.writing_afterSync] at writing ⊢ <;>
    rw [‹(s.clients c).phase = _›] at holds shaped
  case writeFunc => exact Region.read_write_self _ _ _
  case writeBody =>
    rw [show wordSize = (s.clients c).frame.length by rw [shaped.2]; rfl]
    exact Region.read_write_append (holds rfl) _
  case getOptions =>
    obtain ⟨_, isOpen, written⟩ := shaped
    rw [show openPathOffset = (s.clients c).frame.length by
      rw [written, List.length_append, Call.length_body_of_isOpen isOpen]; rfl]
    exact Region.read_write_append (holds rfl) _
  all_goals first
    | exact holds rfl
    | simp [Phase.writing] at writing

theorem ClientTransition.ledger {c : Fin n} {move : Move} (reachable : Reachable P pids s)
    (inv : Ledger P s) (tr : ClientTransition P s c move t) : Ledger P t := by
  obtain ⟨copied, responses, synced, worker, -⟩ := tr.worker_frame
  have wf := reachable.wellFormed c
  refine ⟨?_, ?_, ?_, ?_, ?_, fun d writing => ?_, fun k frame consumed found => ?_,
    fun k frame snapshot found copiedK => ?_⟩
  · rcases tr.posted_cases with ⟨posted, moreWork⟩ | ⟨_, _, posted, moreWork, _⟩ <;>
      · have := inv.posted_length
        simp only [posted, moreWork, copied, worker, List.length_append,
          List.length_singleton]
        omega
  · rw [copied, responses, synced, worker]; exact inv.progress
  · rw [copied, synced, worker]
    rcases tr.posted_cases with ⟨posted, -⟩ | ⟨_, _, posted, -⟩ <;> rw [posted]
    · exact inv.serves
    · exact inv.serves.append _
  · rw [worker]
    rcases tr.posted_cases with ⟨posted, -⟩ | ⟨slot, posting, -⟩
    · rw [posted]; exact inv.unstarted
    · have created := reachable.startInvariant.created_of_entered c
        (by simp [Client.entered, posting, Phase.pastHandshake])
      exact fun unstarted => absurd unstarted (reachable.startInvariant.started_of_created created).2
  · rcases tr.posted_cases with ⟨posted, -⟩ | ⟨slot, posting, posted, -⟩ <;> rw [posted]
    · exact inv.framed
    · intro frame member
      rcases List.mem_append.mp member with old | new
      · exact inv.framed frame old
      · have shaped := wf.shaped
        rw [posting] at shaped
        rw [List.mem_singleton.mp new]
        exact framed_of_header shaped.2
  · by_cases same : d = c
    · subst same
      exact tr.writer_self wf (inv.writer d) writing
    · rw [tr.clients_ne same] at writing ⊢
      rcases tr.area_cases with area | holds
      · rw [area]; exact inv.writer d writing
      · exact absurd (reachable.full_holder_unique holds (Phase.fullHeld_of_writing writing))
          (Ne.symm same)
  · rw [copied] at consumed
    rcases tr.posted_cases with ⟨posted, -⟩ | ⟨slot, posting, posted, -, area⟩
    · rw [posted] at found
      rcases tr.area_cases with area | holds
      · rw [area]; exact inv.unconsumed k frame consumed found
      · have := inv.posted_length_of_holder reachable holds
        have := (List.getElem?_eq_some_iff.mp found).1
        omega
    · rw [posted] at found
      have holds : (s.clients c).phase.fullHeld = 1 := by rw [posting]; rfl
      rcases getElem?_concat_eq_some found with old | ⟨-, rfl⟩
      · have := inv.posted_length_of_holder reachable holds
        have := (List.getElem?_eq_some_iff.mp old).1
        omega
      · rw [area]; exact inv.writer c (by rw [posting]; rfl)
  · rw [copied] at copiedK
    rcases tr.posted_cases with ⟨posted, -⟩ | ⟨slot, -, posted, -⟩ <;> rw [posted] at found
    · exact inv.copies k frame snapshot found copiedK
    · rcases getElem?_concat_eq_some found with old | ⟨beyond, -⟩
      · exact inv.copies k frame snapshot old copiedK
      · have := (List.getElem?_eq_some_iff.mp copiedK).1
        have := inv.posted_length
        omega

/-! ### Steps of the worker and of the start thread -/

theorem copyOutOf_of_holds {C : ShmConfig} {area : Region} {frame : List UInt8}
    (holds : area.read 0 frame.length = frame) (long : 8 ≤ frame.length) :
    copyOutOf C area =
      .postFull (frameFunc frame) (frameSlot frame) (handlerBuf C (area.read 0 C.bufSize)) := by
  have func : area.read 0 wordSize = frame.take wordSize := by
    rw [← holds, Region.take_read, Nat.min_eq_left (by simp [wordSize]; omega)]
  have slot : area.read wordSize wordSize = (frame.drop wordSize).take wordSize := by
    rw [← holds, Region.drop_read, Region.take_read,
      Nat.min_eq_left (by simp [wordSize]; omega), Nat.zero_add]
  rw [copyOutOf, workerBuf, handlerBuf, Region.drop_read, Nat.zero_add, frameFunc, frameSlot,
    func, slot]

theorem WorkerTransition.ledger {move : Move} (inv : Ledger P s)
    (tr : WorkerTransition P s move t) (calm : move ≠ .interrupt) : Ledger P t := by
  obtain ⟨postedLength, progress, serves, unstarted, framed, writer, unconsumed, copies⟩ := inv
  cases tr with
  | waitWorker current available =>
      rw [current] at postedLength progress
      exact ⟨by simp only [WorkerPhase.pendingCopy] at postedLength ⊢; omega, progress, trivial,
        nofun, framed, writer, unconsumed, copies⟩
  | waitWorkerInterrupted => exact absurd rfl calm
  | copyOut current =>
      rw [current] at postedLength progress
      simp only [WorkerPhase.pendingCopy] at postedLength
      simp only [WorkerPhase.Progress] at progress
      obtain ⟨frame, found⟩ : ∃ frame, s.posted[s.copied.length]? = some frame :=
        ⟨_, List.getElem?_eq_getElem (by omega)⟩
      have holds := unconsumed _ frame le_rfl found
      have long := (framed frame (List.getElem?_mem found)).1
      refine ⟨?_, ?_, ?_, nofun, framed, writer, fun k later consumed posted => ?_,
        fun k later snapshot posted copied => ?_⟩
      · simp only [copyOutOf, WorkerPhase.pendingCopy, List.length_append,
          List.length_singleton]
        omega
      · simp only [copyOutOf, WorkerPhase.Progress, List.length_append, List.length_singleton]
        omega
      · show WorkerPhase.Serves _ s.posted (s.copied ++ _) s.synced (copyOutOf _ s.area)
        rw [copyOutOf_of_holds holds long, progress.2, progress.1]
        exact ⟨frame, _, found, List.getElem?_concat_length _ _, rfl, rfl, rfl⟩
      · simp only [List.length_append, List.length_singleton] at consumed
        exact unconsumed k later (by omega) posted
      · rcases getElem?_concat_eq_some copied with old | ⟨rfl, rfl⟩
        · exact copies k later snapshot posted old
        · obtain rfl : later = frame := Option.some_injective _ (posted.symm.trans found)
          exact Region.take_read_of_holds holds _
  | postFullTerminate current terminate =>
      obtain ⟨frame, _, found, -, func, -⟩ := current ▸ serves
      exact absurd (func ▸ terminate) (framed frame (List.getElem?_mem found)).2
  | postFull current =>
      rw [current] at postedLength progress serves
      exact ⟨postedLength, progress, serves, nofun, framed, writer, unconsumed, copies⟩
  | dispatchRaise current =>
      rw [current] at postedLength progress
      exact ⟨postedLength, by simp only [WorkerPhase.Progress] at progress ⊢; omega, trivial,
        nofun, framed, writer, unconsumed, copies⟩
  | dispatch current =>
      rw [current] at postedLength progress serves
      obtain ⟨frame, _, found, -, -, slot, -⟩ := serves
      exact ⟨postedLength, by simp only [WorkerPhase.Progress, List.length_append,
        List.length_singleton] at progress ⊢; omega, ⟨frame, found, slot, rfl⟩, nofun, framed,
        writer, unconsumed, copies⟩
  | postSync current =>
      rw [current] at postedLength progress serves
      obtain ⟨frame, -, -, rfl⟩ := serves
      simp only [Bool.false_eq_true, if_false, WorkerPhase.pendingCopy] at postedLength ⊢
      exact ⟨postedLength, by simp only [WorkerPhase.Progress] at progress ⊢; omega, trivial,
        nofun, framed, writer, unconsumed, copies⟩

theorem StarterTransition.ledger {move : Move} (inv : Ledger P s)
    (tr : StarterTransition P s move t)
    (fresh : s.starter = .startWorker → s.kvWorker = .notStarted) : Ledger P t := by
  obtain ⟨postedLength, progress, serves, unstarted, framed, writer, unconsumed, copies⟩ := inv
  cases tr with
  | startWorker current =>
      have started := fresh current
      simp only [started, WorkerPhase.alive, Bool.false_eq_true, if_false]
      rw [started] at postedLength progress
      exact ⟨postedLength, progress, trivial, nofun, framed, writer, unconsumed, copies⟩
  | _ => exact ⟨postedLength, progress, serves, unstarted, framed, writer, unconsumed, copies⟩

theorem Transition.ledger {action : Action n} (reachable : Reachable P pids s) (inv : Ledger P s)
    (tr : Transition P s action t) (calm : action.interrupts = false) : Ledger P t := by
  cases tr with
  | client tr => exact tr.ledger reachable inv
  | kvWorker tr => exact tr.ledger inv (by rintro rfl; simp [Action.interrupts] at calm)
  | starter tr => exact tr.ledger inv reachable.unstarted_of_starting

theorem Ledger.lengths (inv : Ledger P s) :
    s.synced ≤ s.responses.length ∧ s.responses.length ≤ s.copied.length ∧
      s.copied.length ≤ s.posted.length := by
  have progress := inv.progress
  have := inv.posted_length
  refine ⟨?_, ?_, by omega⟩ <;>
    cases current : s.kvWorker <;> rw [current] at progress <;>
      simp only [WorkerPhase.Progress] at progress <;> omega

theorem Ledger.init : Ledger P (State.init P pids) where
  posted_length := rfl
  progress := ⟨rfl, rfl⟩
  serves := trivial
  unstarted _ := rfl
  framed _ := nofun
  writer _ := nofun
  unconsumed _ _ _ := nofun
  copies _ _ _ := nofun

theorem Reachable.ledger (reachable : Reachable P pids s) : Ledger P s :=
  reachable.induction .init fun earlier inv tr calm => tr.ledger earlier inv calm

theorem Transition.copied_cases {action : Action n} (tr : Transition P s action t) :
    t.copied = s.copied ∨ t.copied = s.copied ++ [s.area.read 0 P.bufSize] := by
  cases tr with
  | client tr => cases tr <;> exact .inl rfl
  | kvWorker tr => cases tr <;> first | exact .inl rfl | exact .inr rfl
  | starter tr => cases tr <;> exact .inl rfl

theorem Transition.copied_length {action : Action n} (tr : Transition P s action t)
    (inv : ∀ snapshot ∈ s.copied, snapshot.length = P.bufSize) :
    ∀ snapshot ∈ t.copied, snapshot.length = P.bufSize := by
  intro snapshot member
  rcases tr.copied_cases with same | grown
  · exact inv snapshot (same ▸ member)
  · rw [grown, List.mem_append, List.mem_singleton] at member
    rcases member with old | rfl
    · exact inv snapshot old
    · exact Region.length_read s.area 0 P.bufSize

/-- Every copy the worker took of the area is `BUFSIZE` bytes long. -/
theorem Reachable.copied_length (reachable : Reachable P pids s) :
    ∀ snapshot ∈ s.copied, snapshot.length = P.bufSize :=
  reachable.induction (fun _ member => by simp [State.init] at member)
    fun _ inv tr _ => tr.copied_length inv

end Preservation

end KvFdw.Shm

import KvFdw.Shm.Ledger

/-!
# Responses

The worker answers commands in posting order, each in the slot its command leased, so a
client reads the response to its own command.
-/

set_option autoImplicit false

namespace KvFdw.Shm

variable {n : Nat} {σ : Type}

/-- The phases in which a client's command has been posted to the worker. -/
def Phase.hasPosted : Phase → Bool
  | .postMutex _ | .waitSync _ | .readResponse _ | .mapSegment _ | .postLease _ => true
  | _ => false

/-- The slot of a client that has posted its command and not yet taken its
`responseSync`. -/
def Phase.syncSlot : Phase → Option Nat
  | .postMutex slot | .waitSync slot => some slot
  | _ => none

/-- The phases after a client has taken its `responseSync`. -/
def Phase.answered : Phase → Bool
  | .readResponse _ | .mapSegment _ | .postLease _ => true
  | _ => false

/-- Whether a client waits for the `responseSync` of `slot`. -/
def Phase.syncAt (slot : Nat) (phase : Phase) : Nat :=
  if phase.syncSlot = some slot then 1 else 0

/-- What the response slots keep true. The tickets index the posted commands; the
responses are recorded in the same order, so `responses[k]` answers `posted[k]`. -/
structure Delivery (bufSize : Nat) (s : State n σ) : Prop where
  tickets : ∀ c, (s.clients c).phase.hasPosted = true →
    s.posted[(s.clients c).ticket]? = some (s.clients c).frame
  distinct : ∀ c d slot slot', (s.clients c).phase.syncSlot = some slot →
    (s.clients d).phase.syncSlot = some slot' → (s.clients c).ticket = (s.clients d).ticket →
    c = d
  /-- Every command not yet answered belongs to a client waiting on the slot it names. -/
  owners : ∀ (k : Nat) (frame : List UInt8), s.synced ≤ k → s.posted[k]? = some frame →
    ∃ c, (s.clients c).ticket = k ∧ (s.clients c).phase.syncSlot = some (frameSlot frame)
  /-- `responseSync[slot]` is posted exactly for the answered command of its waiter. -/
  sync : ∀ c slot, (s.clients c).phase.syncSlot = some slot →
    s.responseSync slot = if (s.clients c).ticket < s.synced then 1 else 0
  sync_le : ∀ slot, s.responseSync slot ≤ countClients s.clients (Phase.syncAt slot)
  answered : ∀ c, (s.clients c).phase.answered = true → (s.clients c).ticket < s.synced
  /-- The slot of a client that has not read it holds the response to the client's
  command as far as `BUFSIZE` reaches, once there is one. -/
  response : ∀ c slot (response : List UInt8),
    ((s.clients c).phase.syncSlot = some slot ∨ (s.clients c).phase = .readResponse slot) →
    s.responses[(s.clients c).ticket]? = some response →
    (s.responseQueue slot).read 0 (response.take bufSize).length = response.take bufSize

@[simp] theorem Phase.hasPosted_afterSync (call : Call) (slot : Nat) :
    (afterSync call slot).hasPosted = true := by
  unfold afterSync; split <;> rfl

@[simp] theorem Phase.syncSlot_afterSync (call : Call) (slot : Nat) :
    (afterSync call slot).syncSlot = none := by
  unfold afterSync; split <;> rfl

@[simp] theorem Phase.answered_afterSync (call : Call) (slot : Nat) :
    (afterSync call slot).answered = true := by
  unfold afterSync; split <;> rfl

theorem Phase.leaseSlot_of_syncSlot {phase : Phase} {slot : Nat}
    (waiting : phase.syncSlot = some slot) : phase.leaseSlot = some slot := by
  cases phase <;> simp_all [Phase.syncSlot, Phase.leaseSlot]

theorem Phase.hasPosted_of_syncSlot {phase : Phase} {slot : Nat}
    (waiting : phase.syncSlot = some slot) : phase.hasPosted = true := by
  cases phase <;> simp_all [Phase.syncSlot, Phase.hasPosted]

theorem Phase.hasPosted_of_answered {phase : Phase} (answered : phase.answered = true) :
    phase.hasPosted = true := by
  cases phase <;> simp_all [Phase.answered, Phase.hasPosted]

/-- A client step that leaves the response machinery alone: the client keeps its ticket
and frame, and enters no phase of the response protocol it was not already in. -/
structure QuietStep (s t : State n σ) (c : Fin n) : Prop where
  posted : t.posted = s.posted
  responseSync : t.responseSync = s.responseSync
  others : ∀ d, d ≠ c → t.clients d = s.clients d
  hasPosted : (t.clients c).phase.hasPosted = true → (s.clients c).phase.hasPosted = true ∧
    (t.clients c).ticket = (s.clients c).ticket ∧ (t.clients c).frame = (s.clients c).frame
  syncSlot : (t.clients c).phase.syncSlot = (s.clients c).phase.syncSlot
  answered : (t.clients c).phase.answered = true → (s.clients c).phase.answered = true
  reading : ∀ slot, (t.clients c).phase = .readResponse slot →
    (s.clients c).phase = .readResponse slot

section Preservation

variable {P : Protocol σ} {pids : Fin n → Nat} {s t : State n σ}

theorem ClientTransition.classify {c : Fin n} {move : Move}
    (tr : ClientTransition P s c move t) (calm : move ≠ .interrupt) :
    QuietStep s t c ∨
      (∃ slot, (s.clients c).phase = .postWorker slot ∧
        t.posted = s.posted ++ [(s.clients c).frame] ∧ t.responseSync = s.responseSync ∧
        t.clients = Function.update s.clients c
          { s.clients c with phase := .postMutex slot, ticket := s.posted.length }) ∨
      (∃ slot, (s.clients c).phase = .waitSync slot ∧ 0 < s.responseSync slot ∧
        t.posted = s.posted ∧ t.responseSync = takeAt s.responseSync slot ∧
        t.clients = Function.update s.clients c
          { s.clients c with phase := afterSync (s.clients c).call slot }) := by
  cases tr
  case postWorker current => exact .inr (.inl ⟨_, current, rfl, rfl, rfl⟩)
  case waitSync current available => exact .inr (.inr ⟨_, current, available, rfl, rfl, rfl⟩)
  case waitSyncInterrupted => exact absurd rfl calm
  all_goals
    left
    try simp only [afterMutex, afterBody]
    (try split_ifs) <;>
      refine ⟨rfl, rfl, fun d other => Function.update_noteq other _ _, ?_, ?_, ?_, ?_⟩ <;>
      simp only [State.clients_setClient, Function.update_same, *] <;>
      simp [Phase.hasPosted, Phase.syncSlot, Phase.answered]

theorem QuietStep.client {c : Fin n} (quiet : QuietStep s t c) (d : Fin n) :
    (t.clients d).phase.syncSlot = (s.clients d).phase.syncSlot ∧
      ((t.clients d).phase.hasPosted = true → (s.clients d).phase.hasPosted = true ∧
        (t.clients d).ticket = (s.clients d).ticket ∧ (t.clients d).frame = (s.clients d).frame) ∧
      ((t.clients d).phase.answered = true → (s.clients d).phase.answered = true) ∧
      (∀ slot, (t.clients d).phase = .readResponse slot →
        (s.clients d).phase = .readResponse slot) := by
  by_cases same : d = c
  · subst same; exact ⟨quiet.syncSlot, quiet.hasPosted, quiet.answered, quiet.reading⟩
  · rw [quiet.others d same]; exact ⟨rfl, fun posted => ⟨posted, rfl, rfl⟩, id, fun _ => id⟩

theorem Delivery.quiet {c : Fin n} (inv : Delivery P.bufSize s) (quiet : QuietStep s t c)
    (responses : t.responses = s.responses) (synced : t.synced = s.synced)
    (queue : t.responseQueue = s.responseQueue) : Delivery P.bufSize t := by
  have keep := quiet.client
  refine ⟨fun d posted => ?_, fun d e slot slot' waitsD waitsE same => ?_,
    fun k frame answered found => ?_, fun d slot waits => ?_, fun slot => ?_,
    fun d answered => ?_, fun d slot response waits found => ?_⟩
  · obtain ⟨posted, ticket, frame⟩ := (keep d).2.1 posted
    rw [ticket, frame, quiet.posted]; exact inv.tickets d posted
  · rw [(keep d).1] at waitsD; rw [(keep e).1] at waitsE
    rw [((keep d).2.1 (Phase.hasPosted_of_syncSlot (((keep d).1).trans waitsD))).2.1,
      ((keep e).2.1 (Phase.hasPosted_of_syncSlot (((keep e).1).trans waitsE))).2.1] at same
    exact inv.distinct d e slot slot' waitsD waitsE same
  · rw [synced] at answered; rw [quiet.posted] at found
    obtain ⟨owner, ticket, waits⟩ := inv.owners k frame answered found
    refine ⟨owner, ?_, (keep owner).1.trans waits⟩
    rw [((keep owner).2.1 (Phase.hasPosted_of_syncSlot ((keep owner).1.trans waits))).2.1, ticket]
  · have waitsBefore := (keep d).1 ▸ waits
    rw [quiet.responseSync, synced,
      ((keep d).2.1 (Phase.hasPosted_of_syncSlot waits)).2.1]
    exact inv.sync d slot waitsBefore
  · have same : countClients t.clients (Phase.syncAt slot) = countClients s.clients (Phase.syncAt slot) :=
      Finset.sum_congr rfl fun d _ => by simp only [Phase.syncAt, (keep d).1]
    rw [quiet.responseSync, same]; exact inv.sync_le slot
  · rw [((keep d).2.1 (Phase.hasPosted_of_answered answered)).2.1, synced]
    exact inv.answered d ((keep d).2.2.1 answered)
  · have posted : (t.clients d).phase.hasPosted = true := by
      rcases waits with waits | reading
      · exact Phase.hasPosted_of_syncSlot waits
      · rw [reading]; rfl
    rw [((keep d).2.1 posted).2.1, responses] at found
    rw [queue]
    refine inv.response d slot response ?_ found
    rcases waits with waits | reading
    · exact .inl ((keep d).1 ▸ waits)
    · exact .inr ((keep d).2.2.2 slot reading)

theorem Reachable.waiter_unique (reachable : Reachable P pids s) {c d : Fin n} {slot : Nat}
    (waitsC : (s.clients c).phase.leaseSlot = some slot)
    (waitsD : (s.clients d).phase.syncSlot = some slot) : c = d :=
  reachable.lease_holder_unique waitsC (Phase.leaseSlot_of_syncSlot waitsD)

theorem Delivery.ticket_lt (inv : Delivery P.bufSize s) {c : Fin n}
    (posted : (s.clients c).phase.hasPosted = true) : (s.clients c).ticket < s.posted.length :=
  (List.getElem?_eq_some_iff.mp (inv.tickets c posted)).1

theorem Delivery.posting (reachable : Reachable P pids s) (inv : Delivery P.bufSize s)
    (ledger : Ledger P s) {c : Fin n} {slot : Nat} (current : (s.clients c).phase = .postWorker slot)
    (posted : t.posted = s.posted ++ [(s.clients c).frame])
    (sync : t.responseSync = s.responseSync)
    (clients : t.clients = Function.update s.clients c
      { s.clients c with phase := .postMutex slot, ticket := s.posted.length })
    (responses : t.responses = s.responses) (synced : t.synced = s.synced)
    (queue : t.responseQueue = s.responseQueue) : Delivery P.bufSize t := by
  have lengths := ledger.lengths
  have named : frameSlot (s.clients c).frame = slot := by
    have shaped := (reachable.wellFormed c).shaped
    rw [current] at shaped
    exact frameSlot_eq shaped.2 (lt_of_lt_of_le shaped.1 P.responseQueueLength_le)
  have leased : (s.clients c).phase.leaseSlot = some slot := by rw [current]; rfl
  have free : s.responseSync slot = 0 := by
    have none : countClients s.clients (Phase.syncAt slot) = 0 := countClients_eq_zero fun d => by
      by_contra waiting
      have waits : (s.clients d).phase.syncSlot = some slot := by
        by_contra other; simp [Phase.syncAt, other] at waiting
      have same := reachable.waiter_unique leased waits
      subst same
      rw [current] at waits; cases waits
    have := inv.sync_le slot
    omega
  have others : ∀ d, d ≠ c → t.clients d = s.clients d := fun d other => by
    rw [clients, Function.update_noteq other]
  have own : t.clients c = { s.clients c with phase := .postMutex slot, ticket := s.posted.length } := by
    rw [clients, Function.update_same]
  have oldTicket : ∀ d, d ≠ c → (s.clients d).phase.hasPosted = true →
      (s.clients d).ticket < s.posted.length := fun d _ posted => inv.ticket_lt posted
  refine ⟨fun d hasPosted => ?_, fun d e slotD slotE waitsD waitsE same => ?_,
    fun k frame answered found => ?_, fun d slotD waits => ?_, fun slotD => ?_,
    fun d answered => ?_, fun d slotD response waits found => ?_⟩
  · rw [posted]
    by_cases same : d = c
    · subst same; rw [own]; exact List.getElem?_concat_length _ _
    · rw [others d same] at hasPosted ⊢
      exact getElem?_append_of_eq_some (inv.tickets d hasPosted) _
  · by_cases sameD : d = c <;> by_cases sameE : e = c
    · rw [sameD, sameE]
    · subst sameD
      rw [own] at same; rw [others e sameE] at same waitsE
      have := oldTicket e sameE (Phase.hasPosted_of_syncSlot waitsE)
      simp only at same; omega
    · subst sameE
      rw [own] at same; rw [others d sameD] at same waitsD
      have := oldTicket d sameD (Phase.hasPosted_of_syncSlot waitsD)
      simp only at same; omega
    · rw [others d sameD] at waitsD same; rw [others e sameE] at waitsE same
      exact inv.distinct d e slotD slotE waitsD waitsE same
  · rw [synced] at answered
    rw [posted] at found
    rcases getElem?_concat_eq_some found with old | ⟨rfl, rfl⟩
    · obtain ⟨owner, ticket, waits⟩ := inv.owners k frame answered old
      have other : owner ≠ c := by rintro rfl; rw [current] at waits; cases waits
      exact ⟨owner, by rw [others owner other, ticket], by rw [others owner other, waits]⟩
    · exact ⟨c, by rw [own], by rw [own, named]; rfl⟩
  · rw [sync, synced]
    by_cases same : d = c
    · subst same
      rw [own] at waits ⊢
      cases waits
      rw [free, if_neg (by simp only; omega)]
    · rw [others d same] at waits ⊢; exact inv.sync d slotD waits
  · rw [sync, clients, countClients_update, current]
    have := inv.sync_le slotD
    simp only [Phase.syncAt, Phase.syncSlot, reduceCtorEq, if_false, Nat.sub_zero]
    omega
  · rw [synced]
    by_cases same : d = c
    · subst same; rw [own] at answered; cases answered
    · rw [others d same] at answered ⊢; exact inv.answered d answered
  · rw [queue]
    by_cases same : d = c
    · subst same
      rw [own, responses] at found
      have := (List.getElem?_eq_some_iff.mp found).1
      simp only at this
      omega
    · rw [others d same] at waits found; rw [responses] at found
      exact inv.response d slotD response waits found

theorem slot_of_afterSync_eq {call : Call} {slot other : Nat}
    (reading : afterSync call slot = .readResponse other) : other = slot := by
  unfold afterSync at reading
  split at reading <;> cases reading
  rfl

theorem Delivery.taking (reachable : Reachable P pids s) (inv : Delivery P.bufSize s) {c : Fin n}
    {slot : Nat} (current : (s.clients c).phase = .waitSync slot)
    (available : 0 < s.responseSync slot) (posted : t.posted = s.posted)
    (sync : t.responseSync = takeAt s.responseSync slot)
    (clients : t.clients = Function.update s.clients c
      { s.clients c with phase := afterSync (s.clients c).call slot })
    (responses : t.responses = s.responses) (synced : t.synced = s.synced)
    (queue : t.responseQueue = s.responseQueue) : Delivery P.bufSize t := by
  have waiting : (s.clients c).phase.syncSlot = some slot := by rw [current]; rfl
  have answeredNow : (s.clients c).ticket < s.synced := by
    have := inv.sync c slot waiting
    split at this <;> omega
  have others : ∀ d, d ≠ c → t.clients d = s.clients d := fun d other => by
    rw [clients, Function.update_noteq other]
  have own : t.clients c = { s.clients c with phase := afterSync (s.clients c).call slot } := by
    rw [clients, Function.update_same]
  have otherSlot : ∀ d slotD, d ≠ c → (s.clients d).phase.syncSlot = some slotD → slotD ≠ slot :=
    fun d slotD other waits same => other (reachable.waiter_unique
      (same ▸ Phase.leaseSlot_of_syncSlot waits) waiting)
  refine ⟨fun d hasPosted => ?_, fun d e slotD slotE waitsD waitsE same => ?_,
    fun k frame later found => ?_, fun d slotD waits => ?_, fun slotD => ?_,
    fun d answered => ?_, fun d slotD response waits found => ?_⟩
  · rw [posted]
    by_cases same : d = c
    · subst same; rw [own]; exact inv.tickets d (by rw [current]; rfl)
    · rw [others d same] at hasPosted ⊢; exact inv.tickets d hasPosted
  · have leftOther : d ≠ c := by rintro rfl; rw [own] at waitsD; simp at waitsD
    have rightOther : e ≠ c := by rintro rfl; rw [own] at waitsE; simp at waitsE
    rw [others d leftOther] at waitsD same; rw [others e rightOther] at waitsE same
    exact inv.distinct d e slotD slotE waitsD waitsE same
  · rw [synced] at later; rw [posted] at found
    obtain ⟨owner, ticket, waits⟩ := inv.owners k frame later found
    have other : owner ≠ c := by rintro rfl; omega
    exact ⟨owner, by rw [others owner other, ticket], by rw [others owner other, waits]⟩
  · have other : d ≠ c := by rintro rfl; rw [own] at waits; simp at waits
    rw [others d other] at waits ⊢
    rw [sync, synced, takeAt, Function.update_noteq (otherSlot d slotD other waits)]
    exact inv.sync d slotD waits
  · have := inv.sync_le slotD
    rw [sync, clients, countClients_update, current]
    simp only [takeAt, Function.update_apply, Phase.syncAt, Phase.syncSlot_afterSync,
      Phase.syncSlot, reduceCtorEq, if_false, Nat.add_zero, Option.some.injEq]
    split_ifs <;> subst_vars <;> omega
  · rw [synced]
    by_cases same : d = c
    · subst same; rw [own]; exact answeredNow
    · rw [others d same] at answered ⊢; exact inv.answered d answered
  · rw [queue]; rw [responses] at found
    by_cases same : d = c
    · subst same
      rw [own] at waits found
      simp only [Phase.syncSlot_afterSync, reduceCtorEq, false_or] at waits
      rw [slot_of_afterSync_eq waits]
      exact inv.response d slot response (.inl waiting) found
    · rw [others d same] at waits found
      exact inv.response d slotD response waits found

/-! ### Steps of the worker -/

theorem Delivery.responding (reachable : Reachable P pids s) (inv : Delivery P.bufSize s)
    {frame response : List UInt8} (found : s.posted[s.synced]? = some frame)
    (recorded : s.responses.length = s.synced)
    (responses : t.responses = s.responses ++ [response])
    (queue : t.responseQueue = writeSlot P.toShmConfig s.responseQueue (frameSlot frame) response)
    (posted : t.posted = s.posted) (synced : t.synced = s.synced)
    (sync : t.responseSync = s.responseSync) (clients : t.clients = s.clients) :
    Delivery P.bufSize t := by
  obtain ⟨owner, ownTicket, ownWaits⟩ := inv.owners _ frame le_rfl found
  refine ⟨by rw [posted, clients]; exact inv.tickets, by rw [clients]; exact inv.distinct,
    by rw [synced, posted, clients]; exact inv.owners, by rw [sync, synced, clients]; exact inv.sync,
    by rw [sync, clients]; exact inv.sync_le, by rw [clients, synced]; exact inv.answered,
    fun d slot answer waits found => ?_⟩
  rw [clients] at waits found; rw [responses] at found
  have leased : (s.clients d).phase.leaseSlot = some slot := by
    rcases waits with waits | reading
    · exact Phase.leaseSlot_of_syncSlot waits
    · rw [reading]; rfl
  rw [queue, writeSlot, Function.update_apply]
  rcases getElem?_concat_eq_some found with old | ⟨ticket, rfl⟩
  · have below := (List.getElem?_eq_some_iff.mp old).1
    have other : slot ≠ frameSlot frame := by
      rintro rfl
      have := reachable.waiter_unique leased ownWaits
      subst this
      omega
    rw [if_neg other]
    exact inv.response d slot answer waits old
  · have same : d = owner := by
      rcases waits with waits | reading
      · exact inv.distinct d owner slot _ waits ownWaits (by omega)
      · have := inv.answered d (by rw [reading]; rfl)
        omega
    subst same
    have := Phase.leaseSlot_of_syncSlot ownWaits
    rw [leased] at this
    cases this
    rw [if_pos rfl, Region.read_write_self]

theorem Delivery.syncing (reachable : Reachable P pids s) (inv : Delivery P.bufSize s)
    {frame : List UInt8} (found : s.posted[s.synced]? = some frame)
    (sync : t.responseSync = postAt s.responseSync (frameSlot frame))
    (synced : t.synced = s.synced + 1) (posted : t.posted = s.posted)
    (responses : t.responses = s.responses) (queue : t.responseQueue = s.responseQueue)
    (clients : t.clients = s.clients) : Delivery P.bufSize t := by
  obtain ⟨owner, ownTicket, ownWaits⟩ := inv.owners _ frame le_rfl found
  have ownSync := inv.sync owner _ ownWaits
  rw [ownTicket, if_neg (lt_irrefl _)] at ownSync
  have otherSlot : ∀ d slot, (s.clients d).phase.syncSlot = some slot → d ≠ owner →
      slot ≠ frameSlot frame := fun d slot waits other same =>
    other (reachable.waiter_unique (same ▸ Phase.leaseSlot_of_syncSlot waits) ownWaits)
  refine ⟨?_, ?_, fun k frame later found => ?_, fun d slot waits => ?_, fun slot => ?_,
    fun d answered => ?_, ?_⟩
  · rw [posted, clients]; exact inv.tickets
  · rw [clients]; exact inv.distinct
  · rw [clients]; rw [synced] at later; rw [posted] at found
    exact inv.owners k frame (by omega) found
  · rw [clients] at waits ⊢
    rw [sync, synced, postAt, Function.update_apply]
    by_cases same : d = owner
    · subst same
      rw [ownWaits] at waits; cases waits
      rw [if_pos rfl, ownSync, ownTicket, if_pos (Nat.lt_succ_self _)]
    · have ticketOther : (s.clients d).ticket ≠ s.synced := fun ticket =>
        same (inv.distinct d owner slot _ waits ownWaits (ticket.trans ownTicket.symm))
      rw [if_neg (otherSlot d slot waits same), inv.sync d slot waits]
      split_ifs <;> omega
  · rw [sync, clients, postAt, Function.update_apply]
    split_ifs with same
    · subst same
      have counted := le_countClients s.clients owner (Phase.syncAt (frameSlot frame))
      simp only [Phase.syncAt, ownWaits, if_true] at counted
      omega
    · exact inv.sync_le slot
  · rw [clients] at answered ⊢; rw [synced]
    exact Nat.lt_succ_of_lt (inv.answered d answered)
  · rw [clients, responses, queue]; exact inv.response

theorem Delivery.of_eq (inv : Delivery P.bufSize s) (posted : t.posted = s.posted)
    (sync : t.responseSync = s.responseSync) (clients : t.clients = s.clients)
    (responses : t.responses = s.responses) (synced : t.synced = s.synced)
    (queue : t.responseQueue = s.responseQueue) : Delivery P.bufSize t :=
  ⟨by rw [posted, clients]; exact inv.tickets, by rw [clients]; exact inv.distinct,
    by rw [synced, posted, clients]; exact inv.owners, by rw [sync, synced, clients]; exact inv.sync,
    by rw [sync, clients]; exact inv.sync_le, by rw [clients, synced]; exact inv.answered,
    by rw [clients, responses, queue]; exact inv.response⟩

theorem WorkerTransition.delivery {move : Move} (reachable : Reachable P pids s)
    (inv : Delivery P.bufSize s) (tr : WorkerTransition P s move t) (calm : move ≠ .interrupt) :
    Delivery P.bufSize t := by
  have ledger := reachable.ledger
  cases tr with
  | waitWorker => exact inv.of_eq rfl rfl rfl rfl rfl rfl
  | waitWorkerInterrupted => exact absurd rfl calm
  | copyOut => exact inv.of_eq rfl rfl rfl rfl rfl rfl
  | postFull => exact inv.of_eq rfl rfl rfl rfl rfl rfl
  | dispatchRaise => exact inv.of_eq rfl rfl rfl rfl rfl rfl
  | postFullTerminate current terminate =>
      obtain ⟨frame, _, found, -, func, -⟩ := current ▸ ledger.serves
      exact absurd (func ▸ terminate) (ledger.framed frame (List.getElem?_mem found)).2
  | dispatch current =>
      have progress := ledger.progress
      obtain ⟨frame, _, found, -, -, rfl, -⟩ := current ▸ ledger.serves
      rw [current] at progress
      exact inv.responding reachable found progress.2.symm rfl rfl rfl rfl rfl rfl
  | postSync current =>
      obtain ⟨frame, found, rfl, -⟩ := current ▸ ledger.serves
      exact inv.syncing reachable found rfl rfl rfl rfl rfl rfl

theorem ClientTransition.delivery {c : Fin n} {move : Move} (reachable : Reachable P pids s)
    (inv : Delivery P.bufSize s) (tr : ClientTransition P s c move t) (calm : move ≠ .interrupt) :
    Delivery P.bufSize t := by
  obtain ⟨-, responses, synced, -, queue⟩ := tr.worker_frame
  rcases tr.classify calm with quiet | ⟨slot, current, posted, sync, clients⟩ |
    ⟨slot, current, available, posted, sync, clients⟩
  · exact inv.quiet quiet responses synced queue
  · exact inv.posting reachable reachable.ledger current posted sync clients responses synced queue
  · exact inv.taking reachable current available posted sync clients responses synced queue

theorem Transition.delivery {action : Action n} (reachable : Reachable P pids s)
    (inv : Delivery P.bufSize s) (tr : Transition P s action t) (calm : action.interrupts = false) :
    Delivery P.bufSize t := by
  cases tr with
  | client tr => exact tr.delivery reachable inv (by rintro rfl; simp [Action.interrupts] at calm)
  | kvWorker tr => exact tr.delivery reachable inv (by rintro rfl; simp [Action.interrupts] at calm)
  | starter tr => cases tr <;> exact inv.of_eq rfl rfl rfl rfl rfl rfl

theorem Delivery.init : Delivery P.bufSize (State.init P pids) where
  tickets _ := nofun
  distinct _ _ _ _ := nofun
  owners _ _ _ := nofun
  sync _ _ := nofun
  sync_le _ := Nat.zero_le _
  answered _ := nofun
  response _ _ _ waits := by simp [State.init, Phase.syncSlot] at waits

theorem Reachable.delivery (reachable : Reachable P pids s) : Delivery P.bufSize s :=
  reachable.induction .init fun earlier inv tr calm => tr.delivery earlier inv calm

/-- While the worker dispatches, it dispatches the oldest unanswered command, from its copy
of it. -/
theorem Reachable.dispatching (reachable : Reachable P pids s) {func responseId : Nat}
    {buf : List UInt8} (current : s.kvWorker = .dispatch func responseId buf) :
    s.responses.length = s.synced ∧
      ∃ frame snapshot, s.posted[s.synced]? = some frame ∧ s.copied[s.synced]? = some snapshot ∧
        func = frameFunc frame ∧ responseId = frameSlot frame ∧
        buf = handlerBuf P.toShmConfig snapshot := by
  have progress := reachable.ledger.progress
  have serves := reachable.ledger.serves
  rw [current] at progress serves
  exact ⟨progress.2.symm, serves⟩

/-- A client reading its response slot finds there the response recorded for its own
command. -/
theorem Reachable.reading_response (reachable : Reachable P pids s) {c : Fin n} {slot : Nat}
    (reading : (s.clients c).phase = .readResponse slot) :
    s.posted[(s.clients c).ticket]? = some (s.clients c).frame ∧
      ∃ response, s.responses[(s.clients c).ticket]? = some response ∧
        (s.responseQueue slot).read 0 (response.take P.bufSize).length =
          response.take P.bufSize := by
  have lengths := reachable.ledger.lengths
  have delivery := reachable.delivery
  have answered := delivery.answered c (by rw [reading]; rfl)
  obtain ⟨response, found⟩ : ∃ response, s.responses[(s.clients c).ticket]? = some response :=
    ⟨_, List.getElem?_eq_getElem (by omega)⟩
  exact ⟨delivery.tickets c (by rw [reading]; rfl), response, found,
    delivery.response c slot response (.inr reading) found⟩

end Preservation

/-! ## Delivery -/

section Exclusion

variable {P : Protocol σ} {pids : Fin n → Nat} {s : State n σ}

end Exclusion

end KvFdw.Shm

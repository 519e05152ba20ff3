import KvFdw.Shm.Frame

/-!
# The iterator table of the kv worker

`kvIterHash` under `GetIterResponse`, `NextResponse` and `DelIterResponse`, with the
iterators handed out and released as ghost state.
-/

set_option autoImplicit false

namespace KvFdw.Shm

/-- `KVIterHashKey`. -/
structure IterKey where
  relationId : Nat
  pid : Nat
  deriving DecidableEq, Repr

/-- The key a handler copies from the start of its `area`: `relationId`, then `pid`. -/
def IterKey.read (area : List UInt8) : IterKey where
  relationId := decodeLE (area.take 4)
  pid := decodeLE ((area.drop 4).take 4)

/-- The worker's tables as the iterator handlers use them: whether `kvTableHash` has an
entry for a relation, and `kvIterHash`, where an entry's `iter` is `none` once NULL. -/
structure IterTables where
  opened : Nat → Bool
  iters : IterKey → Option (Option Nat)
  issued : Nat
  released : List Nat
  advanced : List (Option Nat)

/-- The tables before the first iterator command, with the relations `OpenResponse` has
entered. -/
def IterTables.init (opened : Nat → Bool) : IterTables where
  opened := opened
  iters := fun _ => none
  issued := 0
  released := []
  advanced := []

/-- `GetIterResponse` on its key: `HASH_ENTER` of the key, and a fresh iterator in its
entry whether or not the entry already held one. -/
def IterTables.getIter (tables : IterTables) (key : IterKey) : Option IterTables :=
  if tables.opened key.relationId then
    some { tables with
      iters := Function.update tables.iters key (some (some tables.issued))
      issued := tables.issued + 1 }
  else none

/-- `DelIterResponse` on its key: `DelIter` on the entry's iterator unless it is NULL, and
NULL in its place; the entry stays. -/
def IterTables.delIter (tables : IterTables) (key : IterKey) : Option IterTables :=
  match tables.iters key with
  | none => none
  | some none => some tables
  | some (some iter) =>
      some { tables with
        iters := Function.update tables.iters key (some none)
        released := tables.released ++ [iter] }

/-- `NextResponse` on its key: `Next` on the entry's iterator, NULL or not. -/
def IterTables.next (tables : IterTables) (key : IterKey) : Option IterTables :=
  if tables.opened key.relationId then
    (tables.iters key).map fun iter => { tables with advanced := tables.advanced ++ [iter] }
  else none

/-- `GetIterResponse(area)`, whose key starts `area`. -/
def getIterResponse (area : List UInt8) (tables : IterTables) : Option IterTables :=
  tables.getIter (IterKey.read area)

/-- `DelIterResponse(area)`, whose key starts `area`. -/
def delIterResponse (area : List UInt8) (tables : IterTables) : Option IterTables :=
  tables.delIter (IterKey.read area)

/-- `NextResponse(area)`, whose `area` starts with the `responseId`. -/
def nextResponse (area : List UInt8) (tables : IterTables) : Option IterTables :=
  tables.next (IterKey.read (area.drop 4))

/-- An iterator command with the `buf` `KVWorkerMain` copied out of the area. -/
inductive IterCommand
  | getIter (buf : List UInt8)
  | delIter (buf : List UInt8)
  | next (buf : List UInt8)

/-- The cases of `KVWorkerMain`'s switch for the iterator commands: `GetIterResponse` and
`DelIterResponse` get `buf + sizeof(responseId)`, `NextResponse` gets `buf`. -/
def IterTables.handle (tables : IterTables) : IterCommand → Option IterTables
  | .getIter buf => getIterResponse (buf.drop 4) tables
  | .delIter buf => delIterResponse (buf.drop 4) tables
  | .next buf => nextResponse buf tables

/-- The commands handled in order; `none` once a handler raises an error. -/
def IterTables.run (tables : IterTables) : List IterCommand → Option IterTables
  | [] => some tables
  | command :: rest => (tables.handle command).bind fun next => next.run rest

theorem IterTables.run_cons {tables final : IterTables} {command : IterCommand}
    {rest : List IterCommand} (ran : tables.run (command :: rest) = some final) :
    ∃ next, tables.handle command = some next ∧ next.run rest = some final :=
  Option.bind_eq_some.mp ran

/-! ## Every command -/

/-- An iterator in an entry. -/
def IterTables.Holds (tables : IterTables) (key : IterKey) (iter : Nat) : Prop :=
  tables.iters key = some (some iter)

/-- What a handler does to the entries and to the released iterators: a fresh iterator in
one entry, or the held iterator of one entry released and NULL in its place, or nothing. -/
def IterTables.Effect (tables next : IterTables) : Prop :=
  (∃ key, next.iters = Function.update tables.iters key (some (some tables.issued)) ∧
    next.issued = tables.issued + 1 ∧ next.released = tables.released) ∨
  (∃ key iter, tables.Holds key iter ∧
    next.iters = Function.update tables.iters key (some none) ∧
    next.issued = tables.issued ∧ next.released = tables.released ++ [iter]) ∨
  (next.iters = tables.iters ∧ next.issued = tables.issued ∧ next.released = tables.released)

theorem IterTables.getIter_effect {tables next : IterTables} {key : IterKey}
    (handled : tables.getIter key = some next) : tables.Effect next := by
  simp only [IterTables.getIter] at handled
  split_ifs at handled
  cases handled
  exact .inl ⟨_, rfl, rfl, rfl⟩

theorem IterTables.delIter_effect {tables next : IterTables} {key : IterKey}
    (handled : tables.delIter key = some next) : tables.Effect next := by
  simp only [IterTables.delIter] at handled
  split at handled
  · cases handled
  · cases handled
    exact .inr (.inr ⟨rfl, rfl, rfl⟩)
  · cases handled
    exact .inr (.inl ⟨_, _, ‹_›, rfl, rfl, rfl⟩)

theorem IterTables.next_effect {tables next : IterTables} {key : IterKey}
    (handled : tables.next key = some next) : tables.Effect next := by
  simp only [IterTables.next] at handled
  split_ifs at handled
  obtain ⟨_, -, rfl⟩ := Option.map_eq_some'.mp handled
  exact .inr (.inr ⟨rfl, rfl, rfl⟩)

theorem IterTables.handle_cases {tables next : IterTables} {command : IterCommand}
    (handled : tables.handle command = some next) : tables.Effect next := by
  cases command with
  | getIter buf => exact getIter_effect handled
  | delIter buf => exact delIter_effect handled
  | next buf => exact next_effect handled

/-! ## Bookkeeping that holds -/

/-- What the handlers keep true: an entry holds only an iterator handed out and not
released, no two entries hold the same iterator, and no iterator is released twice. -/
structure IterTables.Tidy (tables : IterTables) : Prop where
  held_issued : ∀ key iter, tables.Holds key iter → iter < tables.issued
  held_live : ∀ key iter, tables.Holds key iter → iter ∉ tables.released
  held_unique : ∀ key other iter, tables.Holds key iter → tables.Holds other iter → key = other
  released_nodup : tables.released.Nodup
  released_issued : ∀ iter ∈ tables.released, iter < tables.issued

theorem IterTables.Tidy.init (opened : Nat → Bool) : (IterTables.init opened).Tidy where
  held_issued _ _ held := by cases held
  held_live _ _ held := by cases held
  held_unique _ _ _ held := by cases held
  released_nodup := List.nodup_nil
  released_issued _ member := by cases member

theorem IterTables.Tidy.of_effect {tables next : IterTables} (tidy : tables.Tidy)
    (effect : tables.Effect next) : next.Tidy := by
  rcases effect with
    ⟨key, iters, issued, released⟩ | ⟨key, iter, held, iters, issued, released⟩ |
      ⟨iters, issued, released⟩
  · -- a fresh iterator: above every iterator handed out or released before
    have fresh : ∀ other old, tables.Holds other old → old ≠ tables.issued :=
      fun other old held => (tidy.held_issued other old held).ne
    refine ⟨fun other old holds => ?_, fun other old holds => ?_,
      fun first second old holdsFirst holdsSecond => ?_, released ▸ tidy.released_nodup,
      fun old member => ?_⟩
    all_goals simp only [IterTables.Holds, iters, issued, released, Function.update_apply] at *
    · split_ifs at holds
      · cases holds; omega
      · have := tidy.held_issued other old holds; omega
    · split_ifs at holds
      · cases holds
        exact fun member => absurd (tidy.released_issued _ member) (lt_irrefl _)
      · exact tidy.held_live other old holds
    · split_ifs at holdsFirst holdsSecond with isFirst isSecond isSecond
      · exact isFirst.trans isSecond.symm
      · cases holdsFirst; exact absurd rfl (fresh _ _ holdsSecond)
      · cases holdsSecond; exact absurd rfl (fresh _ _ holdsFirst)
      · exact tidy.held_unique _ _ _ holdsFirst holdsSecond
    · have := tidy.released_issued old member; omega
  · -- a release: the iterator leaves its only entry
    refine ⟨fun other old holds => ?_, fun other old holds => ?_,
      fun first second old holdsFirst holdsSecond => ?_, ?_, fun old member => ?_⟩
    all_goals simp only [IterTables.Holds, iters, issued, released, Function.update_apply] at *
    · split_ifs at holds
      · cases holds
      · exact tidy.held_issued other old holds
    · split_ifs at holds with isKey
      · cases holds
      · have other : old ≠ iter := fun same =>
          isKey (tidy.held_unique other key old holds (same ▸ held))
        simpa [other] using tidy.held_live _ old holds
    · split_ifs at holdsFirst holdsSecond
      all_goals first
        | cases holdsFirst
        | cases holdsSecond
        | exact tidy.held_unique _ _ _ holdsFirst holdsSecond
    · exact List.nodup_append.mpr ⟨tidy.released_nodup, List.nodup_singleton _,
        List.disjoint_singleton.mpr (tidy.held_live key iter held)⟩
    · rcases List.mem_append.mp member with earlier | single
      · exact tidy.released_issued old earlier
      · rw [List.mem_singleton.mp single]; exact tidy.held_issued key iter held
  · -- nothing the bookkeeping reads changes
    have holds : ∀ key iter, next.Holds key iter ↔ tables.Holds key iter := by
      simp [IterTables.Holds, iters]
    exact ⟨fun key iter held => issued ▸ tidy.held_issued key iter ((holds key iter).mp held),
      fun key iter held => released ▸ tidy.held_live key iter ((holds key iter).mp held),
      fun key other iter first second =>
        tidy.held_unique key other iter ((holds key iter).mp first) ((holds other iter).mp second),
      released ▸ tidy.released_nodup,
      fun iter member => issued ▸ tidy.released_issued iter (released ▸ member)⟩

theorem IterTables.Tidy.handle {tables next : IterTables} (tidy : tables.Tidy)
    {command : IterCommand} (handled : tables.handle command = some next) : next.Tidy :=
  tidy.of_effect (handle_cases handled)

theorem IterTables.Tidy.run {tables final : IterTables} (tidy : tables.Tidy) :
    ∀ {commands : List IterCommand}, tables.run commands = some final → final.Tidy
  | [], ran => by cases ran; exact tidy
  | _ :: _, ran => by
      obtain ⟨next, handled, ran⟩ := IterTables.run_cons ran
      exact (tidy.handle handled).run ran

/-- `DelIterResponse` releases only the iterator an entry holds, and puts NULL in its
place: in every run of iterator commands from the tables `OpenResponse` left, no iterator
is released twice or before it was handed out, no two entries hold one iterator, and no
entry holds a released one. -/
theorem iterators_released_once {opened : Nat → Bool} {commands : List IterCommand}
    {final : IterTables} (ran : (IterTables.init opened).run commands = some final) :
    final.released.Nodup ∧ (∀ iter ∈ final.released, iter < final.issued) ∧
      (∀ key other iter, final.Holds key iter → final.Holds other iter → key = other) ∧
      ∀ key iter, final.Holds key iter → iter < final.issued ∧ iter ∉ final.released :=
  have tidy := (IterTables.Tidy.init opened).run ran
  ⟨tidy.released_nodup, tidy.released_issued, tidy.held_unique,
    fun key iter held => ⟨tidy.held_issued key iter held, tidy.held_live key iter held⟩⟩

/-- One backend (pid 7) scans relation 1, reads once and ends the scan twice: its
iterator is released once. -/
theorem iterator_ended_twice_released_once :
    ∃ final : IterTables, (IterTables.init fun _ => true).run
        [.getIter (encodeU32 0 ++ encodeU32 1 ++ encodeU32 7),
          .next (encodeU32 0 ++ encodeU32 1 ++ encodeU32 7),
          .delIter (encodeU32 0 ++ encodeU32 1 ++ encodeU32 7),
          .delIter (encodeU32 0 ++ encodeU32 1 ++ encodeU32 7)] = some final ∧
      final.released = [0] ∧ final.released.Nodup := by
  refine ⟨_, (Option.some_get (by decide)).symm, by decide, ?_⟩
  exact (iterators_released_once (Option.some_get _).symm).1

/-! ## Iterators that are lost -/

/-- An iterator handed out that no entry holds and `DelIter` never released. -/
def IterTables.Lost (tables : IterTables) (iter : Nat) : Prop :=
  iter < tables.issued ∧ (∀ key, ¬tables.Holds key iter) ∧ iter ∉ tables.released

theorem IterTables.Lost.handle {tables next : IterTables} {iter : Nat} (lost : tables.Lost iter)
    {command : IterCommand} (handled : tables.handle command = some next) : next.Lost iter := by
  obtain ⟨issuedBefore, unheld, unreleased⟩ := lost
  rcases handle_cases handled with
    ⟨key, iters, issued, released⟩ | ⟨key, old, held, iters, issued, released⟩ |
      ⟨iters, issued, released⟩ <;>
    refine ⟨?_, fun other holds => ?_, ?_⟩ <;>
    simp only [IterTables.Holds, iters, issued, released, Function.update_apply,
      List.mem_append, List.mem_singleton] at * <;>
    (try split_ifs at holds) <;> (try omega)
  all_goals first
    | exact unheld other holds
    | exact unreleased
    | (cases holds; omega)
    | cases holds
    | (rintro (member | rfl)
       · exact unreleased member
       · exact unheld key held)

theorem IterTables.Lost.run {tables final : IterTables} {iter : Nat} (lost : tables.Lost iter) :
    ∀ {commands : List IterCommand}, tables.run commands = some final → final.Lost iter
  | [], ran => by cases ran; exact lost
  | _ :: _, ran => by
      obtain ⟨next, handled, ran⟩ := IterTables.run_cons ran
      exact (lost.handle handled).run ran

/-- A second `GetIterRequest` of one process on one relation, before its `DelIterRequest`,
makes `GetIterResponse` put a fresh iterator in the entry over the live one, which no
entry holds from then on and `DelIter` never releases, whatever commands follow. -/
theorem getIter_overwrites_live {opened : Nat → Bool} {before after : List IterCommand}
    {tables final : IterTables} {buf : List UInt8} {iter : Nat}
    (earlier : (IterTables.init opened).run before = some tables)
    (live : tables.Holds (IterKey.read (buf.drop 4)) iter)
    (later : tables.run (.getIter buf :: after) = some final) :
    iter < final.issued ∧ (∀ key, ¬final.Holds key iter) ∧ iter ∉ final.released := by
  have tidy := (IterTables.Tidy.init opened).run earlier
  obtain ⟨next, handled, rest⟩ := IterTables.run_cons later
  simp only [IterTables.handle, getIterResponse, IterTables.getIter] at handled
  split_ifs at handled
  cases handled
  apply IterTables.Lost.run _ rest
  refine ⟨?_, fun key holds => ?_, tidy.held_live _ _ live⟩
  · have := tidy.held_issued _ _ live
    show iter < tables.issued + 1
    omega
  · simp only [IterTables.Holds, Function.update_apply] at holds
    split_ifs at holds with isKey
    · cases holds; exact absurd (tidy.held_issued _ _ live) (lt_irrefl _)
    · exact isKey (tidy.held_unique _ _ _ holds live)

/-- One backend (pid 7) starts two scans of relation 1: the first scan's iterator is
lost. -/
theorem getIter_twice_loses_first :
    ∃ tables final : IterTables,
      (IterTables.init fun _ => true).run [.getIter (encodeU32 0 ++ encodeU32 1 ++ encodeU32 7)] =
        some tables ∧ tables.Holds ⟨1, 7⟩ 0 ∧
      tables.run [.getIter (encodeU32 0 ++ encodeU32 1 ++ encodeU32 7)] = some final ∧
      0 < final.issued ∧ (∀ key, ¬final.Holds key 0) ∧ 0 ∉ final.released := by
  refine ⟨_, _, (Option.some_get (by decide)).symm, rfl, (Option.some_get (by decide)).symm, ?_⟩
  refine getIter_overwrites_live (Option.some_get _).symm ?_ (Option.some_get _).symm
  rfl

end KvFdw.Shm

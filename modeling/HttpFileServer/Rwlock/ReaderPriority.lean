import HttpFileServer.Rwlock.Basic

/-!
# The reader-priority policy (`rd_priority_*` in `rwlock.c`)

The first reader of a cohort takes the write gate (the `write_lock` semaphore)
for all of them, calling `sem_wait` while it still holds `rw->mutex`; the last
one gives it back. A writer waits on `wr_cond` until no reader and no writer
holds, sets `writer_holding`, and takes the gate after releasing the mutex.

* `Inv` ties every counter to the threads' program counters and says that the
  gate has exactly one owner: the value of `write_lock`, the reader cohort and
  the writers past their `sem_wait` add up to one (`inv_reachable`).
* `mutual_exclusion`: at most one writer holds the lock, never with a reader.
* `Inv.live` and `not_deadlocked`: a writer blocked on `wr_cond` always has a
  thread that will wake it, so no reachable state is a deadlock.
* `blocked_reader_waits_for_writer`: a reader blocked in `reader_lock` waits only for a
  writer that holds the gate.
-/

namespace HttpFileServer.Rwlock.ReaderPriority

/-- `RD_PR_STATE`. -/
structure RdPrState where
  writerHolding : Bool
  writersWaiting : Nat
  deriving DecidableEq, Repr

/-- A reader-priority lock. -/
abbrev Lock := Rwlock RdPrState

/-- The lock `rwlock_new(READERS, n)` builds. -/
def rwlockNew : Lock := Rwlock.new { writerHolding := false, writersWaiting := 0 }

/-- Where a thread is in its calls on the lock. `rdLock`/`wrLock`: the call has begun and
waits for `rw->mutex`; `rdSem`: the first reader, holding the mutex, in `sem_wait`;
`wrWait`/`wrWoken`: a writer blocked on `wr_cond` / woken and waiting for the mutex;
`wrSem`: a writer in `sem_wait`; `reading`/`writing`: the lock is held; `wrUnlock`: a
writer in `rd_priority_wr_unlock` after its `sem_post`. -/
inductive Pc
  | idle | rdLock | rdSem | reading | wrLock | wrWait | wrWoken | wrSem | writing | wrUnlock
  deriving DecidableEq, Repr

/-- The policy's condition variable. -/
inductive Cond
  | wrCond
  deriving DecidableEq, Repr

/-- The program counters blocked on, and woken from, each condition variable. -/
def cv : Cond → Pc × Pc
  | .wrCond => (.wrWait, .wrWoken)

/-- A thread between calls may call `reader_lock` or `writer_lock`. -/
inductive Calls : Pc → Pc → Prop
  | reader : Calls .idle .rdLock
  | writer : Calls .idle .wrLock

/-- What an atomic section leaves behind. -/
abbrev Out := Lock × Pc × Wake Cond

/-- `rd_priority_rd_lock` up to its `sem_wait` (first reader) or its return. -/
def rdPriorityRdLock (s : Lock) : Out :=
  if s.readersHolding = 0 then ({ s with mutex := true }, .rdSem, .none)
  else ({ s with readersHolding := s.readersHolding + 1 }, .reading, .none)

/-- `rd_priority_rd_lock` after its `sem_wait` returned. -/
def rdPriorityRdLockHeld (s : Lock) : Out :=
  ({ s with readersHolding := s.readersHolding + 1, mutex := false }, .reading, .none)

/-- `rd_priority_rd_unlock`. -/
def rdPriorityRdUnlock (s : Lock) : Out :=
  if s.readersHolding - 1 = 0 then
    ({ s with readersHolding := s.readersHolding - 1, writeLock := s.writeLock + 1 }, .idle,
      if s.state.writersWaiting ≠ 0 then .signal .wrCond 1 else .none)
  else ({ s with readersHolding := s.readersHolding - 1 }, .idle, .none)

/-- The wait loop of `rd_priority_wr_lock` and what follows it. -/
def rdPriorityWrWait (s : Lock) : Out :=
  if s.readersHolding ≠ 0 ∨ s.state.writerHolding then (s, .wrWait, .none)
  else ({ s with state.writersWaiting := s.state.writersWaiting - 1, state.writerHolding := true },
    .wrSem, .none)

/-- `rd_priority_wr_lock` up to its `sem_wait`. -/
def rdPriorityWrLock (s : Lock) : Out :=
  rdPriorityWrWait { s with state.writersWaiting := s.state.writersWaiting + 1 }

/-- `rd_priority_wr_unlock` after its `sem_post`, under the mutex. -/
def rdPriorityWrUnlock (s : Lock) : Out :=
  ({ s with state.writerHolding := false }, .idle,
    if s.readersHolding = 0 ∧ s.state.writersWaiting ≠ 0 then .signal .wrCond 1 else .none)

/-- The atomic section a thread runs next; `none` when it is blocked. -/
def sect (s : Lock) : Pc → Option Out
  | .idle => none
  | .rdLock => locked s (rdPriorityRdLock s)
  | .rdSem => semWait s rdPriorityRdLockHeld
  | .reading => locked s (rdPriorityRdUnlock s)
  | .wrLock => locked s (rdPriorityWrLock s)
  | .wrWait => none
  | .wrWoken => locked s (rdPriorityWrWait s)
  | .wrSem => semWait s fun s => (s, .writing, .none)
  | .writing => some ({ s with writeLock := s.writeLock + 1 }, .wrUnlock, .none)
  | .wrUnlock => locked s (rdPriorityWrUnlock s)

/-- A lock and the program counters of the threads using it. -/
abbrev State (ι : Type) := Sys Lock Pc ι

/-- A new lock, no thread inside a call. -/
def init (ι : Type) : State ι := ⟨rwlockNew, fun _ => .idle⟩

variable {ι : Type} [DecidableEq ι]

/-- One step of one thread. -/
def Step : State ι → ι → State ι → Prop := Sys.Step sect Calls cv

theorem Calls.cases {a b : Pc} (h : Calls a b) : a = .idle ∧ (b = .rdLock ∨ b = .wrLock) := by
  cases h <;> simp

theorem cv_ne (c : Cond) : (cv c).1 ≠ (cv c).2 := by cases c; decide

/-- The invariant of the policy, over the lock and the number of threads at each
program counter. The counters match the threads (`readers`, `waiting`, `holding`,
`mutex`); a reader in `sem_wait` holds the mutex only while no reader holds the lock
(`mutex_readers`); the gate has exactly one owner (`gate`); and a writer blocked on
`wr_cond` has a reader or writer that will signal it, or a woken writer (`live`). -/
structure Inv (l : Lock) (n : Pc → Nat) : Prop where
  readers : l.readersHolding = n .reading
  waiting : l.state.writersWaiting = n .wrWait + n .wrWoken
  holding : n .wrSem + n .writing + n .wrUnlock = l.state.writerHolding.toNat
  mutex : n .rdSem = l.mutex.toNat
  mutex_readers : n .rdSem + min 1 l.readersHolding ≤ 1
  gate : l.writeLock + min 1 l.readersHolding + n .writing = 1
  live : 0 < n .wrWait → l.readersHolding ≠ 0 ∨ l.state.writerHolding = true ∨ 0 < n .wrWoken

/-- Every section keeps the invariant, whatever the other threads are doing. -/
theorem Inv.after_sect {l l' : Lock} {n : Pc → Nat} {p0 p : Pc} {w : Wake Cond} (hI : Inv l n)
    (h0 : 0 < n p0) (h : sect l p0 = some (l', p, w)) : Inv l' (w.moved cv (move n p0 p)) := by
  rcases l with ⟨⟨_ | _, ww⟩, rh, _ | _, gl⟩ <;>
  obtain ⟨rfl, rfl, a, m, mr, g, lv⟩ := hI <;>
  cases p0 <;> simp only [sect, locked, semWait, rdPriorityRdLock, rdPriorityRdLockHeld,
      rdPriorityRdUnlock, rdPriorityWrWait, rdPriorityWrLock, rdPriorityWrUnlock, reduceCtorEq,
      if_true, if_false, Bool.false_eq_true] at h <;>
    (try split_ifs at h with h1) <;> simp only [Option.some.injEq, Prod.mk.injEq, reduceCtorEq] at h <;>
    obtain ⟨rfl, rfl, rfl⟩ := h <;>
    (try simp only [Bool.toNat_true, Bool.toNat_false, Bool.false_eq_true, or_true, or_false,
      false_or, not_true_eq_false] at *) <;>
    constructor <;>
    simp only [Wake.moved, shift, move, cv, Bool.toNat_true, Bool.toNat_false, reduceCtorEq,
      if_true, if_false, or_false, false_or, or_true, true_or, implies_true] <;> omega

theorem Inv.after_move {l : Lock} {n : Pc → Nat} {a b : Pc} (hI : Inv l n) (ha : 0 < n a)
    (hab : (a = .idle ∧ (b = .rdLock ∨ b = .wrLock)) ∨ (a = .wrWait ∧ b = .wrWoken)) :
    Inv l (move n a b) := by
  rcases l with ⟨⟨_ | _, ww⟩, rh, mx, gl⟩ <;>
  obtain ⟨rfl, rfl, ho, m, mr, g, lv⟩ := hI <;>
  rcases hab with ⟨rfl, rfl | rfl⟩ | ⟨rfl, rfl⟩ <;> constructor <;>
    simp only [move, reduceCtorEq, if_true, if_false, Bool.false_eq_true, or_false, false_or,
      or_true, true_or, implies_true] at * <;> omega

variable [Fintype ι]

/-- The invariant of a state: its lock and the tally of its threads. -/
theorem Inv.step {s s' : State ι} {t : ι} (hI : Inv s.shared (tally s.pc)) (h : Step s t s') :
    Inv s'.shared (tally s'.pc) := by
  rcases h.tally_cases cv_ne with ⟨p, w, hsect, hn⟩ | ⟨p, hc, hl, hn⟩ | ⟨c, hpc, hl, hn⟩
  · rw [hn]; exact hI.after_sect (tally_pos_self _ _) hsect
  · rw [hn, hl]
    exact hI.after_move (tally_pos_self _ _) (.inl hc.cases)
  · rw [hn, hl]
    cases c
    exact hI.after_move (hpc ▸ tally_pos_self _ _) (.inr ⟨rfl, rfl⟩)

omit [DecidableEq ι] in
theorem inv_init : Inv (init ι).shared (tally (init ι).pc) := by
  have z : ∀ q, q ≠ .idle → tally (fun _ : ι => Pc.idle) q = 0 := fun q hq =>
    count_eq_zero_iff.2 fun t => by simp [Ne.symm hq]
  constructor <;> simp [rwlockNew, Rwlock.new, init, z]

theorem inv_reachable {s : State ι} (h : Reachable (init ι) Step s) :
    Inv s.shared (tally s.pc) :=
  Reachable.invariant (I := fun s : State ι => Inv s.shared (tally s.pc)) inv_init
    (fun _ _ _ hI hs => hI.step hs) h

/-- Mutual exclusion under the reader-priority policy. -/
theorem mutual_exclusion {s : State ι} (h : Reachable (init ι) Step s) :
    Exclusive (tally s.pc .writing) (tally s.pc .reading) s.shared :=
  exclusive_of_gate (inv_reachable h).gate (inv_reachable h).readers

/-- Some thread inside a call can always run its next section. -/
theorem Inv.progress {l : Lock} {n : Pc → Nat} (hI : Inv l n) (h : ∃ q, q ≠ .idle ∧ 0 < n q) :
    ∃ q, q ≠ .idle ∧ 0 < n q ∧ (sect l q).isSome := by
  obtain ⟨r, q, ho, m, mr, g, lv⟩ := hI
  -- a writer past `sem_wait` can always run the `sem_post` of `writer_unlock`
  by_cases hw : 0 < n .writing
  · exact ⟨.writing, by decide, hw, rfl⟩
  rcases l with ⟨⟨wh, ww⟩, rh, _ | _, gl⟩
  · -- the mutex is free, so only the gate can block; it is open unless a reader holds
    have reader : 0 < n .reading → ∃ q, q ≠ .idle ∧ 0 < n q ∧ (sect ⟨⟨wh, ww⟩, rh, false, gl⟩ q).isSome :=
      fun hr => ⟨.reading, by decide, hr, rfl⟩
    have sem : 0 < n .wrSem → ∃ q, q ≠ .idle ∧ 0 < n q ∧ (sect ⟨⟨wh, ww⟩, rh, false, gl⟩ q).isSome := by
      intro hs
      by_cases hr : 0 < n .reading
      · exact reader hr
      · have : gl ≠ 0 := by simp only at r g; omega
        exact ⟨.wrSem, by decide, hs, by simp [sect, semWait, this]⟩
    obtain ⟨q, hq, hpos⟩ := h
    cases q
    · exact absurd rfl hq
    · exact ⟨_, hq, hpos, rfl⟩
    · simp only [Bool.toNat_false] at m; omega
    · exact ⟨_, hq, hpos, rfl⟩
    · exact ⟨_, hq, hpos, rfl⟩
    · -- a blocked writer has a reader, a writer or a woken writer to run
      rcases lv hpos with hr | hh | hk
      · exact reader (by simp only at r hr; omega)
      · subst hh
        by_cases hu : 0 < n .wrUnlock
        · exact ⟨_, by decide, hu, rfl⟩
        · exact sem (by simp only [Bool.toNat_true] at ho; omega)
      · exact ⟨_, by decide, hk, rfl⟩
    · exact ⟨_, hq, hpos, rfl⟩
    · exact sem hpos
    · exact absurd hpos hw
    · exact ⟨_, hq, hpos, rfl⟩
  · -- the mutex is held by the first reader in `sem_wait`, and the gate is open for it
    have hs : n .rdSem = 1 := by simpa using m
    have : gl ≠ 0 := by simp only at mr g; omega
    exact ⟨.rdSem, by decide, by omega, by simp [sect, semWait, this]⟩

/-- No reachable state of the reader-priority policy is a deadlock. -/
theorem not_deadlocked {s : State ι} (h : Reachable (init ι) Step s) :
    ¬ s.Deadlocked sect .idle := fun hd =>
  Sys.not_deadlocked_of ((inv_reachable h).progress (Sys.exists_busy hd.1)) hd

omit [DecidableEq ι] [Fintype ι] in
/-- The first reader's `sem_wait` blocks exactly when the gate is taken. -/
theorem sect_rdSem_eq_none {l : Lock} : sect l .rdSem = none ↔ l.writeLock = 0 := by
  simp [sect, semWait]

/-- A reader blocked in `rd_priority_rd_lock`, on the gate or on the mutex held by a reader
that is itself blocked on the gate, waits for a writer that holds the gate: never for one
that only waits on `wr_cond` or has set `writer_holding` and not yet passed `sem_wait`. -/
theorem blocked_reader_waits_for_writer {s : State ι} (h : Reachable (init ι) Step s) {r : ι}
    (hr : (s.pc r = .rdSem ∧ sect s.shared .rdSem = none) ∨
      (s.pc r = .rdLock ∧ sect s.shared .rdLock = none ∧
        ∃ r', s.pc r' = .rdSem ∧ sect s.shared .rdSem = none)) :
    ∃ w, s.pc w = .writing := by
  obtain ⟨r', hr', hblocked⟩ : ∃ r', s.pc r' = .rdSem ∧ sect s.shared .rdSem = none := by
    rcases hr with ⟨hr, hb⟩ | ⟨-, -, hr'⟩
    exacts [⟨r, hr, hb⟩, hr']
  have hI := inv_reachable h
  have hsem := tally_pos_self s.pc r'
  rw [hr'] at hsem
  have hw : 0 < tally s.pc .writing := by
    have := hI.mutex_readers
    have := hI.gate
    rw [sect_rdSem_eq_none.1 hblocked] at *
    omega
  obtain ⟨w, hw⟩ := count_pos_iff.1 hw
  exact ⟨w, by simpa using hw⟩

/-- Writer `0` takes the gate; then reader `1`, the first of its cohort, calls `reader_lock`. -/
def gateHeldRun : Nat → State (Fin 2) :=
  Sys.trace sect (init (Fin 2)) [.start 0 .wrLock, .exec 0, .exec 0, .start 1 .rdLock, .exec 1]

/-- Reader `1` blocks in `sem_wait` while writer `0` holds the gate. -/
theorem gateHeldRun_blocked :
    Reachable (init (Fin 2)) Step (gateHeldRun 5) ∧
      ((gateHeldRun 5).pc 1 = .rdSem ∧ sect (gateHeldRun 5).shared .rdSem = none) ∧
      ∃ w, (gateHeldRun 5).pc w = .writing := by
  have hrun : IsRun (init (Fin 2)) Step gateHeldRun 5 := ⟨rfl, fun k hk =>
    match k, hk with
    | 0, _ => ⟨0, .call .writer⟩
    | 1, _ => ⟨0, .of_exec rfl rfl⟩
    | 2, _ => ⟨0, .of_exec rfl rfl⟩
    | 3, _ => ⟨1, .call .reader⟩
    | 4, _ => ⟨1, .of_exec rfl rfl⟩⟩
  have hreach := hrun.reachable 5 le_rfl
  exact ⟨hreach, ⟨rfl, rfl⟩, blocked_reader_waits_for_writer (r := 1) hreach (.inl ⟨rfl, rfl⟩)⟩

end HttpFileServer.Rwlock.ReaderPriority

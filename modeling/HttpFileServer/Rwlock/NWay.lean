import HttpFileServer.Rwlock.Basic
import Mathlib.Tactic.IntervalCases

/-!
# The N_WAY policy (`nway_priority_*` in `rwlock.c`)

While a writer is registered, at most `n` readers should pass before it: a reader
counts itself in `readers_passed` and waits on `rd_cond` once `n` have passed; a
writer waits on `wr_cond` while readers hold or may still pass. The first reader
of a cohort takes the write gate while it holds `rw->mutex`, and a writer's
`writer_unlock` posts the gate before it takes the mutex.

* `Inv` ties the counters to the threads' program counters, gives the gate one
  owner, bounds `readers_passed` by `n`, and says which wake-ups are pending:
  enough readers are woken to fill the `n` places (`woken`), and every blocked
  reader or writer has a thread that will wake it (`live_readers`, `live_writers`).
* `mutual_exclusion` and `not_deadlocked` hold for every lock `rwlock_new(N_WAY, n)`
  returns.
* `readers_overtake_writer` and `reader_throttled_without_writer`: neither fairness promise
  of the policy's comment holds, each shown by a run with `n = 1`.
-/

namespace HttpFileServer.Rwlock.NWay

/-- `N_WAY_STATE`. -/
structure NWayState where
  n : Nat
  readersWaiting : Nat
  readersPassed : Nat
  writersWaiting : Nat
  deriving DecidableEq, Repr

/-- An N_WAY lock. -/
abbrev Lock := Rwlock NWayState

/-- `rwlock_new(N_WAY, n)`: `NULL` for `n = 0`. -/
def rwlockNew (n : Nat) : Option Lock :=
  if n = 0 then none
  else some (Rwlock.new { n := n, readersWaiting := 0, readersPassed := 0, writersWaiting := 0 })

/-- The lock `rwlock_new(N_WAY, 1)` returns: the one `main` gives every registry slot. -/
def nway1 : Lock := Rwlock.new { n := 1, readersWaiting := 0, readersPassed := 0, writersWaiting := 0 }

theorem rwlockNew_one : rwlockNew 1 = some nway1 := rfl

theorem rwlockNew_eq_some {n : Nat} {l : Lock} : rwlockNew n = some l ↔
    0 < n ∧ l = Rwlock.new { n := n, readersWaiting := 0, readersPassed := 0, writersWaiting := 0 } := by
  unfold rwlockNew
  split_ifs with h <;> simp [h, eq_comm, Nat.pos_iff_ne_zero]

/-- Where a thread is in its calls on the lock. `rdWait`/`wrWait`: blocked on `rd_cond` /
`wr_cond`; `rdWoken`/`wrWoken`: woken and waiting for the mutex; `rdSem`: the first reader,
holding the mutex, in `sem_wait`; `wrSem`: a writer in `sem_wait`; `reading`/`writing`: the
lock is held; `wrUnlock`: a writer in `nway_priority_wr_unlock` after its `sem_post`. -/
inductive Pc
  | idle | rdLock | rdWait | rdWoken | rdSem | reading
  | wrLock | wrWait | wrWoken | wrSem | writing | wrUnlock
  deriving DecidableEq, Repr

/-- The policy's condition variables. -/
inductive Cond
  | wrCond | rdCond
  deriving DecidableEq, Repr

/-- The program counters blocked on, and woken from, each condition variable. -/
def cv : Cond → Pc × Pc
  | .wrCond => (.wrWait, .wrWoken)
  | .rdCond => (.rdWait, .rdWoken)

/-- A thread between calls may call `reader_lock` or `writer_lock`. -/
inductive Calls : Pc → Pc → Prop
  | reader : Calls .idle .rdLock
  | writer : Calls .idle .wrLock

/-- What an atomic section leaves behind. -/
abbrev Out := Lock × Pc × Wake Cond

/-- `nway_priority_rd_lock` from the test of its wait loop on: wait while `n` readers
have passed and a writer is registered; else count the pass and take the gate (first
reader) or join the readers. -/
def nwayPriorityRdWait (s : Lock) : Out :=
  if s.state.readersPassed ≥ s.state.n ∧ s.state.writersWaiting ≠ 0 then (s, .rdWait, .none)
  else
    let s := { s with
      state.readersPassed :=
        if s.state.readersPassed < s.state.n then s.state.readersPassed + 1
        else s.state.readersPassed,
      state.readersWaiting := s.state.readersWaiting - 1 }
    if s.readersHolding = 0 then ({ s with mutex := true }, .rdSem, .none)
    else ({ s with readersHolding := s.readersHolding + 1 }, .reading, .none)

/-- `nway_priority_rd_lock` up to its wait loop. -/
def nwayPriorityRdLock (s : Lock) : Out :=
  nwayPriorityRdWait { s with state.readersWaiting := s.state.readersWaiting + 1 }

/-- `nway_priority_rd_lock` after its `sem_wait` returned. -/
def nwayPriorityRdLockHeld (s : Lock) : Out :=
  ({ s with readersHolding := s.readersHolding + 1, mutex := false }, .reading, .none)

/-- The wake-up of the last reader's `nway_priority_rd_unlock`: the writer once `n`
readers have passed or none waits, else the readers that may still pass. -/
def nwayPriorityRdUnlockWake (s : NWayState) : Wake Cond :=
  if s.writersWaiting ≠ 0 then
    if s.readersPassed ≥ s.n ∨ s.readersWaiting = 0 then .signal .wrCond 1
    else if s.n - s.readersPassed > s.readersWaiting then .broadcast .rdCond
    else .signal .rdCond (s.n - s.readersPassed)
  else .broadcast .rdCond

/-- `nway_priority_rd_unlock`. -/
def nwayPriorityRdUnlock (s : Lock) : Out :=
  if s.readersHolding - 1 = 0 then
    ({ s with readersHolding := s.readersHolding - 1, writeLock := s.writeLock + 1 }, .idle,
      nwayPriorityRdUnlockWake s.state)
  else ({ s with readersHolding := s.readersHolding - 1 }, .idle, .none)

/-- The wait loop of `nway_priority_wr_lock`: wait while readers hold, or fewer than `n`
have passed and some wait. -/
def nwayPriorityWrWait (s : Lock) : Out :=
  if s.readersHolding ≠ 0 ∨ (s.state.readersPassed < s.state.n ∧ s.state.readersWaiting ≠ 0)
  then (s, .wrWait, .none)
  else (s, .wrSem, .none)

/-- `nway_priority_wr_lock` up to its `sem_wait`. -/
def nwayPriorityWrLock (s : Lock) : Out :=
  nwayPriorityWrWait { s with state.writersWaiting := s.state.writersWaiting + 1 }

/-- `nway_priority_wr_unlock` after its `sem_post`, under the mutex. -/
def nwayPriorityWrUnlock (s : Lock) : Out :=
  ({ s with state.writersWaiting := s.state.writersWaiting - 1, state.readersPassed := 0 }, .idle,
    if s.state.readersWaiting ≠ 0 then
      if s.state.readersWaiting > s.state.n then .signal .rdCond s.state.n
      else .broadcast .rdCond
    else .signal .wrCond 1)

/-- The atomic section a thread runs next; `none` when it is blocked. -/
def sect (s : Lock) : Pc → Option Out
  | .idle => none
  | .rdLock => locked s (nwayPriorityRdLock s)
  | .rdWait => none
  | .rdWoken => locked s (nwayPriorityRdWait s)
  | .rdSem => semWait s nwayPriorityRdLockHeld
  | .reading => locked s (nwayPriorityRdUnlock s)
  | .wrLock => locked s (nwayPriorityWrLock s)
  | .wrWait => none
  | .wrWoken => locked s (nwayPriorityWrWait s)
  | .wrSem => semWait s fun s => (s, .writing, .none)
  | .writing => some ({ s with writeLock := s.writeLock + 1 }, .wrUnlock, .none)
  | .wrUnlock => locked s (nwayPriorityWrUnlock s)

/-- A lock and the program counters of the threads using it. -/
abbrev State (ι : Type) := Sys Lock Pc ι

/-- The lock `l`, no thread inside a call. -/
def init (ι : Type) (l : Lock) : State ι := ⟨l, fun _ => .idle⟩

variable {ι : Type} [DecidableEq ι]

/-- One step of one thread. -/
def Step : State ι → ι → State ι → Prop := Sys.Step sect Calls cv

theorem Calls.cases {a b : Pc} (h : Calls a b) : a = .idle ∧ (b = .rdLock ∨ b = .wrLock) := by
  cases h <;> simp

theorem cv_ne (c : Cond) : (cv c).1 ≠ (cv c).2 := by cases c <;> decide

/-- The invariant of the policy, over the lock and the number of threads at each program
counter `c`. Besides the counters and the gate: `readers_passed` never exceeds `n`; as many
waiting readers are woken as may still pass before a writer (`woken`); and a blocked writer
(`live_writers`) or reader (`live_readers`) has a thread that will wake it or let it pass:
a blocked thread, counted at most once, is outnumbered by those threads. -/
structure Inv (l : Lock) (c : Pc → Nat) : Prop where
  n_pos : 0 < l.state.n
  passed : l.state.readersPassed ≤ l.state.n
  readers : l.readersHolding = c .reading
  readers_waiting : l.state.readersWaiting = c .rdWait + c .rdWoken
  writers_waiting :
    l.state.writersWaiting = c .wrWait + c .wrWoken + c .wrSem + c .writing + c .wrUnlock
  mutex : c .rdSem = l.mutex.toNat
  mutex_readers : c .rdSem + min 1 l.readersHolding ≤ 1
  gate : l.writeLock + min 1 l.readersHolding + c .writing = 1
  woken : min l.state.readersWaiting (l.state.n - l.state.readersPassed) ≤ c .rdWoken
  live_writers : min 1 (c .wrWait) ≤ l.readersHolding + c .wrWoken + c .wrSem + c .writing +
    c .wrUnlock + c .rdSem + min l.state.readersWaiting (l.state.n - l.state.readersPassed)
  live_readers : min 1 (c .rdWait) ≤
    c .rdWoken + l.readersHolding + c .rdSem + l.state.writersWaiting

/-- Every section keeps the invariant, whatever the other threads are doing. -/
theorem Inv.after_sect {l l' : Lock} {c : Pc → Nat} {p0 p : Pc} {w : Wake Cond} (hI : Inv l c)
    (h0 : 0 < c p0) (h : sect l p0 = some (l', p, w)) : Inv l' (w.moved cv (move c p0 p)) := by
  rcases l with ⟨⟨N, rw, rp, ww⟩, rh, _ | _, gl⟩ <;>
  obtain ⟨np, pn, rfl, rfl, rfl, m, mr, g, wk, lw, lr⟩ := hI <;>
  cases p0 <;> simp only [sect, locked, semWait, nwayPriorityRdLock, nwayPriorityRdWait,
      nwayPriorityRdLockHeld, nwayPriorityRdUnlock, nwayPriorityRdUnlockWake, nwayPriorityWrLock,
      nwayPriorityWrWait, nwayPriorityWrUnlock, reduceCtorEq, if_true, if_false,
      Bool.false_eq_true] at h <;>
    (try split_ifs at h) <;>
    simp only [Option.some.injEq, Prod.mk.injEq, reduceCtorEq] at h <;>
    obtain ⟨rfl, rfl, rfl⟩ := h <;>
    (try simp only [Bool.toNat_true, Bool.toNat_false, Bool.false_eq_true, or_true, or_false,
      false_or, not_true_eq_false] at *) <;>
    constructor <;>
    simp only [Wake.moved, shift, move, cv, Bool.toNat_true, Bool.toNat_false, reduceCtorEq,
      if_true, if_false, or_false, false_or, or_true, true_or, implies_true, Nat.sub_zero,
      Nat.add_zero] <;>
    -- the counters need only each other; `woken` and the liveness facts need themselves
    first | assumption | (clear wk lw lr; omega) | (clear lw lr; omega) | (clear lr; omega)

theorem Inv.after_move {l : Lock} {c : Pc → Nat} {a b : Pc} (hI : Inv l c) (ha : 0 < c a)
    (hab : (a = .idle ∧ (b = .rdLock ∨ b = .wrLock)) ∨ (a = .wrWait ∧ b = .wrWoken) ∨
      (a = .rdWait ∧ b = .rdWoken)) :
    Inv l (move c a b) := by
  obtain ⟨np, pn, r, q, ho, m, mr, g, wk, lw, lr⟩ := hI
  rcases hab with ⟨rfl, rfl | rfl⟩ | ⟨rfl, rfl⟩ | ⟨rfl, rfl⟩ <;> constructor <;>
    (try simp only [move, reduceCtorEq, if_true, if_false, Nat.sub_zero, Nat.add_zero]) <;> omega

variable [Fintype ι]

theorem Inv.step {s s' : State ι} {t : ι} (hI : Inv s.shared (tally s.pc)) (h : Step s t s') :
    Inv s'.shared (tally s'.pc) := by
  rcases h.tally_cases cv_ne with ⟨p, w, hsect, hn⟩ | ⟨p, hc, hl, hn⟩ | ⟨c, hpc, hl, hn⟩
  · rw [hn]; exact hI.after_sect (tally_pos_self _ _) hsect
  · rw [hn, hl]
    exact hI.after_move (tally_pos_self _ _) (.inl hc.cases)
  · rw [hn, hl]
    cases c
    · exact hI.after_move (hpc ▸ tally_pos_self _ _) (.inr (.inl ⟨rfl, rfl⟩))
    · exact hI.after_move (hpc ▸ tally_pos_self _ _) (.inr (.inr ⟨rfl, rfl⟩))

omit [DecidableEq ι] in
theorem inv_init {n : Nat} {l : Lock} (hl : rwlockNew n = some l) :
    Inv (init ι l).shared (tally (init ι l).pc) := by
  have z : ∀ q, q ≠ .idle → tally (fun _ : ι => Pc.idle) q = 0 := fun q hq =>
    count_eq_zero_iff.2 fun t => by simp [Ne.symm hq]
  obtain ⟨hn, rfl⟩ := rwlockNew_eq_some.1 hl
  constructor <;> simp [Rwlock.new, init, z, hn]

theorem inv_reachable {n : Nat} {l : Lock} (hl : rwlockNew n = some l) {s : State ι}
    (h : Reachable (init ι l) Step s) : Inv s.shared (tally s.pc) :=
  Reachable.invariant (I := fun s : State ι => Inv s.shared (tally s.pc)) (inv_init hl)
    (fun _ _ _ hI hs => hI.step hs) h

omit [DecidableEq ι] [Fintype ι] in
/-- No section changes `n`. -/
theorem sect_n {l l' : Lock} {p q : Pc} {w : Wake Cond} (h : sect l p = some (l', q, w)) :
    l'.state.n = l.state.n := by
  cases p <;> simp only [sect, locked, semWait, nwayPriorityRdLock, nwayPriorityRdWait,
      nwayPriorityRdLockHeld, nwayPriorityRdUnlock, nwayPriorityWrLock, nwayPriorityWrWait,
      nwayPriorityWrUnlock, reduceCtorEq] at h <;> (try split_ifs at h) <;>
    simp only [Option.some.injEq, Prod.mk.injEq, reduceCtorEq] at h <;> rw [← h.1]

omit [Fintype ι] in
/-- Every reachable state keeps the `n` the lock was built with. -/
theorem n_reachable {l : Lock} {s : State ι} (h : Reachable (init ι l) Step s) :
    s.shared.state.n = l.state.n := by
  induction h with
  | init => rfl
  | step _ hs ih =>
    cases hs with
    | exec hsect _ => exact (sect_n hsect).trans ih
    | call _ => exact ih
    | spurious _ _ => exact ih

/-- Mutual exclusion under the N_WAY policy, for every lock `rwlock_new(N_WAY, n)` returns. -/
theorem mutual_exclusion {n : Nat} {l : Lock} (hl : rwlockNew n = some l) {s : State ι}
    (h : Reachable (init ι l) Step s) :
    Exclusive (tally s.pc .writing) (tally s.pc .reading) s.shared :=
  exclusive_of_gate (inv_reachable hl h).gate (inv_reachable hl h).readers

omit [DecidableEq ι] [Fintype ι] in
/-- With the mutex free and the gate open, only a thread between calls or blocked on a
condition variable cannot run. -/
theorem sect_isSome {l : Lock} (hm : l.mutex = false) (hg : l.writeLock ≠ 0) {q : Pc}
    (hq : q = .rdLock ∨ q = .rdWoken ∨ q = .reading ∨ q = .wrLock ∨ q = .wrWoken ∨
      q = .wrSem ∨ q = .writing ∨ q = .wrUnlock) : (sect l q).isSome := by
  rcases hq with rfl | rfl | rfl | rfl | rfl | rfl | rfl | rfl <;>
    simp [sect, locked, semWait, hm, hg]

omit [DecidableEq ι] [Fintype ι] in
/-- Some thread inside a call can always run its next section. -/
theorem Inv.progress {l : Lock} {c : Pc → Nat} (hI : Inv l c) (h : ∃ q, q ≠ .idle ∧ 0 < c q) :
    ∃ q, q ≠ .idle ∧ 0 < c q ∧ (sect l q).isSome := by
  obtain ⟨np, pn, r, q, a, m, mr, g, wk, lw, lr⟩ := hI
  -- a writer past `sem_wait` can always run the `sem_post` of `writer_unlock`
  by_cases hw : 0 < c .writing
  · exact ⟨.writing, by decide, hw, rfl⟩
  rcases l with ⟨⟨N, rw, rp, ww⟩, rh, _ | _, gl⟩
  · -- the mutex is free, and the gate is open unless a reader holds
    by_cases hr : 0 < c .reading
    · exact ⟨.reading, by decide, hr, rfl⟩
    have hgl : gl ≠ 0 := by simp only at r g; omega
    -- a thread blocked on a condition variable has a thread that can run
    have : 0 < c .rdLock ∨ 0 < c .rdWoken ∨ 0 < c .wrLock ∨ 0 < c .wrWoken ∨ 0 < c .wrSem ∨
        0 < c .wrUnlock := by
      obtain ⟨q, hq, hpos⟩ := h
      cases q <;> first | exact absurd rfl hq | (simp only [Bool.toNat_false] at *; omega)
    rcases this with h | h | h | h | h | h <;>
      exact ⟨_, by decide, h, sect_isSome rfl hgl (by simp)⟩
  · -- the first reader in `sem_wait` holds the mutex, and the gate is open for it
    have hs : c .rdSem = 1 := by simpa using m
    have : gl ≠ 0 := by simp only at mr g; omega
    exact ⟨.rdSem, by decide, by omega, by simp [sect, semWait, this]⟩

/-- No reachable state of the N_WAY policy is a deadlock. -/
theorem not_deadlocked {n : Nat} {l : Lock} (hl : rwlockNew n = some l) {s : State ι}
    (h : Reachable (init ι l) Step s) : ¬ s.Deadlocked sect .idle := fun hd =>
  Sys.not_deadlocked_of ((inv_reachable hl h).progress (Sys.exists_busy hd.1)) hd

/-- The readers whose `reader_lock` returns in step `k` of `σ`. -/
def returning (σ : Nat → State ι) (k : Nat) : Finset ι :=
  Finset.univ.filter fun r => (σ k).pc r ≠ .reading ∧ (σ (k + 1)).pc r = .reading

/-- The number of `reader_lock` calls that return in steps `a, …, b - 1` of `σ`. -/
def readerReturns (σ : Nat → State ι) (a b : Nat) : Nat :=
  ((List.range' a (b - a)).map fun k => (returning σ k).card).sum

/-- The bound the N_WAY policy is meant to keep ("While a writer waits, N readers can get the
lock before the writer is guaranteed to get the lock"): over every run,
at most `n` `reader_lock` calls return after a writer's `writers_waiting++` (step `i`)
and before its `writer_lock` returns. -/
def AtMostNReadersOvertake (n : Nat) : Prop :=
  ∀ (ι : Type) [Fintype ι] [DecidableEq ι] (l : Lock) (σ : Nat → State ι) (m : Nat) (w : ι)
    (i j : Nat), rwlockNew n = some l → IsRun (init ι l) Step σ m → j ≤ m →
    (σ i).pc w = .wrLock → (σ (i + 1)).pc w ≠ .wrLock →
    (∀ k, i < k → k ≤ j → (σ k).pc w ≠ .writing) → readerReturns σ (i + 1) j ≤ n

/-- With `n = 1`: writer `0` holds the gate and writer `1` registers; reader `2` passes the
wait loop and blocks in `sem_wait` holding the mutex; writer `0`'s `sem_post` hands the
gate to reader `2` before its `readers_passed = 0`; then reader `3` passes too. -/
def overtakeSchedule : List (Act Pc (Fin 4)) :=
  [.start 0 .wrLock, .exec 0, .exec 0, .start 1 .wrLock, .exec 1, .start 2 .rdLock, .exec 2,
    .exec 0, .exec 2, .exec 0, .start 3 .rdLock, .exec 3]

/-- The run of `overtakeSchedule` from a new lock. -/
def overtakeRun : Nat → State (Fin 4) := Sys.trace sect (init (Fin 4) nway1) overtakeSchedule

theorem overtakeRun_isRun : IsRun (init (Fin 4) nway1) Step overtakeRun 12 :=
  ⟨rfl, fun k hk => match k, hk with
    | 0, _ => ⟨0, .call .writer⟩
    | 1, _ => ⟨0, .of_exec rfl rfl⟩
    | 2, _ => ⟨0, .of_exec rfl rfl⟩
    | 3, _ => ⟨1, .call .writer⟩
    | 4, _ => ⟨1, .of_exec rfl rfl⟩
    | 5, _ => ⟨2, .call .reader⟩
    | 6, _ => ⟨2, .of_exec rfl rfl⟩
    | 7, _ => ⟨0, .of_exec rfl rfl⟩
    | 8, _ => ⟨2, .of_exec rfl rfl⟩
    | 9, _ => ⟨0, .of_exec rfl (.succ (.none (by decide)) .zero)⟩
    | 10, _ => ⟨3, .call .reader⟩
    | 11, _ => ⟨3, .of_exec rfl rfl⟩⟩

/-- Two readers return while writer `1` waits, against `n = 1`. -/
theorem readers_overtake_writer : ¬ AtMostNReadersOvertake 1 := by
  intro h
  have hw : ∀ k, 4 < k → k ≤ 12 → (overtakeRun k).pc 1 ≠ .writing := by
    intro k hk hk12
    interval_cases k <;> decide
  have := h (Fin 4) nway1 overtakeRun 12 1 4 12 rfl overtakeRun_isRun le_rfl (by decide)
    (by decide) hw
  revert this
  decide

/-- The policy's "if there are no writers waiting, readers will get the lock", for every lock
`rwlock_new(N_WAY, n)` returns: no reachable state has `writers_waiting = 0` and a reader
blocked on `rd_cond` (a reader whose wake-up is pending is at `rdWoken`). -/
def ReadersNeverThrottled (n : Nat) : Prop :=
  ∀ (ι : Type) [Fintype ι] [DecidableEq ι] (l : Lock) (s : State ι), rwlockNew n = some l →
    Reachable (init ι l) Step s → s.shared.state.writersWaiting = 0 → ∀ r, s.pc r ≠ .rdWait

/-- With `n = 1`: reader `0` holds the lock, writer `1` registers and readers `2` and `3` wait
on `rd_cond`; reader `0`'s unlock wakes the writer, and the writer's `nway_priority_wr_unlock`
drops `writers_waiting` to `0` but, as two readers wait, signals only one of them. -/
def throttleSchedule : List (List (Act Pc (Fin 4))) :=
  [[.start 0 .rdLock], [.exec 0], [.exec 0], [.start 1 .wrLock], [.exec 1], [.start 2 .rdLock],
    [.exec 2], [.start 3 .rdLock], [.exec 3], [.exec 0, .start 1 .wrWoken], [.exec 1], [.exec 1],
    [.exec 1], [.exec 1, .start 2 .rdWoken]]

/-- The run of `throttleSchedule` from a new lock. -/
def throttleRun : Nat → State (Fin 4) := Sys.traceSteps sect (init (Fin 4) nway1) throttleSchedule

theorem throttleRun_isRun : IsRun (init (Fin 4) nway1) Step throttleRun 14 :=
  ⟨rfl, fun k hk => match k, hk with
    | 0, _ => ⟨0, .call .reader⟩
    | 1, _ => ⟨0, .of_exec rfl rfl⟩
    | 2, _ => ⟨0, .of_exec rfl rfl⟩
    | 3, _ => ⟨1, .call .writer⟩
    | 4, _ => ⟨1, .of_exec rfl rfl⟩
    | 5, _ => ⟨2, .call .reader⟩
    | 6, _ => ⟨2, .of_exec rfl rfl⟩
    | 7, _ => ⟨3, .call .reader⟩
    | 8, _ => ⟨3, .of_exec rfl rfl⟩
    | 9, _ => ⟨0, .exec rfl (.succ (.wake 1 rfl) .zero)⟩
    | 10, _ => ⟨1, .of_exec rfl rfl⟩
    | 11, _ => ⟨1, .of_exec rfl rfl⟩
    | 12, _ => ⟨1, .of_exec rfl rfl⟩
    | 13, _ => ⟨1, .exec rfl (.succ (.wake 2 rfl) .zero)⟩⟩

/-- After `throttleRun`, no writer is registered and reader `3` is still blocked on `rd_cond`. -/
theorem reader_throttled_without_writer : ¬ ReadersNeverThrottled 1 := fun h =>
  h (Fin 4) nway1 (throttleRun 14) rfl (throttleRun_isRun.reachable 14 le_rfl) rfl 3 rfl

end HttpFileServer.Rwlock.NWay

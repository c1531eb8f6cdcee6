import HttpFileServer.Rwlock.Basic

/-!
# The writer-priority policy (`wr_priority_*` in `rwlock.c`)

A writer registers in `writers_waiting` and takes the write gate without the
mutex; it stays registered until `wr_priority_wr_unlock`. A reader waits on
`rd_cond` while any writer is registered, and the first reader of a cohort takes
the gate while it holds `rw->mutex`.

* `Inv` ties the counters to the threads' program counters and gives the gate
  one owner (`inv_reachable`); `mutual_exclusion` and `not_deadlocked` follow.
* `reader_waits_for_writer`: over every run, a reader that registers while a
  writer is registered stays in its wait loop until that writer unregisters.
-/

namespace HttpFileServer.Rwlock.WriterPriority

/-- `WR_PR_STATE`. -/
structure WrPrState where
  writersWaiting : Nat
  readersWaiting : Nat
  deriving DecidableEq, Repr

/-- A writer-priority lock. -/
abbrev Lock := Rwlock WrPrState

/-- The lock `rwlock_new(WRITERS, n)` builds. -/
def rwlockNew : Lock := Rwlock.new { writersWaiting := 0, readersWaiting := 0 }

/-- Where a thread is in its calls on the lock. `rdWait`/`rdWoken`: a reader blocked on
`rd_cond` / woken and waiting for the mutex; `rdSem`: the first reader, holding the mutex,
in `sem_wait`; `wrSem`: a registered writer in `sem_wait`; `reading`/`writing`: the lock
is held. -/
inductive Pc
  | idle | rdLock | rdWait | rdWoken | rdSem | reading | wrLock | wrSem | writing
  deriving DecidableEq, Repr

/-- The policy's condition variable. -/
inductive Cond
  | rdCond
  deriving DecidableEq, Repr

/-- The program counters blocked on, and woken from, each condition variable. -/
def cv : Cond → Pc × Pc
  | .rdCond => (.rdWait, .rdWoken)

/-- A thread between calls may call `reader_lock` or `writer_lock`. -/
inductive Calls : Pc → Pc → Prop
  | reader : Calls .idle .rdLock
  | writer : Calls .idle .wrLock

/-- What an atomic section leaves behind. -/
abbrev Out := Lock × Pc × Wake Cond

/-- `wr_priority_rd_lock` from the test of its wait loop on: wait while a writer is
registered, else take the gate (first reader) or join the readers. -/
def wrPriorityRdWait (s : Lock) : Out :=
  if s.state.writersWaiting ≠ 0 then (s, .rdWait, .none)
  else if s.readersHolding = 0 then ({ s with mutex := true }, .rdSem, .none)
  else ({ s with readersHolding := s.readersHolding + 1,
                 state.readersWaiting := s.state.readersWaiting - 1 }, .reading, .none)

/-- `wr_priority_rd_lock` up to its wait loop. -/
def wrPriorityRdLock (s : Lock) : Out :=
  wrPriorityRdWait { s with state.readersWaiting := s.state.readersWaiting + 1 }

/-- `wr_priority_rd_lock` after its `sem_wait` returned. -/
def wrPriorityRdLockHeld (s : Lock) : Out :=
  ({ s with readersHolding := s.readersHolding + 1, mutex := false,
             state.readersWaiting := s.state.readersWaiting - 1 }, .reading, .none)

/-- `wr_priority_rd_unlock`. -/
def wrPriorityRdUnlock (s : Lock) : Out :=
  if s.readersHolding - 1 = 0 then
    ({ s with readersHolding := s.readersHolding - 1, writeLock := s.writeLock + 1 }, .idle, .none)
  else
    ({ s with readersHolding := s.readersHolding - 1 }, .idle,
      if s.state.writersWaiting = 0 ∧ s.state.readersWaiting ≠ 0 then .broadcast .rdCond
      else .none)

/-- `wr_priority_wr_lock` up to its `sem_wait`. -/
def wrPriorityWrLock (s : Lock) : Out :=
  ({ s with state.writersWaiting := s.state.writersWaiting + 1 }, .wrSem, .none)

/-- `wr_priority_wr_unlock`, all of it under the mutex. -/
def wrPriorityWrUnlock (s : Lock) : Out :=
  ({ s with state.writersWaiting := s.state.writersWaiting - 1, writeLock := s.writeLock + 1 },
    .idle,
    if s.state.writersWaiting - 1 = 0 ∧ s.state.readersWaiting ≠ 0 then .broadcast .rdCond
    else .none)

/-- The atomic section a thread runs next; `none` when it is blocked. -/
def sect (s : Lock) : Pc → Option Out
  | .idle => none
  | .rdLock => locked s (wrPriorityRdLock s)
  | .rdWait => none
  | .rdWoken => locked s (wrPriorityRdWait s)
  | .rdSem => semWait s wrPriorityRdLockHeld
  | .reading => locked s (wrPriorityRdUnlock s)
  | .wrLock => locked s (wrPriorityWrLock s)
  | .wrSem => semWait s fun s => (s, .writing, .none)
  | .writing => locked s (wrPriorityWrUnlock s)

/-- A lock and the program counters of the threads using it. -/
abbrev State (ι : Type) := Sys Lock Pc ι

/-- A new lock, no thread inside a call. -/
def init (ι : Type) : State ι := ⟨rwlockNew, fun _ => .idle⟩

variable {ι : Type} [DecidableEq ι]

/-- One step of one thread. -/
def Step : State ι → ι → State ι → Prop := Sys.Step sect Calls cv

theorem Calls.cases {a b : Pc} (h : Calls a b) : a = .idle ∧ (b = .rdLock ∨ b = .wrLock) := by
  cases h <;> simp

theorem cv_ne (c : Cond) : (cv c).1 ≠ (cv c).2 := by cases c; decide

/-- The invariant of the policy, over the lock and the number of threads at each
program counter: the counters match the threads; a reader in `sem_wait` holds the mutex,
and does so only while no reader holds and no writer is registered (`mutex_free`); the
gate has exactly one owner; and a reader blocked on `rd_cond` has a registered writer
whose `writer_unlock` will wake it (`live`). -/
structure Inv (l : Lock) (n : Pc → Nat) : Prop where
  readers : l.readersHolding = n .reading
  readers_waiting : l.state.readersWaiting = n .rdWait + n .rdWoken + n .rdSem
  writers_waiting : l.state.writersWaiting = n .wrSem + n .writing
  mutex : n .rdSem = l.mutex.toNat
  mutex_free : n .rdSem + min 1 (l.readersHolding + l.state.writersWaiting) ≤ 1
  gate : l.writeLock + min 1 l.readersHolding + n .writing = 1
  live : 0 < n .rdWait → 0 < l.state.writersWaiting

/-- Every section keeps the invariant, whatever the other threads are doing. -/
theorem Inv.after_sect {l l' : Lock} {n : Pc → Nat} {p0 p : Pc} {w : Wake Cond} (hI : Inv l n)
    (h0 : 0 < n p0) (h : sect l p0 = some (l', p, w)) : Inv l' (w.moved cv (move n p0 p)) := by
  rcases l with ⟨⟨ww, rw⟩, rh, _ | _, gl⟩ <;>
  obtain ⟨rfl, rfl, rfl, m, mr, g, lv⟩ := hI <;>
  cases p0 <;> simp only [sect, locked, semWait, wrPriorityRdLock, wrPriorityRdWait,
      wrPriorityRdLockHeld, wrPriorityRdUnlock, wrPriorityWrLock, wrPriorityWrUnlock,
      reduceCtorEq, if_true, if_false, Bool.false_eq_true] at h <;>
    (try split_ifs at h) <;>
    simp only [Option.some.injEq, Prod.mk.injEq, reduceCtorEq] at h <;>
    obtain ⟨rfl, rfl, rfl⟩ := h <;>
    (try simp only [Bool.toNat_true, Bool.toNat_false, Bool.false_eq_true, or_true, or_false,
      false_or, not_true_eq_false] at *) <;>
    constructor <;>
    simp only [Wake.moved, shift, move, cv, Bool.toNat_true, Bool.toNat_false, reduceCtorEq,
      if_true, if_false, or_false, false_or, or_true, true_or, implies_true] <;> omega

theorem Inv.after_move {l : Lock} {n : Pc → Nat} {a b : Pc} (hI : Inv l n) (ha : 0 < n a)
    (hab : (a = .idle ∧ (b = .rdLock ∨ b = .wrLock)) ∨ (a = .rdWait ∧ b = .rdWoken)) :
    Inv l (move n a b) := by
  obtain ⟨r, q, ho, m, mr, g, lv⟩ := hI
  rcases hab with ⟨rfl, rfl | rfl⟩ | ⟨rfl, rfl⟩ <;> constructor <;>
    simp only [move, reduceCtorEq, if_true, if_false] at * <;> omega

/-- A reader that tests the wait loop while a writer is registered goes to sleep. -/
theorem sect_rdWait_of_registered {l l' : Lock} {q p : Pc} {w : Wake Cond}
    (hww : l.state.writersWaiting ≠ 0) (hq : q = .rdLock ∨ q = .rdWoken)
    (h : sect l q = some (l', p, w)) : p = .rdWait := by
  rcases hq with rfl | rfl <;>
    simp only [sect, wrPriorityRdLock, wrPriorityRdWait, hww, if_true, ne_eq, not_false_eq_true] at h <;>
    exact (Prod.mk.inj (locked_eq_some h).2).2 |> congrArg Prod.fst |>.symm

/-- While some writer is registered, a reader in the wait loop of `wr_priority_rd_lock`
stays in it. -/
theorem Step.stays_waiting {s s' : State ι} {t r : ι} (h : Step s t s')
    (hww : s.shared.state.writersWaiting ≠ 0) (hr : s.pc r = .rdWait ∨ s.pc r = .rdWoken) :
    s'.pc r = .rdWait ∨ s'.pc r = .rdWoken := by
  by_cases hrt : r = t
  · subst hrt
    rcases h.pc_self cv_ne with ⟨p, w, hs, hp⟩ | hc | ⟨⟨⟩, -, hc⟩
    · rcases hr with hr | hr <;> rw [hr] at hs
      · cases hs
      · obtain rfl := sect_rdWait_of_registered hww (.inr rfl) hs
        rcases hp with hp | ⟨⟨⟩, -, hp⟩
        exacts [.inl hp, .inr hp]
    · rcases hr with hr | hr <;> rw [hr] at hc <;> cases hc
    · exact .inr hc
  · rcases h.pc_other cv_ne hrt with e | ⟨⟨⟩, -, e⟩
    · rwa [e]
    · exact .inr e

/-- A reader that runs the first section of `wr_priority_rd_lock` while some writer is
registered enters the wait loop. -/
theorem Step.starts_waiting {s s' : State ι} {t r : ι} (h : Step s t s')
    (hww : s.shared.state.writersWaiting ≠ 0) (hr : s.pc r = .rdLock) (hr' : s'.pc r ≠ .rdLock) :
    s'.pc r = .rdWait ∨ s'.pc r = .rdWoken := by
  by_cases hrt : r = t
  · subst hrt
    rcases h.pc_self cv_ne with ⟨p, w, hs, hp⟩ | hc | ⟨⟨⟩, hc, -⟩ <;> rw [hr] at *
    · obtain rfl := sect_rdWait_of_registered hww (.inl rfl) hs
      rcases hp with hp | ⟨⟨⟩, -, hp⟩
      exacts [.inl hp, .inr hp]
    · cases hc
    · cases hc
  · rcases h.pc_other cv_ne hrt with e | ⟨⟨⟩, hc, -⟩
    · exact absurd (e.trans hr) hr'
    · rw [hr] at hc; cases hc

variable [Fintype ι]

theorem Inv.step {s s' : State ι} {t : ι} (hI : Inv s.shared (tally s.pc)) (h : Step s t s') :
    Inv s'.shared (tally s'.pc) := by
  rcases h.tally_cases cv_ne with ⟨p, w, hsect, hn⟩ | ⟨p, hc, hl, hn⟩ | ⟨c, hpc, hl, hn⟩
  · rw [hn]; exact hI.after_sect (tally_pos_self _ _) hsect
  · rw [hn, hl]
    exact hI.after_move (tally_pos_self _ _) (.inl hc.cases)
  · rw [hn, hl]
    cases c
    exact hI.after_move (hpc ▸ tally_pos_self _ _) (.inr ⟨rfl, rfl⟩)

omit [DecidableEq ι] in
theorem inv_init : Inv (init ι).shared (tally (init ι).pc) := by
  have z : ∀ q, q ≠ .idle → tally (fun _ : ι => Pc.idle) q = 0 := fun q hq =>
    count_eq_zero_iff.2 fun t => by simp [Ne.symm hq]
  constructor <;> simp [rwlockNew, Rwlock.new, init, z]

theorem inv_reachable {s : State ι} (h : Reachable (init ι) Step s) :
    Inv s.shared (tally s.pc) :=
  Reachable.invariant (I := fun s : State ι => Inv s.shared (tally s.pc)) inv_init
    (fun _ _ _ hI hs => hI.step hs) h

/-- Mutual exclusion under the writer-priority policy. -/
theorem mutual_exclusion {s : State ι} (h : Reachable (init ι) Step s) :
    Exclusive (tally s.pc .writing) (tally s.pc .reading) s.shared :=
  exclusive_of_gate (inv_reachable h).gate (inv_reachable h).readers

/-- Some thread inside a call can always run its next section. -/
theorem Inv.progress {l : Lock} {n : Pc → Nat} (hI : Inv l n) (h : ∃ q, q ≠ .idle ∧ 0 < n q) :
    ∃ q, q ≠ .idle ∧ 0 < n q ∧ (sect l q).isSome := by
  obtain ⟨r, q, a, m, mr, g, lv⟩ := hI
  rcases l with ⟨⟨ww, rw⟩, rh, _ | _, gl⟩
  · -- the mutex is free, so only the gate can block, and its owner can always run
    have writer : 0 < n .wrSem ∨ 0 < n .writing →
        ∃ q, q ≠ .idle ∧ 0 < n q ∧ (sect ⟨⟨ww, rw⟩, rh, false, gl⟩ q).isSome := by
      intro hw
      by_cases hwr : 0 < n .writing
      · exact ⟨.writing, by decide, hwr, rfl⟩
      by_cases hr : 0 < n .reading
      · exact ⟨.reading, by decide, hr, rfl⟩
      have : gl ≠ 0 := by simp only at r g; omega
      exact ⟨.wrSem, by decide, by omega, by simp [sect, semWait, this]⟩
    obtain ⟨q, hq, hpos⟩ := h
    cases q
    · exact absurd rfl hq
    · exact ⟨_, hq, hpos, rfl⟩
    · -- a reader blocked on `rd_cond` has a registered writer
      exact writer (by simp only at a lv; omega)
    · exact ⟨_, hq, hpos, rfl⟩
    · simp only [Bool.toNat_false] at m; omega
    · exact ⟨_, hq, hpos, rfl⟩
    · exact ⟨_, hq, hpos, rfl⟩
    · exact writer (.inl hpos)
    · exact ⟨_, hq, hpos, rfl⟩
  · -- the first reader in `sem_wait` holds the mutex; nobody else owns the gate
    have hs : n .rdSem = 1 := by simpa using m
    have : gl ≠ 0 := by simp only at mr g a; omega
    exact ⟨.rdSem, by decide, by omega, by simp [sect, semWait, this]⟩

/-- No reachable state of the writer-priority policy is a deadlock. -/
theorem not_deadlocked {s : State ι} (h : Reachable (init ι) Step s) :
    ¬ s.Deadlocked sect .idle := fun hd =>
  Sys.not_deadlocked_of ((inv_reachable h).progress (Sys.exists_busy hd.1)) hd

/-- A registered writer is counted in `writers_waiting`. -/
theorem registered_pos {s : State ι} (h : Reachable (init ι) Step s) {w : ι}
    (hw : s.pc w = .wrSem ∨ s.pc w = .writing) : s.shared.state.writersWaiting ≠ 0 := by
  have hc := (inv_reachable h).writers_waiting
  have hp := tally_pos_self s.pc w
  rcases hw with hw | hw <;> rw [hw] at hp <;> omega

/-- Writer priority over every run: a reader whose `readers_waiting++` (the first section
of `wr_priority_rd_lock`, at step `i`) comes while writer `w` is registered is still in
the wait loop, so its `reader_lock` has not returned, at every later state up to the
`writers_waiting--` of `w`'s `writer_unlock`. -/
theorem reader_waits_for_writer {σ : Nat → State ι} {m i j : Nat} {r w : ι}
    (hrun : IsRun (init ι) Step σ m) (hij : i < j) (hjm : j ≤ m)
    (hr : (σ i).pc r = .rdLock) (hr' : (σ (i + 1)).pc r ≠ .rdLock)
    (hw : ∀ k, i ≤ k → k ≤ j → (σ k).pc w = .wrSem ∨ (σ k).pc w = .writing) :
    (σ j).pc r = .rdWait ∨ (σ j).pc r = .rdWoken := by
  have hww : ∀ k, i ≤ k → k ≤ j → (σ k).shared.state.writersWaiting ≠ 0 := fun k hk hkj =>
    registered_pos (hrun.reachable k (by omega)) (hw k hk hkj)
  induction j, hij using Nat.le_induction with
  | base =>
    obtain ⟨t, ht⟩ := hrun.2 i (by omega)
    exact ht.starts_waiting (hww i le_rfl (by omega)) hr hr'
  | succ j hij ih =>
    obtain ⟨t, ht⟩ := hrun.2 j (by omega)
    exact ht.stays_waiting (hww j (by omega) (by omega))
      (ih (by omega) (fun k hk hkj => hw k hk (by omega)) fun k hk hkj => hww k hk (by omega))

/-- Writer `0` calls `writer_lock` and registers; then reader `1` calls `reader_lock`. -/
def writerThenReader (i : Nat) : State (Fin 2) :=
  let s1 : State (Fin 2) := ⟨rwlockNew, Function.update (init (Fin 2)).pc 0 .wrLock⟩
  let s2 : State (Fin 2) := ⟨(wrPriorityWrLock s1.shared).1, Function.update s1.pc 0 .wrSem⟩
  let s3 : State (Fin 2) := ⟨s2.shared, Function.update s2.pc 1 .rdLock⟩
  let s4 : State (Fin 2) := ⟨(wrPriorityRdLock s3.shared).1, Function.update s3.pc 1 .rdWait⟩
  [init (Fin 2), s1, s2, s3].getD i s4

theorem writerThenReader_waits :
    IsRun (init (Fin 2)) Step writerThenReader 4 ∧
      ((writerThenReader 4).pc 1 = .rdWait ∨ (writerThenReader 4).pc 1 = .rdWoken) := by
  have hrun : IsRun (init (Fin 2)) Step writerThenReader 4 := ⟨rfl, fun i hi =>
    match i, hi with
    | 0, _ => ⟨0, .call .writer⟩
    | 1, _ => ⟨0, .exec rfl rfl⟩
    | 2, _ => ⟨1, .call .reader⟩
    | 3, _ => ⟨1, .exec rfl rfl⟩⟩
  refine ⟨hrun, reader_waits_for_writer (i := 3) (w := 0) hrun (by decide) le_rfl rfl (by decide)
    fun k hk hk4 => ?_⟩
  obtain rfl | rfl : k = 3 ∨ k = 4 := by omega
  all_goals decide

end HttpFileServer.Rwlock.WriterPriority

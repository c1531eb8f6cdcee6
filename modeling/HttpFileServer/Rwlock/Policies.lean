import HttpFileServer.Rwlock.ReaderPriority
import HttpFileServer.Rwlock.WriterPriority
import HttpFileServer.Rwlock.NWay
import Mathlib.Algebra.Order.BigOperators.Group.Finset

/-!
# The three policies together

`reader_lock`, `reader_unlock`, `writer_lock` and `writer_unlock` dispatch on the
priority the lock was built with; each policy is modelled in its own module. Here
the results every policy shares are stated once for all three, the N_WAY policy for
every `n` that `rwlock_new` accepts.

* `rwlock_exclusive`: every reachable state is mutually exclusive.
* `rwlock_deadlock_free`: no reachable state is a deadlock.
* `rwlock_counters`: every counter of every policy is the number of threads in the phase it
  counts, so none of them can wrap.
-/

namespace HttpFileServer.Rwlock

/-- Mutual exclusion under every policy, whatever the threads and their interleaving. -/
theorem rwlock_exclusive :
    (∀ (ι : Type) [Fintype ι] [DecidableEq ι] (s : ReaderPriority.State ι),
      Reachable (ReaderPriority.init ι) ReaderPriority.Step s →
      Exclusive (tally s.pc .writing) (tally s.pc .reading) s.shared) ∧
    (∀ (ι : Type) [Fintype ι] [DecidableEq ι] (s : WriterPriority.State ι),
      Reachable (WriterPriority.init ι) WriterPriority.Step s →
      Exclusive (tally s.pc .writing) (tally s.pc .reading) s.shared) ∧
    (∀ (n : Nat) (l : NWay.Lock), NWay.rwlockNew n = some l →
      ∀ (ι : Type) [Fintype ι] [DecidableEq ι] (s : NWay.State ι),
      Reachable (NWay.init ι l) NWay.Step s →
      Exclusive (tally s.pc .writing) (tally s.pc .reading) s.shared) :=
  ⟨fun _ _ _ _ h => ReaderPriority.mutual_exclusion h,
    fun _ _ _ _ h => WriterPriority.mutual_exclusion h,
    fun _ _ hl _ _ _ _ h => NWay.mutual_exclusion hl h⟩

/-- Deadlock freedom under every policy: in a reachable state, if some thread is inside a
call then some thread inside a call can run its next section. -/
theorem rwlock_deadlock_free :
    (∀ (ι : Type) [Fintype ι] [DecidableEq ι] (s : ReaderPriority.State ι),
      Reachable (ReaderPriority.init ι) ReaderPriority.Step s →
      ¬ s.Deadlocked ReaderPriority.sect .idle) ∧
    (∀ (ι : Type) [Fintype ι] [DecidableEq ι] (s : WriterPriority.State ι),
      Reachable (WriterPriority.init ι) WriterPriority.Step s →
      ¬ s.Deadlocked WriterPriority.sect .idle) ∧
    (∀ (n : Nat) (l : NWay.Lock), NWay.rwlockNew n = some l →
      ∀ (ι : Type) [Fintype ι] [DecidableEq ι] (s : NWay.State ι),
      Reachable (NWay.init ι l) NWay.Step s → ¬ s.Deadlocked NWay.sect .idle) :=
  ⟨fun _ _ _ _ h => ReaderPriority.not_deadlocked h,
    fun _ _ _ _ h => WriterPriority.not_deadlocked h,
    fun _ _ hl _ _ _ _ h => NWay.not_deadlocked hl h⟩

section Counters

open Finset

variable {P ι : Type} [DecidableEq P] [Fintype ι]

/-- Threads at distinct program counters are distinct threads. -/
theorem sum_tally_le_card (pc : ι → P) (qs : List P) (hqs : qs.Nodup) :
    (qs.map (tally pc)).sum ≤ Fintype.card ι := by
  rw [← List.sum_toFinset _ hqs]
  calc ∑ q ∈ qs.toFinset, tally pc q
      = ∑ t, ∑ q ∈ qs.toFinset, if pc t = q then 1 else 0 := by
        simp only [tally, count_eq_sum, beq_iff_eq]; exact Finset.sum_comm
    _ ≤ ∑ _t : ι, 1 := Finset.sum_le_sum fun t _ => by
        rw [Finset.sum_ite_eq]; split_ifs <;> simp
    _ = Fintype.card ι := by simp

end Counters

/-- The counters of every policy in every reachable state, whatever the threads and their
interleaving: `readers_holding` is the number of readers past `readers_holding++`,
`writers_waiting` and `readers_waiting` the number of threads between their `++` and `--`,
under READERS `writer_holding` is set for the one writer past the wait loop if there is
one, and under N_WAY `readers_passed` stays within `n`. Each counter is therefore at most
the number of threads, and a thread that decrements one is counted in it, so no `uint32_t`
counter wraps. -/
theorem rwlock_counters :
    (∀ (ι : Type) [Fintype ι] [DecidableEq ι] (s : ReaderPriority.State ι),
      Reachable (ReaderPriority.init ι) ReaderPriority.Step s →
      s.shared.readersHolding = tally s.pc .reading ∧
      s.shared.state.writersWaiting = tally s.pc .wrWait + tally s.pc .wrWoken ∧
      tally s.pc .wrSem + tally s.pc .writing + tally s.pc .wrUnlock =
        s.shared.state.writerHolding.toNat ∧
      s.shared.readersHolding ≤ Fintype.card ι ∧ s.shared.state.writersWaiting ≤ Fintype.card ι) ∧
    (∀ (ι : Type) [Fintype ι] [DecidableEq ι] (s : WriterPriority.State ι),
      Reachable (WriterPriority.init ι) WriterPriority.Step s →
      s.shared.readersHolding = tally s.pc .reading ∧
      s.shared.state.readersWaiting = tally s.pc .rdWait + tally s.pc .rdWoken + tally s.pc .rdSem ∧
      s.shared.state.writersWaiting = tally s.pc .wrSem + tally s.pc .writing ∧
      s.shared.readersHolding ≤ Fintype.card ι ∧ s.shared.state.readersWaiting ≤ Fintype.card ι ∧
      s.shared.state.writersWaiting ≤ Fintype.card ι) ∧
    (∀ (n : Nat) (l : NWay.Lock), NWay.rwlockNew n = some l →
      ∀ (ι : Type) [Fintype ι] [DecidableEq ι] (s : NWay.State ι),
      Reachable (NWay.init ι l) NWay.Step s →
      s.shared.readersHolding = tally s.pc .reading ∧
      s.shared.state.readersWaiting = tally s.pc .rdWait + tally s.pc .rdWoken ∧
      s.shared.state.writersWaiting = tally s.pc .wrWait + tally s.pc .wrWoken +
        tally s.pc .wrSem + tally s.pc .writing + tally s.pc .wrUnlock ∧
      s.shared.state.readersPassed ≤ n ∧
      s.shared.readersHolding ≤ Fintype.card ι ∧ s.shared.state.readersWaiting ≤ Fintype.card ι ∧
      s.shared.state.writersWaiting ≤ Fintype.card ι) := by
  refine ⟨fun ι _ _ s h => ?_, fun ι _ _ s h => ?_, fun n l hl ι _ _ s h => ?_⟩
  · obtain ⟨r, w, hw, -, -, -, -⟩ := ReaderPriority.inv_reachable h
    have hw' := sum_tally_le_card s.pc [.wrWait, .wrWoken] (by decide)
    have hr := tally_le_card s.pc ReaderPriority.Pc.reading
    simp only [List.map, List.sum_cons, List.sum_nil] at hw'
    exact ⟨r, w, hw, by omega, by omega⟩
  · obtain ⟨r, rw, ww, -, -, -, -⟩ := WriterPriority.inv_reachable h
    have hrw := sum_tally_le_card s.pc [.rdWait, .rdWoken, .rdSem] (by decide)
    have hww := sum_tally_le_card s.pc [.wrSem, .writing] (by decide)
    have hr := tally_le_card s.pc WriterPriority.Pc.reading
    simp only [List.map, List.sum_cons, List.sum_nil] at hrw hww
    exact ⟨r, rw, ww, by omega, by omega, by omega⟩
  · obtain ⟨-, passed, r, rw, ww, -, -, -, -, -, -⟩ := NWay.inv_reachable hl h
    have hn : s.shared.state.n = n := by rw [NWay.n_reachable h, (NWay.rwlockNew_eq_some.1 hl).2]; rfl
    have hrw := sum_tally_le_card s.pc [.rdWait, .rdWoken] (by decide)
    have hww := sum_tally_le_card s.pc [.wrWait, .wrWoken, .wrSem, .writing, .wrUnlock]
      (by decide)
    have hr := tally_le_card s.pc NWay.Pc.reading
    simp only [List.map, List.sum_cons, List.sum_nil] at hrw hww
    exact ⟨r, rw, ww, hn ▸ passed, by omega, by omega, by omega⟩

end HttpFileServer.Rwlock

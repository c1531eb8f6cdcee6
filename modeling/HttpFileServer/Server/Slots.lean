import HttpFileServer.Server.Workers
import Mathlib.Algebra.Order.BigOperators.Group.Finset

/-!
# What the registry's counters mean

`users` counts the requests holding a slot, and a slot is free exactly when no
request holds it. Since each worker holds at most one slot and there are as many
slots as workers, a worker calling `find_file_lock` always finds a free slot or its
URI, so `NULL` is never returned and never dereferenced.

* `RegInv` and `regInv_reachable`: the counters match the workers.
* `find_never_null`: in every reachable state `find_file_lock` succeeds and no worker
  has dereferenced a `NULL` slot.
* `registry_consistent`: the counters in every reachable state, and a free slot has no
  worker in its rwlock, no reader holding, none waiting or registered, and the gate open.
-/

namespace HttpFileServer.Server

open Rwlock Finset

variable {T : Nat}

/-- A worker holds slot `i`: `find_file_lock` returned it and it is not yet released. -/
def Phase.holds (i : Fin T) : Phase T → Bool
  | .held _ _ j _ => j == i
  | _ => false

/-- A worker holds some slot. -/
def Phase.holding : Phase T → Bool
  | .held _ _ _ _ => true
  | _ => false

/-- Every holding worker holds exactly one slot. -/
theorem sum_count_holds (phase : Fin T → Phase T) :
    ∑ i, count phase (Phase.holds i) = count phase Phase.holding := by
  simp only [count_eq_sum]
  rw [Finset.sum_comm]
  refine Finset.sum_congr rfl fun w _ => ?_
  cases phase w <;> simp [Phase.holds, Phase.holding]

/-- The registry invariant: `users` is the number of workers holding the slot, a slot is
free exactly when unused, and no worker has dereferenced a `NULL` slot. -/
structure RegInv (s : ServerState T) : Prop where
  users : ∀ i, (s.fileLocks i).users = count s.phase (Phase.holds i)
  free : ∀ i, (s.fileLocks i).filename = none ↔ (s.fileLocks i).users = 0
  running : ∀ w, s.phase w ≠ .crashed

/-- A worker about to call `find_file_lock` holds no slot, so fewer slots than workers are
used and one is free. -/
theorem RegInv.exists_free {s : ServerState T} (hI : RegInv s) {w : Fin T} {m : Method}
    {uri : String} (hw : s.phase w = .find m uri) : ∃ i, (s.fileLocks i).filename = none := by
  by_contra hno
  push_neg at hno
  have used : ∀ i ∈ univ, 1 ≤ (s.fileLocks i).users := fun i _ =>
    Nat.one_le_iff_ne_zero.2 fun h0 => hno i ((hI.free i).2 h0)
  have total : T ≤ count s.phase Phase.holding := by
    calc T = ∑ _i : Fin T, 1 := by simp
      _ ≤ ∑ i, (s.fileLocks i).users := Finset.sum_le_sum used
      _ = count s.phase Phase.holding := by simp only [hI.users, sum_count_holds]
  have fewer : count s.phase Phase.holding < T := by
    have := Finset.card_lt_univ_of_not_mem (s := univ.filter fun x => s.phase x |>.holding)
      (x := w) (by simp [hw, Phase.holding])
    simpa [count] using this
  omega

theorem holds_setSlotPc (phase : Fin T → Phase T) (i j : Fin T) (pc : Fin T → NWay.Pc)
    (w : Fin T) : (setSlotPc phase j pc w).holds i = (phase w).holds i := by
  simp only [setSlotPc]
  split <;> (try split) <;> simp_all [Phase.holds]

theorem setSlotPc_ne_crashed {phase : Fin T → Phase T} {j : Fin T} {pc : Fin T → NWay.Pc}
    {w : Fin T} (h : phase w ≠ .crashed) : setSlotPc phase j pc w ≠ .crashed := by
  simp only [setSlotPc]
  split <;> (try split) <;> simp_all

/-- Every step keeps the registry invariant; a `find_file_lock` call always finds a free
slot or its URI. -/
theorem RegInv.step {s s' : ServerState T} {w : Fin T} (hI : RegInv s) (h : Step s w s') :
    RegInv s' := by
  have running : ∀ ph, ph ≠ .crashed → ∀ x, Function.update s.phase w ph x ≠ .crashed :=
    fun ph hph x => by
      by_cases hx : x = w
      · subst hx; simpa using hph
      · simpa [hx] using hI.running x
  cases h with
  | request m uri hw =>
    refine ⟨fun i => ?_, hI.free, running _ (by simp)⟩
    have := count_update s.phase w (.find m uri) (Phase.holds i)
    simp only [hw, Phase.holds, Bool.false_eq_true, if_false] at this
    dsimp only; rw [hI.users i]; omega
  | @find m uri j fls hw hf =>
    obtain ⟨-, rfl⟩ := findFileLock_eq_some hf
    refine ⟨fun i => ?_, fun i => ?_, running _ (by simp)⟩
    · have := count_update s.phase w (.held m uri j m.lockPc) (Phase.holds i)
      simp only [hw, Phase.holds, Bool.false_eq_true, if_false, beq_iff_eq] at this
      dsimp only
      by_cases hij : i = j
      · subst hij
        rw [Function.update_same, FileLock.take_users _ _ fun h0 => (hI.free i).1 h0, hI.users i]
        simp only [if_true] at this; omega
      · rw [Function.update_noteq hij, hI.users i]
        simp only [Ne.symm hij, if_false] at this; omega
    · dsimp only
      by_cases hij : i = j
      · subst hij
        rw [Function.update_same, FileLock.take_users _ _ fun h0 => (hI.free i).1 h0]
        simpa using FileLock.take_filename uri (s.fileLocks i)
      · rw [Function.update_noteq hij]; exact hI.free i
  | @findNull m uri hw hf =>
    obtain ⟨i, hi⟩ := hI.exists_free hw
    have := @findFileLock_isSome _ uri _ _ hi
    simp [hf] at this
  | @lock m uri j p l pc hw hp hst =>
    have keep : ∀ i, (Function.update s.fileLocks j { s.fileLocks j with lock := l } i).users =
        (s.fileLocks i).users ∧
        (Function.update s.fileLocks j { s.fileLocks j with lock := l } i).filename =
        (s.fileLocks i).filename := fun i => by
      by_cases hij : i = j
      · subst hij; simp
      · simp [Function.update_noteq hij]
    refine ⟨fun i => ?_, fun i => ?_, fun x => setSlotPc_ne_crashed (hI.running x)⟩
    · dsimp only
      rw [(keep i).1, hI.users i]
      exact count_congr fun x => (holds_setSlotPc s.phase i j pc x).symm
    · dsimp only
      rw [(keep i).1, (keep i).2]; exact hI.free i
  | @release m uri j hw =>
    refine ⟨fun i => ?_, fun i => ?_, running _ (by simp)⟩
    · have := count_update s.phase w .idle (Phase.holds i)
      simp only [hw, Phase.holds, Bool.false_eq_true, if_false, beq_iff_eq] at this
      dsimp only
      by_cases hij : i = j
      · subst hij
        simp only [if_true] at this
        simp only [releaseFileLock, Function.update_same, hI.users i]; omega
      · simp only [Ne.symm hij, if_false] at this
        simp only [releaseFileLock, Function.update_noteq hij, hI.users i]; omega
    · dsimp only
      by_cases hij : i = j
      · subst hij
        have hpos : 0 < (s.fileLocks i).users := by
          rw [hI.users i]; exact count_pos_of (t := w) (by simp [hw, Phase.holds])
        simp only [releaseFileLock, Function.update_same]
        split_ifs with h0
        · simp [h0]
        · simp only [h0, iff_false]
          exact fun hn => absurd ((hI.free i).1 hn) (by omega)
      · simp only [releaseFileLock, Function.update_noteq hij]; exact hI.free i

theorem regInv_init : RegInv (ServerState.init T) := by
  refine ⟨fun i => ?_, fun i => ?_, fun w => ?_⟩
  · exact (count_eq_zero_iff.2 fun _ => rfl).symm
  · simp [ServerState.init]
  · simp [ServerState.init]

theorem regInv_reachable {s : ServerState T} (h : Reachable (ServerState.init T) Step s) :
    RegInv s :=
  Reachable.invariant (I := RegInv) regInv_init (fun _ _ _ hI hs => hI.step hs) h

/-- With `thread_count` workers and as many slots, `find_file_lock` never returns `NULL`
in a reachable state, and no worker ever dereferences a `NULL` slot. -/
theorem find_never_null {s : ServerState T} (h : Reachable (ServerState.init T) Step s) :
    (∀ w m uri, s.phase w = .find m uri → (findFileLock uri s.fileLocks).isSome) ∧
    ∀ w, s.phase w ≠ .crashed := by
  have hI := regInv_reachable h
  refine ⟨fun w m uri hw => ?_, hI.running⟩
  obtain ⟨i, hi⟩ := hI.exists_free hw
  exact findFileLock_isSome hi

/-- Eleven steps into `overlapRun`, worker `0` has released slot `0` and is about to call
`find_file_lock` for a PUT of `foo`, with slot `1` held by worker `1`: the call finds a slot. -/
theorem find_never_null_overlap :
    (overlapRun 11).phase 0 = .find .put "foo" ∧
    (findFileLock "foo" (overlapRun 11).fileLocks).isSome ∧
    ∀ w, (overlapRun 11).phase w ≠ .crashed :=
  have h := find_never_null (overlapRun_isRun.reachable 11 (by decide))
  ⟨rfl, h.1 0 .put "foo" rfl, h.2⟩

/-- A slot no worker holds has every worker idle in its rwlock. -/
theorem slotPc_idle_of_unused {phase : Fin T → Phase T} {i : Fin T}
    (h : count phase (Phase.holds i) = 0) (w : Fin T) : slotPc phase i w = .idle := by
  have hw := count_eq_zero_iff.1 h w
  simp only [slotPc, Phase.slotPc]
  split
  · simp_all [Phase.holds]
  · rfl

/-- The registry's counters in every reachable state: `users` is the number of workers
holding the slot, a slot is used exactly when it is interned for a URI, and a free slot's
rwlock is quiescent: no worker is in it, no reader holds it, none waits or is registered,
and the gate is open. -/
theorem registry_consistent {s : ServerState T} (h : Reachable (ServerState.init T) Step s)
    (i : Fin T) :
    (s.fileLocks i).users = count s.phase (Phase.holds i) ∧
    (0 < (s.fileLocks i).users ↔ (s.fileLocks i).filename ≠ none) ∧
    ((s.fileLocks i).filename = none →
      (∀ w, slotPc s.phase i w = .idle) ∧ (s.fileLocks i).lock.readersHolding = 0 ∧
      (s.fileLocks i).lock.state.readersWaiting = 0 ∧
      (s.fileLocks i).lock.state.writersWaiting = 0 ∧ (s.fileLocks i).lock.writeLock = 1) := by
  have hI := regInv_reachable h
  refine ⟨hI.users i, by rw [Ne, hI.free i]; omega, fun hn => ?_⟩
  have idle := slotPc_idle_of_unused ((hI.users i).symm.trans ((hI.free i).1 hn))
  have z : ∀ q, q ≠ .idle → tally (slotPc s.phase i) q = 0 := fun q hq =>
    count_eq_zero_iff.2 fun w => by simp [idle w, Ne.symm hq]
  have hL := NWay.inv_reachable NWay.rwlockNew_one (slot_reachable h i)
  simp only [ServerState.slot] at hL
  have r := hL.readers
  have q := hL.readers_waiting
  have a := hL.writers_waiting
  have g := hL.gate
  simp (disch := decide) only [z] at r q a g
  exact ⟨idle, r, q, a, by omega⟩

/-- Eleven steps into `overlapRun`, slot `0` is released and its rwlock quiescent, while slot
`1` counts the worker that holds it. -/
theorem registry_consistent_overlap :
    ((overlapRun 11).fileLocks 0).filename = none ∧
    ((overlapRun 11).fileLocks 0).lock.writeLock = 1 ∧
    ((overlapRun 11).fileLocks 1).users = count (overlapRun 11).phase (Phase.holds 1) :=
  have h := overlapRun_isRun.reachable 11 (by decide)
  ⟨rfl, ((registry_consistent h 0).2.2 rfl).2.2.2.2, (registry_consistent h 1).1⟩

end HttpFileServer.Server

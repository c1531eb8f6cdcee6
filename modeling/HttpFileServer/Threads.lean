import Mathlib.Algebra.BigOperators.Group.Finset
import Mathlib.Data.Fintype.Card

/-!
# Threads, condition variables and runs

The concurrency primitives of the server (`queue.c`, `rwlock.c`) are modelled
as systems of threads over a shared state. Every thread has a program counter.
A section guarded by a mutex is one atomic step; a blocking call (`sem_wait`,
`pthread_cond_wait`, `pthread_mutex_lock` on a held mutex) is a program counter
at which the thread's section function returns `none`.

* `count pc S` is the number of threads whose program counter satisfies `S`;
  `count_update` is the one fact about it that every counter invariant uses.
* `Signal`, `SignalN` and `broadcast` are the POSIX wake-ups of a condition
  variable, with any choice of which waiter is woken. All of them are `Wakes`:
  some waiters move to their woken program counter and nothing else changes.
* `Sys.Step` is the step of a thread system: a thread runs its next atomic
  section, calls into the primitive, or wakes spuriously from a condition wait.
* `Reachable` and `IsRun` are reachability and finite runs of a labelled step
  relation.
-/

namespace HttpFileServer

open Finset

section Count

variable {ι P : Type} [Fintype ι]

/-- The number of threads whose program counter satisfies `S`. -/
def count (pc : ι → P) (S : P → Bool) : Nat := (univ.filter (fun t => S (pc t) = true)).card

theorem count_eq_sum (pc : ι → P) (S : P → Bool) :
    count pc S = ∑ t, if S (pc t) = true then 1 else 0 :=
  Finset.card_filter _ _

theorem count_pos_iff {pc : ι → P} {S : P → Bool} : 0 < count pc S ↔ ∃ t, S (pc t) = true := by
  simp [count, Finset.card_pos, Finset.filter_nonempty_iff]

theorem count_eq_zero_iff {pc : ι → P} {S : P → Bool} :
    count pc S = 0 ↔ ∀ t, S (pc t) = false := by
  simp [count, Finset.card_eq_zero, Finset.filter_eq_empty_iff]

theorem count_pos_of {pc : ι → P} {S : P → Bool} {t : ι} (h : S (pc t) = true) :
    0 < count pc S :=
  count_pos_iff.2 ⟨t, h⟩

theorem count_congr {Q : Type} {pc : ι → P} {pc' : ι → Q} {S : P → Bool} {S' : Q → Bool}
    (h : ∀ t, S (pc t) = S' (pc' t)) : count pc S = count pc' S' := by
  simp only [count_eq_sum, h]

/-- Moving thread `t` to program counter `q` changes each count by at most one. -/
theorem count_update [DecidableEq ι] (pc : ι → P) (t : ι) (q : P) (S : P → Bool) :
    count (Function.update pc t q) S + (if S (pc t) then 1 else 0) =
      count pc S + (if S q then 1 else 0) := by
  have split : ∀ f : ι → P, count f S =
      (if S (f t) then 1 else 0) + ∑ x in univ.erase t, if S (f x) then 1 else 0 :=
    fun f => by rw [count_eq_sum, ← Finset.add_sum_erase _ _ (mem_univ t)]
  have rest : (∑ x in univ.erase t, if S (Function.update pc t q x) then 1 else 0) =
      ∑ x in univ.erase t, if S (pc x) then 1 else 0 :=
    Finset.sum_congr rfl fun x hx => by rw [Function.update_noteq (Finset.ne_of_mem_erase hx)]
  rw [split, split pc, rest, Function.update_same]
  omega

end Count

section CondVar

variable {ι P : Type}

/-- The effect of any wake-up on a condition variable: some threads blocked on it
(`w`) move to its woken program counter (`k`); no other thread changes. -/
def Wakes (w k : P) (pc pc' : ι → P) : Prop :=
  ∀ t, pc' t = pc t ∨ (pc t = w ∧ pc' t = k)

/-- `pthread_cond_signal`: one thread blocked on the condition variable, any one, is
unblocked; with no thread blocked nothing happens. -/
inductive Signal [DecidableEq ι] (w k : P) : (ι → P) → (ι → P) → Prop
  | none {pc : ι → P} : (∀ t, pc t ≠ w) → Signal w k pc pc
  | wake {pc : ι → P} (t : ι) : pc t = w → Signal w k pc (Function.update pc t k)

/-- `pthread_cond_signal` called `n` times in a row. -/
inductive SignalN [DecidableEq ι] (w k : P) : Nat → (ι → P) → (ι → P) → Prop
  | zero {pc : ι → P} : SignalN w k 0 pc pc
  | succ {n : Nat} {pc pc' pc'' : ι → P} :
      Signal w k pc pc' → SignalN w k n pc' pc'' → SignalN w k (n + 1) pc pc''

/-- `pthread_cond_broadcast`: every thread blocked on the condition variable is unblocked. -/
def broadcast [DecidableEq P] (w k : P) (pc : ι → P) : ι → P :=
  fun t => if pc t = w then k else pc t

theorem Wakes.refl (w k : P) (pc : ι → P) : Wakes w k pc pc := fun _ => .inl rfl

theorem Wakes.trans {w k : P} {pc pc' pc'' : ι → P} (h1 : Wakes w k pc pc')
    (h2 : Wakes w k pc' pc'') (hwk : w ≠ k) : Wakes w k pc pc'' := by
  intro t
  rcases h1 t with e1 | ⟨e1, f1⟩ <;> rcases h2 t with e2 | ⟨e2, f2⟩
  · exact .inl (e2.trans e1)
  · exact .inr ⟨e1 ▸ e2, f2⟩
  · exact .inr ⟨e1, e2.trans f1⟩
  · exact absurd (f1.symm.trans e2) hwk.symm

theorem Signal.wakes [DecidableEq ι] {w k : P} {pc pc' : ι → P} (h : Signal w k pc pc') :
    Wakes w k pc pc' := by
  cases h with
  | none _ => exact Wakes.refl w k pc
  | wake t ht =>
    intro x
    by_cases hx : x = t
    · subst hx; exact .inr ⟨ht, Function.update_same _ _ _⟩
    · exact .inl (Function.update_noteq hx _ _)

theorem SignalN.wakes [DecidableEq ι] {w k : P} {n : Nat} {pc pc' : ι → P}
    (h : SignalN w k n pc pc') (hwk : w ≠ k) : Wakes w k pc pc' := by
  induction h with
  | zero => exact Wakes.refl w k _
  | succ hs _ ih => exact hs.wakes.trans ih hwk

theorem broadcast_wakes [DecidableEq P] (w k : P) (pc : ι → P) :
    Wakes w k pc (broadcast w k pc) := by
  intro t
  by_cases h : pc t = w <;> simp [broadcast, h]

/-- A wake-up never blocks a thread: a woken thread stays woken. -/
theorem Wakes.woken {w k : P} {pc pc' : ι → P} (h : Wakes w k pc pc') (hwk : w ≠ k) {t : ι}
    (ht : pc t = k) : pc' t = k := by
  rcases h t with e | ⟨e, _⟩
  · exact e.trans ht
  · exact absurd (e.symm.trans ht) hwk

/-- A wake-up leaves every thread that is not blocked on the condition variable alone. -/
theorem Wakes.other {w k : P} {pc pc' : ι → P} (h : Wakes w k pc pc') {t : ι}
    (ht : pc t ≠ w) : pc' t = pc t := by
  rcases h t with e | ⟨e, _⟩
  · exact e
  · exact absurd e ht

/-- A wake-up changes no count that treats blocked and woken threads alike. -/
theorem Wakes.count_eq [Fintype ι] {w k : P} {pc pc' : ι → P} (h : Wakes w k pc pc')
    {S : P → Bool} (hS : S w = S k) : count pc' S = count pc S := by
  simp only [count_eq_sum]
  refine Finset.sum_congr rfl fun t _ => ?_
  rcases h t with e | ⟨e, f⟩
  · rw [e]
  · rw [e, f, hS]

theorem Signal.exists [DecidableEq ι] (w k : P) (pc : ι → P) : ∃ pc', Signal w k pc pc' := by
  by_cases h : ∃ t, pc t = w
  · obtain ⟨t, ht⟩ := h
    exact ⟨_, .wake t ht⟩
  · exact ⟨pc, .none fun t ht => h ⟨t, ht⟩⟩

theorem SignalN.exists [DecidableEq ι] (w k : P) (n : Nat) (pc : ι → P) :
    ∃ pc', SignalN w k n pc pc' := by
  induction n generalizing pc with
  | zero => exact ⟨pc, .zero⟩
  | succ n ih =>
    obtain ⟨pc1, h1⟩ := Signal.exists w k pc
    obtain ⟨pc2, h2⟩ := ih pc1
    exact ⟨pc2, .succ h1 h2⟩

/-- At least one signal, with a thread blocked or already woken, leaves some thread woken. -/
theorem SignalN.woken_of_waiting [DecidableEq ι] {w k : P} {n : Nat} {pc pc' : ι → P}
    (h : SignalN w k (n + 1) pc pc') (hwk : w ≠ k) {t : ι} (ht : pc t = w ∨ pc t = k) :
    ∃ x, pc' x = k := by
  obtain _ | ⟨hs, hrest⟩ := h
  rename_i pc1
  have h1 : ∃ x, pc1 x = k := by
    rcases ht with ht | ht
    · cases hs with
      | none hn => exact absurd ht (hn t)
      | wake x _ => exact ⟨x, Function.update_same _ _ _⟩
    · exact ⟨t, hs.wakes.woken hwk ht⟩
  obtain ⟨x, hx⟩ := h1
  exact ⟨x, (hrest.wakes hwk).woken hwk hx⟩

/-- A broadcast with no thread blocked changes nothing. -/
theorem broadcast_eq_self [DecidableEq P] {w k : P} {pc : ι → P} (h : ∀ t, pc t ≠ w) :
    broadcast w k pc = pc := by
  funext t; simp [broadcast, h t]

theorem broadcast_woken [DecidableEq P] {w k : P} {pc : ι → P} {t : ι}
    (ht : pc t = w ∨ pc t = k) : broadcast w k pc t = k := by
  unfold broadcast
  split_ifs with h
  · rfl
  · exact ht.resolve_left h

end CondVar

section Sys

/-- A wake-up that an atomic section performs on its way out, on condition variable
`c : C`. -/
inductive Wake (C : Type) where
  | none
  | signal (c : C) (times : Nat)
  | broadcast (c : C)
  deriving DecidableEq, Repr

variable {L P C ι : Type} [DecidableEq ι] [DecidableEq P]

/-- Performing a wake-up, where `cv c` is the pair of program counters blocked on
condition variable `c` and woken from it. -/
def Wake.Apply (cv : C → P × P) : Wake C → (ι → P) → (ι → P) → Prop
  | .none, pc, pc' => pc' = pc
  | .signal c k, pc, pc' => SignalN (cv c).1 (cv c).2 k pc pc'
  | .broadcast c, pc, pc' => pc' = HttpFileServer.broadcast (cv c).1 (cv c).2 pc

/-- A thread system: the shared state and every thread's program counter. -/
structure Sys (L P ι : Type) where
  shared : L
  pc : ι → P

/-- One step of thread `t`. `sect` runs the atomic section at a program counter
(`none`: the thread is blocked there); `calls p q` lets a thread between calls start
the call at `q`; `cv` names each condition variable's blocked and woken program
counters, and a thread blocked on one may always wake spuriously (POSIX allows it). -/
inductive Sys.Step (sect : L → P → Option (L × P × Wake C)) (calls : P → P → Prop)
    (cv : C → P × P) : Sys L P ι → ι → Sys L P ι → Prop
  | exec {s : Sys L P ι} {t : ι} {l : L} {p : P} {w : Wake C} {pc' : ι → P} :
      sect s.shared (s.pc t) = some (l, p, w) → w.Apply cv (Function.update s.pc t p) pc' →
      Sys.Step sect calls cv s t ⟨l, pc'⟩
  | call {s : Sys L P ι} {t : ι} {p : P} :
      calls (s.pc t) p → Sys.Step sect calls cv s t ⟨s.shared, Function.update s.pc t p⟩
  | spurious {s : Sys L P ι} {t : ι} (c : C) :
      s.pc t = (cv c).1 → Sys.Step sect calls cv s t ⟨s.shared, Function.update s.pc t (cv c).2⟩

/-- A condition on program counters that treats the blocked and woken threads of every
condition variable alike. -/
def Closed (cv : C → P × P) (S : P → Bool) : Prop := ∀ c, S (cv c).1 = S (cv c).2

theorem Wake.Apply.count_eq [Fintype ι] {cv : C → P × P} {w : Wake C} {pc pc' : ι → P}
    (h : w.Apply cv pc pc') (hcv : ∀ c, (cv c).1 ≠ (cv c).2) {S : P → Bool}
    (hS : Closed cv S) : count pc' S = count pc S := by
  cases w with
  | none => exact congrArg (count · S) h
  | signal c k => exact (SignalN.wakes h (hcv c)).count_eq (hS c)
  | broadcast c => exact h ▸ (HttpFileServer.broadcast_wakes _ _ pc).count_eq (hS c)

/-- A section's exit on every count that treats blocked and woken threads alike: the
thread that ran it moves from its program counter to `p`, and nothing else counts. -/
theorem Wake.Apply.count_update [Fintype ι] {cv : C → P × P} {w : Wake C} {pc pc' : ι → P}
    {t : ι} {p : P} (h : w.Apply cv (Function.update pc t p) pc')
    (hcv : ∀ c, (cv c).1 ≠ (cv c).2) {S : P → Bool} (hS : Closed cv S) :
    count pc' S + (if S (pc t) then 1 else 0) = count pc S + (if S p then 1 else 0) := by
  rw [h.count_eq hcv hS]
  exact HttpFileServer.count_update pc t p S

/-- A wake-up leaves every thread that is not blocked on a condition variable alone. -/
theorem Wake.Apply.other {cv : C → P × P} {w : Wake C} {pc pc' : ι → P}
    (h : w.Apply cv pc pc') (hcv : ∀ c, (cv c).1 ≠ (cv c).2) {t : ι}
    (ht : ∀ c, pc t ≠ (cv c).1) : pc' t = pc t := by
  cases w with
  | none => exact congrFun h t
  | signal c k => exact (SignalN.wakes h (hcv c)).other (ht c)
  | broadcast c => exact h ▸ (HttpFileServer.broadcast_wakes _ _ pc).other (ht c)

/-- A wake-up moves a thread only from a condition variable's blocked program counter
to its woken one. -/
theorem Wake.Apply.pc_cases {cv : C → P × P} {w : Wake C} {pc pc' : ι → P}
    (h : w.Apply cv pc pc') (hcv : ∀ c, (cv c).1 ≠ (cv c).2) (x : ι) :
    pc' x = pc x ∨ ∃ c, pc x = (cv c).1 ∧ pc' x = (cv c).2 := by
  cases w with
  | none => exact .inl (congrFun h x)
  | signal c k => exact (SignalN.wakes h (hcv c) x).imp_right fun e => ⟨c, e⟩
  | broadcast c => subst h; exact (broadcast_wakes _ _ pc x).imp_right fun e => ⟨c, e⟩

section Step

variable {sect : L → P → Option (L × P × Wake C)} {calls : P → P → Prop} {cv : C → P × P}
  {s s' : Sys L P ι} {t : ι}

/-- A step moves a thread other than the one taking it only by waking it. -/
theorem Sys.Step.pc_other (h : Sys.Step sect calls cv s t s') (hcv : ∀ c, (cv c).1 ≠ (cv c).2)
    {x : ι} (hx : x ≠ t) : s'.pc x = s.pc x ∨ ∃ c, s.pc x = (cv c).1 ∧ s'.pc x = (cv c).2 := by
  cases h with
  | exec _ hw => simpa only [Function.update_noteq hx] using hw.pc_cases hcv x
  | call _ => exact .inl (Function.update_noteq hx _ _)
  | spurious _ _ => exact .inl (Function.update_noteq hx _ _)

/-- What a step does to the thread taking it: it runs its section (and may be woken by
the section's own wake-up), starts a call, or wakes spuriously. -/
theorem Sys.Step.pc_self (h : Sys.Step sect calls cv s t s') (hcv : ∀ c, (cv c).1 ≠ (cv c).2) :
    (∃ p w, sect s.shared (s.pc t) = some (s'.shared, p, w) ∧
      (s'.pc t = p ∨ ∃ c, p = (cv c).1 ∧ s'.pc t = (cv c).2)) ∨
    calls (s.pc t) (s'.pc t) ∨ ∃ c, s.pc t = (cv c).1 ∧ s'.pc t = (cv c).2 := by
  cases h with
  | exec hs hw =>
    exact .inl ⟨_, _, hs, by simpa only [Function.update_same] using hw.pc_cases hcv t⟩
  | call hc => exact .inr (.inl (by simpa only [Function.update_same] using hc))
  | spurious c hc => exact .inr (.inr ⟨c, hc, Function.update_same _ _ _⟩)

/-- Thread `t` runs its next section, leaving its wake-up out; a blocked thread does
nothing. Concrete runs are built from it. -/
def Sys.exec (sect : L → P → Option (L × P × Wake C)) (s : Sys L P ι) (t : ι) : Sys L P ι :=
  match sect s.shared (s.pc t) with
  | some (l, p, _) => ⟨l, Function.update s.pc t p⟩
  | none => s

/-- A section whose wake-up moves no thread is a step to `Sys.exec`. -/
theorem Sys.Step.of_exec {l : L} {p : P} {w : Wake C} (h : sect s.shared (s.pc t) = some (l, p, w))
    (hw : w.Apply cv (Function.update s.pc t p) (Function.update s.pc t p)) :
    Sys.Step sect calls cv s t (s.exec sect t) := by
  have e : s.exec sect t = ⟨l, Function.update s.pc t p⟩ := by simp [Sys.exec, h]
  exact e ▸ .exec h hw

end Step

/-- A scheduler's choice: thread `t` starts a call at `p`, or runs its next section. -/
inductive Act (P ι : Type) where
  | start (t : ι) (p : P)
  | exec (t : ι)

/-- The state after one choice of the scheduler. -/
def Sys.apply (sect : L → P → Option (L × P × Wake C)) (s : Sys L P ι) : Act P ι → Sys L P ι
  | .start t p => ⟨s.shared, Function.update s.pc t p⟩
  | .exec t => s.exec sect t

/-- The state after the first `k` choices of a schedule. -/
def Sys.trace (sect : L → P → Option (L × P × Wake C)) (s : Sys L P ι) (acts : List (Act P ι))
    (k : Nat) : Sys L P ι :=
  (acts.take k).foldl (Sys.apply sect) s

/-- The state after the first `k` steps of a schedule whose steps are lists of choices: a
section, then each thread its wake-up moves, as a `start` at its woken program counter. -/
def Sys.traceSteps (sect : L → P → Option (L × P × Wake C)) (s : Sys L P ι)
    (steps : List (List (Act P ι))) (k : Nat) : Sys L P ι :=
  (steps.take k).flatten.foldl (Sys.apply sect) s

/-- A thread system is deadlocked when some thread is inside a call and every such
thread is blocked: on a mutex or a semaphore, or on a condition variable with no
pending wake-up. -/
def Sys.Deadlocked (sect : L → P → Option (L × P × Wake C)) (idle : P) (s : Sys L P ι) :
    Prop :=
  (∃ t, s.pc t ≠ idle) ∧ ∀ t, s.pc t ≠ idle → sect s.shared (s.pc t) = none

end Sys

section Tally

variable {P C ι : Type} [DecidableEq P]

/-- `j` threads move from program counter `a` to `b`. -/
def shift (n : P → Nat) (a b : P) (j : Nat) (q : P) : Nat :=
  if q = a then n q - j else if q = b then n q + j else n q

/-- One thread moves from `a` to `b`. -/
def move (n : P → Nat) (a b : P) (q : P) : Nat :=
  n q - (if q = a then 1 else 0) + (if q = b then 1 else 0)

/-- The tally of a wake-up: a signal moves as many waiters as it is repeated, or all
there are, to the woken program counter; a broadcast moves them all. -/
def Wake.moved (cv : C → P × P) : Wake C → (P → Nat) → P → Nat
  | .none, n => n
  | .signal c k, n => shift n (cv c).1 (cv c).2 (min k (n (cv c).1))
  | .broadcast c, n => shift n (cv c).1 (cv c).2 (n (cv c).1)

variable [Fintype ι]

/-- The number of threads at each program counter. -/
def tally (pc : ι → P) (q : P) : Nat := count pc (· == q)

variable [DecidableEq ι]

theorem tally_update (pc : ι → P) (t : ι) (p : P) :
    tally (Function.update pc t p) = move (tally pc) (pc t) p := by
  funext q
  have e := count_update pc t p (· == q)
  have pos : 0 < tally pc (pc t) := count_pos_of (t := t) (by simp)
  unfold move tally at *
  simp only [beq_iff_eq] at e
  rcases eq_or_ne (pc t) q with rfl | h1
  · simp only [if_true, @eq_comm _ p] at e ⊢; omega
  · simp only [h1, Ne.symm h1, if_false, @eq_comm _ p] at e ⊢; omega

theorem shift_move {n : P → Nat} {a b : P} (hab : a ≠ b) (ha : 0 < n a) :
    move n a b = shift n a b 1 := by
  funext q
  unfold move shift
  rcases eq_or_ne q a with rfl | h1
  · simp [hab]
  · rcases eq_or_ne q b with rfl | h2 <;> simp [h1, *]

theorem shift_shift {n : P → Nat} {a b : P} (hab : a ≠ b) {i j : Nat} (h : i + j ≤ n a) :
    shift (shift n a b i) a b j = shift n a b (i + j) := by
  funext q
  unfold shift
  rcases eq_or_ne q a with rfl | h1
  · simp; omega
  · rcases eq_or_ne q b with rfl | h2 <;> simp [h1, *]; omega

theorem shift_zero (n : P → Nat) (a b : P) : shift n a b 0 = n := by
  funext q; unfold shift; split_ifs <;> rfl

theorem Signal.tally_eq {w k : P} {pc pc' : ι → P} (h : Signal w k pc pc') (hwk : w ≠ k) :
    tally pc' = shift (tally pc) w k (min 1 (tally pc w)) := by
  cases h with
  | none hn =>
    have : tally pc w = 0 := count_eq_zero_iff.2 fun t => by simpa using hn t
    rw [this, Nat.min_zero, shift_zero]
  | wake t ht =>
    have pos : 0 < tally pc w := ht ▸ count_pos_of (t := t) (by simp)
    rw [tally_update, ht, shift_move hwk pos, Nat.min_eq_left pos]

theorem SignalN.tally_eq {w k : P} {m : Nat} {pc pc' : ι → P} (h : SignalN w k m pc pc')
    (hwk : w ≠ k) : tally pc' = shift (tally pc) w k (min m (tally pc w)) := by
  induction h with
  | zero => simp [shift_zero]
  | @succ m pc pc1 pc2 hs _ ih =>
    rw [ih, hs.tally_eq hwk]
    have e : shift (tally pc) w k (min 1 (tally pc w)) w = tally pc w - min 1 (tally pc w) := by
      simp [shift]
    have j : min 1 (tally pc w) + min m (tally pc w - min 1 (tally pc w)) =
        min (m + 1) (tally pc w) := by omega
    rw [e, shift_shift hwk (j ▸ Nat.min_le_right _ _), j]

omit [DecidableEq ι] in
theorem broadcast_tally {w k : P} (pc : ι → P) (hwk : w ≠ k) :
    tally (broadcast w k pc) = shift (tally pc) w k (tally pc w) := by
  funext q
  simp only [tally, shift]
  rcases eq_or_ne q w with rfl | h1
  · simp only [if_true, Nat.sub_self]
    exact count_eq_zero_iff.2 fun t => by by_cases h : pc t = q <;> simp [broadcast, h, Ne.symm hwk]
  · rcases eq_or_ne q k with rfl | h2
    · simp only [h1, if_false, if_true, count_eq_sum, ← Finset.sum_add_distrib]
      refine Finset.sum_congr rfl fun t _ => ?_
      by_cases h : pc t = w <;> simp [broadcast, h, hwk, h1]
    · simp only [h1, h2, if_false, count_eq_sum]
      refine Finset.sum_congr rfl fun t _ => ?_
      by_cases h : pc t = w <;> simp [broadcast, h, Ne.symm h1, Ne.symm h2]

theorem Wake.Apply.tally_eq {cv : C → P × P} {w : Wake C} {pc pc' : ι → P}
    (h : w.Apply cv pc pc') (hcv : ∀ c, (cv c).1 ≠ (cv c).2) :
    tally pc' = w.moved cv (tally pc) := by
  cases w with
  | none => exact congrArg _ h
  | signal c k => exact SignalN.tally_eq h (hcv c)
  | broadcast c => exact h ▸ broadcast_tally pc (hcv c)

variable {L : Type}

/-- What a step does to the tally: the moving thread goes from its program counter to a
new one, after which the wake-up of its section moves waiters. -/
theorem Sys.Step.tally_cases {sect : L → P → Option (L × P × Wake C)} {calls : P → P → Prop}
    {cv : C → P × P} {s s' : Sys L P ι} {t : ι} (h : Sys.Step sect calls cv s t s')
    (hcv : ∀ c, (cv c).1 ≠ (cv c).2) :
    (∃ p w, sect s.shared (s.pc t) = some (s'.shared, p, w) ∧
      tally s'.pc = w.moved cv (move (tally s.pc) (s.pc t) p)) ∨
    (∃ p, calls (s.pc t) p ∧ s'.shared = s.shared ∧
      tally s'.pc = move (tally s.pc) (s.pc t) p) ∨
    (∃ c, s.pc t = (cv c).1 ∧ s'.shared = s.shared ∧
      tally s'.pc = move (tally s.pc) (cv c).1 (cv c).2) := by
  cases h with
  | exec hsect hw => exact .inl ⟨_, _, hsect, by rw [hw.tally_eq hcv, tally_update]⟩
  | call hc => exact .inr (.inl ⟨_, hc, rfl, tally_update _ _ _⟩)
  | spurious c hpc => exact .inr (.inr ⟨c, hpc, rfl, by rw [tally_update, hpc]⟩)

omit [DecidableEq ι] in
theorem tally_le_card (pc : ι → P) (q : P) : tally pc q ≤ Fintype.card ι :=
  Finset.card_filter_le _ _

omit [DecidableEq ι] in
/-- Every thread is counted at its own program counter. -/
theorem tally_pos_self (pc : ι → P) (t : ι) : 0 < tally pc (pc t) :=
  count_pos_of (t := t) (by simp)

omit [DecidableEq ι] in
/-- A thread system in which some thread inside a call can run its next section is not
deadlocked. -/
theorem Sys.not_deadlocked_of {sect : L → P → Option (L × P × Wake C)} {idle : P}
    {s : Sys L P ι} (h : ∃ q, q ≠ idle ∧ 0 < tally s.pc q ∧ (sect s.shared q).isSome) :
    ¬ s.Deadlocked sect idle := by
  rintro ⟨-, hd⟩
  obtain ⟨q, hq, hpos, hsome⟩ := h
  obtain ⟨t, ht⟩ := count_pos_iff.1 hpos
  simp only [beq_iff_eq] at ht
  subst ht
  rw [hd t hq] at hsome
  exact Bool.false_ne_true hsome

omit [DecidableEq ι] in
theorem Sys.exists_busy {idle : P} {s : Sys L P ι} (h : ∃ t, s.pc t ≠ idle) :
    ∃ q, q ≠ idle ∧ 0 < tally s.pc q := by
  obtain ⟨t, ht⟩ := h
  exact ⟨s.pc t, ht, count_pos_of (t := t) (by simp)⟩

end Tally

section Runs

variable {S L : Type}

/-- The states reachable from `init` by a labelled step relation. -/
inductive Reachable (init : S) (step : S → L → S → Prop) : S → Prop
  | init : Reachable init step init
  | step {s s' : S} {l : L} : Reachable init step s → step s l s' → Reachable init step s'

/-- `σ 0, …, σ m` is a run from `init`: each state follows the one before by a step. -/
def IsRun (init : S) (step : S → L → S → Prop) (σ : Nat → S) (m : Nat) : Prop :=
  σ 0 = init ∧ ∀ i < m, ∃ l, step (σ i) l (σ (i + 1))

theorem IsRun.reachable {init : S} {step : S → L → S → Prop} {σ : Nat → S} {m : Nat}
    (h : IsRun init step σ m) : ∀ i ≤ m, Reachable init step (σ i) := by
  intro i hi
  induction i with
  | zero => exact h.1 ▸ .init
  | succ i ih =>
    obtain ⟨l, hl⟩ := h.2 i (by omega)
    exact .step (ih (by omega)) hl

/-- A property that holds initially and is kept by every step holds of every reachable state. -/
theorem Reachable.invariant {init : S} {step : S → L → S → Prop} {I : S → Prop}
    (h0 : I init) (hstep : ∀ s l s', I s → step s l s' → I s') {s : S}
    (h : Reachable init step s) : I s := by
  induction h with
  | init => exact h0
  | step _ hs ih => exact hstep _ _ _ ih hs

end Runs

end HttpFileServer

import HttpFileServer.Threads

/-!
# The lock record shared by every policy of `rwlock.c`

`struct rwlock` holds a union of per-policy states next to the fields every
policy uses: `readers_holding`, `rw->mutex` and the `write_lock` semaphore.

* `Rwlock S` is that record over a policy state `S`; `Rwlock.new` is what
  `rwlock_new` sets around the policy state.
* `locked` and `semWait` are the two ways an atomic section can start: by taking
  `rw->mutex`, or when `sem_wait(&rw->write_lock)` returns.
* `Exclusive` is mutual exclusion: at most one writer holds the lock, never
  together with a reader, and the gate has exactly one owner.
-/

namespace HttpFileServer

/-- `struct rwlock` over the state of its policy. `mutex` says whether `rw->mutex`
is locked; `writeLock` is the value of the `write_lock` semaphore. -/
structure Rwlock (S : Type) where
  state : S
  readersHolding : Nat
  mutex : Bool
  writeLock : Nat
  deriving DecidableEq, Repr

namespace Rwlock

variable {S α : Type}

/-- The common part of `rwlock_new`: no reader holds, the mutex is free and
`sem_init(&rw->write_lock, 0, 1)`. -/
def new (st : S) : Rwlock S :=
  { state := st, readersHolding := 0, mutex := false, writeLock := 1 }

/-- A section that begins with `pthread_mutex_lock(&rw->mutex)`. -/
def locked (s : Rwlock S) (r : α) : Option α := if s.mutex then none else some r

/-- A section that begins when `sem_wait(&rw->write_lock)` returns. -/
def semWait (s : Rwlock S) (k : Rwlock S → α) : Option α :=
  if s.writeLock = 0 then none else some (k { s with writeLock := s.writeLock - 1 })

theorem locked_eq_some {s : Rwlock S} {r r' : α} (h : locked s r = some r') :
    s.mutex = false ∧ r = r' := by
  cases hm : s.mutex <;> simp_all [locked]

/-- Mutual exclusion, given the number of writers past their `sem_wait` and of readers
past `reader_lock`: at most one writer, never together with a reader, and the value of
the gate, a reader cohort and the writers add up to one. -/
def Exclusive (writers readers : Nat) (l : Rwlock S) : Prop :=
  writers ≤ 1 ∧ (readers = 0 ∨ writers = 0) ∧ l.writeLock + min 1 l.readersHolding + writers = 1

/-- Mutual exclusion follows from the gate having one owner and `readers_holding`
counting the readers. -/
theorem exclusive_of_gate {writers readers : Nat} {l : Rwlock S}
    (hg : l.writeLock + min 1 l.readersHolding + writers = 1) (hr : l.readersHolding = readers) :
    Exclusive writers readers l := by
  unfold Exclusive; omega

end Rwlock

end HttpFileServer

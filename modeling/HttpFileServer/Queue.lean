import HttpFileServer.Threads

/-!
# The bounded queue (`queue.c`)

Producers and consumers share a circular buffer of `size` slots. A push waits on
`wr_sem`, writes the `head` slot under `wr_lock` and posts `rd_sem`; a pop waits
on `rd_sem`, reads the `tail` slot under `rd_lock` and posts `wr_sem`.

The model keeps, as ghost state, the elements pushed in the order of the `head`
slots they claimed and the values popped in the order of the `tail` slots.

* `Inv`: every semaphore token is in exactly one place, the unread slots are the
  pushed elements not yet popped, and the popped values are the first pushed
  elements (`inv_reachable`).
* `queue_safe`: the number of unread slots stays within `[0, size]`, a push never
  writes an unread slot, a pop always reads a written one, `head` and `tail` stay
  below `size`, and the popped sequence is a prefix of the pushed one.
-/

namespace HttpFileServer

/-- `struct queue`: the circular buffer (a slot never written holds `none`), `head`,
`tail` and the values of `rd_sem` and `wr_sem`; as ghost state, the elements pushed in
the order of their `head` slots and the values popped in the order of their `tail` slots.
The mutexes are left out: `wr_lock` and `rd_lock` each guard one atomic section. -/
structure Queue (α : Type) where
  size : Nat
  buf : Nat → Option α
  head : Nat
  tail : Nat
  rdSem : Nat
  wrSem : Nat
  pushed : List α
  popped : List (Option α)

namespace Queue

variable {α : Type}

/-- The queue `queue_new` builds: no slot written, `rd_sem` at `0` and `wr_sem` at `size`. -/
def empty (size : Nat) : Queue α :=
  { size := size, buf := fun _ => none, head := 0, tail := 0, rdSem := 0, wrSem := size,
    pushed := [], popped := [] }

/-- `queue_new(size)`: `NULL` unless `size > 0`. -/
def queueNew (size : Int) : Option (Queue α) :=
  if size ≤ 0 then none else some (empty size.toNat)

/-- Where a thread is in `queue_push` or `queue_pop`: in `sem_wait`, before the section
under the mutex, before `sem_post` (a pop holding the value it read). -/
inductive Pc (α : Type) where
  | idle
  | pushWait (e : α) | pushCrit (e : α) | pushPost
  | popWait | popCrit | popPost (e : Option α)
  deriving DecidableEq

/-- `q->buf[q->head++] = elem; q->head %= q->size;` under `wr_lock`. -/
def pushCrit (q : Queue α) (e : α) : Queue α :=
  { q with buf := Function.update q.buf q.head (some e), head := (q.head + 1) % q.size,
           pushed := q.pushed ++ [e] }

/-- `*elem = q->buf[q->tail++]; q->tail %= q->size;` under `rd_lock`. -/
def popCrit (q : Queue α) : Queue α :=
  { q with tail := (q.tail + 1) % q.size, popped := q.popped ++ [q.buf q.tail] }

/-- The atomic section a thread runs next; `none` when it is blocked. The queue has no
condition variable. -/
def sect (q : Queue α) : Pc α → Option (Queue α × Pc α × Wake Empty)
  | .idle => none
  | .pushWait e => if q.wrSem = 0 then none else some ({ q with wrSem := q.wrSem - 1 }, .pushCrit e, .none)
  | .pushCrit e => some (pushCrit q e, .pushPost, .none)
  | .pushPost => some ({ q with rdSem := q.rdSem + 1 }, .idle, .none)
  | .popWait => if q.rdSem = 0 then none else some ({ q with rdSem := q.rdSem - 1 }, .popCrit, .none)
  | .popCrit => some (popCrit q, .popPost (q.buf q.tail), .none)
  | .popPost _ => some ({ q with wrSem := q.wrSem + 1 }, .idle, .none)

/-- A thread between calls may push any element or pop. -/
inductive Calls : Pc α → Pc α → Prop
  | push (e : α) : Calls .idle (.pushWait e)
  | pop : Calls .idle .popWait

theorem Calls.cases {a b : Pc α} (h : Calls a b) :
    a = .idle ∧ ((∃ e, b = .pushWait e) ∨ b = .popWait) := by
  cases h <;> simp

/-- The queue has no condition variable. -/
def cv : Empty → Pc α × Pc α := fun c => nomatch c

/-- A queue and the program counters of the threads using it. -/
abbrev State (α ι : Type) := Sys (Queue α) (Pc α) ι

/-- The queue `q`, no thread inside a call. -/
def init (ι : Type) (q : Queue α) : State α ι := ⟨q, fun _ => .idle⟩

variable {ι : Type}

/-- One step of one thread. -/
def Step [DecidableEq ι] [DecidableEq α] : State α ι → ι → State α ι → Prop :=
  Sys.Step sect Calls cv

/-- A push past `sem_wait(&q->wr_sem)`, before its section. -/
def Pc.isPushCrit : Pc α → Bool | .pushCrit _ => true | _ => false

/-- A push before `sem_post(&q->rd_sem)`. -/
def Pc.isPushPost : Pc α → Bool | .pushPost => true | _ => false

/-- A pop past `sem_wait(&q->rd_sem)`, before its section. -/
def Pc.isPopCrit : Pc α → Bool | .popCrit => true | _ => false

/-- A pop before `sem_post(&q->wr_sem)`. -/
def Pc.isPopPost : Pc α → Bool | .popPost _ => true | _ => false

/-- Two slot numbers less than `size` apart name different slots. -/
theorem mod_ne_of_lt {size j k : Nat} (hjk : j < k) (hk : k < j + size) : j % size ≠ k % size := by
  intro h
  have h0 := Nat.sub_mod_eq_zero_of_mod_eq h.symm
  rw [Nat.mod_eq_of_lt (by omega)] at h0
  omega

section Inv

variable [Fintype ι]

/-- The invariant of the queue. Every token of the two semaphores is in one place: in
`wr_sem`, with a push between its `sem_wait` and its `sem_post`, in `rd_sem`, or with a pop
(`tokens`); the slots pushed and not yet popped are those whose token is past the push's
section and before the pop's (`unread`); they hold the pushed elements (`buf`); and the
values popped are the first elements pushed (`popped`). -/
structure Inv (q : Queue α) (pc : ι → Pc α) : Prop where
  size_pos : 0 < q.size
  head : q.head = q.pushed.length % q.size
  tail : q.tail = q.popped.length % q.size
  tokens : q.wrSem + count pc Pc.isPushCrit + count pc Pc.isPushPost + q.rdSem +
    count pc Pc.isPopCrit + count pc Pc.isPopPost = q.size
  unread : q.popped.length + count pc Pc.isPushPost + q.rdSem + count pc Pc.isPopCrit =
    q.pushed.length
  buf : ∀ j, q.popped.length ≤ j → j < q.pushed.length → q.buf (j % q.size) = q.pushed[j]?
  popped : q.popped = (q.pushed.take q.popped.length).map some

/-- The section of `queue_push` writes a slot that holds no unread element, and keeps the
unread slots and the popped prefix. -/
theorem Inv.write_head {q : Queue α} {pc : ι → Pc α} (hI : Inv q pc) (e : α)
    (hlt : q.pushed.length < q.popped.length + q.size) :
    (pushCrit q e).head = (pushCrit q e).pushed.length % q.size ∧
    (∀ j, q.popped.length ≤ j → j < (pushCrit q e).pushed.length →
      (pushCrit q e).buf (j % q.size) = (pushCrit q e).pushed[j]?) ∧
    q.popped = ((pushCrit q e).pushed.take q.popped.length).map some := by
  refine ⟨?_, fun j hj hjn => ?_, ?_⟩
  · simp [pushCrit, hI.head, Nat.mod_add_mod]
  · simp only [pushCrit, List.length_append, List.length_singleton] at hjn ⊢
    rcases Nat.lt_succ_iff_lt_or_eq.1 hjn with hj' | rfl
    · rw [Function.update_noteq (hI.head ▸ mod_ne_of_lt hj' (by omega)), hI.buf j hj hj',
        List.getElem?_append_left hj']
    · rw [hI.head, Function.update_same, List.getElem?_concat_length]
  · have hle : q.popped.length ≤ q.pushed.length := by have := hI.unread; omega
    simp only [pushCrit, List.take_append_of_le_length hle]
    exact hI.popped

/-- The section of `queue_pop` reads the first unread slot, which holds the next element
pushed, and keeps the other unread slots. -/
theorem Inv.read_tail {q : Queue α} {pc : ι → Pc α} (hI : Inv q pc)
    (hlt : q.popped.length < q.pushed.length) :
    (popCrit q).tail = (popCrit q).popped.length % q.size ∧
    (popCrit q).popped = (q.pushed.take (popCrit q).popped.length).map some := by
  refine ⟨by simp [popCrit, hI.tail, Nat.mod_add_mod], ?_⟩
  simp only [popCrit, List.length_append, List.length_singleton]
  rw [List.take_succ, List.map_append, ← hI.popped, hI.tail, hI.buf _ le_rfl hlt,
    List.getElem?_eq_getElem hlt]
  rfl

variable [DecidableEq ι]

/-- Every section keeps the invariant. -/
theorem Inv.after_sect {q q' : Queue α} {pc : ι → Pc α} {t : ι} {p : Pc α} {w : Wake Empty}
    (hI : Inv q pc) (h : sect q (pc t) = some (q', p, w)) : Inv q' (Function.update pc t p) := by
  have c1 := count_update pc t p Pc.isPushCrit
  have c2 := count_update pc t p Pc.isPushPost
  have c3 := count_update pc t p Pc.isPopCrit
  have c4 := count_update pc t p Pc.isPopPost
  have pos := fun S (hS : S (pc t) = true) => (count_pos_of hS : 0 < count pc S)
  have tk := hI.tokens
  have ur := hI.unread
  rcases hpc : pc t with _ | e | e | _ | _ | _ | e <;>
    simp only [hpc, sect] at h <;> (try split_ifs at h) <;>
    simp only [Option.some.injEq, Prod.mk.injEq, reduceCtorEq] at h <;>
    obtain ⟨rfl, rfl, -⟩ := h <;>
    simp only [hpc, Pc.isPushCrit, Pc.isPushPost, Pc.isPopCrit, Pc.isPopPost, Bool.false_eq_true,
      if_true, if_false] at c1 c2 c3 c4 pos
  -- `sem_wait(&q->wr_sem)`: a token moves from the semaphore to the push
  · exact ⟨hI.size_pos, hI.head, hI.tail, by dsimp only; omega, by dsimp only; omega, hI.buf,
      hI.popped⟩
  -- the push's section writes the head slot
  · have p1 := pos Pc.isPushCrit rfl
    obtain ⟨hh, hb, hp⟩ := hI.write_head e (by omega)
    exact ⟨hI.size_pos, hh, hI.tail, by dsimp only [pushCrit]; omega,
      by simp only [pushCrit, List.length_append, List.length_singleton]; omega, hb, hp⟩
  -- `sem_post(&q->rd_sem)`
  · exact ⟨hI.size_pos, hI.head, hI.tail, by dsimp only; omega, by dsimp only; omega, hI.buf,
      hI.popped⟩
  -- `sem_wait(&q->rd_sem)`
  · exact ⟨hI.size_pos, hI.head, hI.tail, by dsimp only; omega, by dsimp only; omega, hI.buf,
      hI.popped⟩
  -- the pop's section reads the tail slot
  · have p3 := pos Pc.isPopCrit rfl
    obtain ⟨ht, hp⟩ := hI.read_tail (by omega)
    exact ⟨hI.size_pos, hI.head, ht, by dsimp only [popCrit]; omega,
      by simp only [popCrit, List.length_append, List.length_singleton]; omega,
      fun j hj hjn => hI.buf j (by simp [popCrit] at hj; omega) hjn, hp⟩
  -- `sem_post(&q->wr_sem)`
  · exact ⟨hI.size_pos, hI.head, hI.tail, by dsimp only; omega, by dsimp only; omega, hI.buf,
      hI.popped⟩

/-- Starting a call moves no token and touches no slot. -/
theorem Inv.after_call {q : Queue α} {pc : ι → Pc α} {t : ι} {p : Pc α} (hI : Inv q pc)
    (h : Calls (pc t) p) : Inv q (Function.update pc t p) := by
  have c1 := count_update pc t p Pc.isPushCrit
  have c2 := count_update pc t p Pc.isPushPost
  have c3 := count_update pc t p Pc.isPopCrit
  have c4 := count_update pc t p Pc.isPopPost
  have tk := hI.tokens
  have ur := hI.unread
  obtain ⟨h0, ⟨e, rfl⟩ | rfl⟩ := h.cases <;> simp only [h0, Pc.isPushCrit, Pc.isPushPost,
    Pc.isPopCrit, Pc.isPopPost, Bool.false_eq_true, if_false] at c1 c2 c3 c4 <;>
    exact ⟨hI.size_pos, hI.head, hI.tail, by omega, by omega, hI.buf, hI.popped⟩

variable [DecidableEq α]

theorem Inv.step {s s' : State α ι} {t : ι} (hI : Inv s.shared s.pc) (h : Step s t s') :
    Inv s'.shared s'.pc := by
  cases h with
  | @exec _ _ w _ hs hw =>
    cases w with
    | none => exact hw ▸ hI.after_sect hs
    | signal c _ => exact c.elim
    | broadcast c => exact c.elim
  | call hc => exact hI.after_call hc
  | spurious c => exact c.elim

omit [DecidableEq ι] [DecidableEq α] in
theorem inv_init {size : Int} {q : Queue α} (hq : queueNew size = some q) :
    Inv (init ι q).shared (init ι q).pc := by
  unfold queueNew at hq
  split_ifs at hq with hs
  cases hq
  have z : ∀ S : Pc α → Bool, S .idle = false → count (fun _ : ι => Pc.idle) S = 0 :=
    fun S hS => count_eq_zero_iff.2 fun _ => hS
  refine ⟨show 0 < size.toNat by omega, rfl, rfl, ?_, ?_, by simp [init, empty], rfl⟩ <;>
    simp [init, empty, z Pc.isPushCrit rfl, z Pc.isPushPost rfl, z Pc.isPopCrit rfl,
      z Pc.isPopPost rfl]

theorem inv_reachable {size : Int} {q : Queue α} (hq : queueNew size = some q) {s : State α ι}
    (h : Reachable (init ι q) Step s) : Inv s.shared s.pc :=
  Reachable.invariant (I := fun s : State α ι => Inv s.shared s.pc) (inv_init hq)
    (fun _ _ _ hI hs => hI.step hs) h

/-- The safety of `queue_push` and `queue_pop` in every reachable state, whatever the
producers and consumers and their interleaving. (1) Between none and `size` slots are
written and not read. (2) A push about to write finds no unread element in its slot.
(3) A pop about to read finds its slot written, with the next element pushed. (4) `head`
and `tail` stay below `size`. And the values popped, in the order of their `tail` slots,
are a prefix of the elements pushed, in the order of their `head` slots. -/
theorem queue_safe {size : Int} {q : Queue α} (hq : queueNew size = some q) {s : State α ι}
    (h : Reachable (init ι q) Step s) :
    (s.shared.popped.length ≤ s.shared.pushed.length ∧
      s.shared.pushed.length ≤ s.shared.popped.length + s.shared.size) ∧
    (∀ t e, s.pc t = .pushCrit e → ∀ j, s.shared.popped.length ≤ j →
      j < s.shared.pushed.length → j % s.shared.size ≠ s.shared.head) ∧
    (∀ t, s.pc t = .popCrit → s.shared.popped.length < s.shared.pushed.length ∧
      s.shared.buf s.shared.tail = s.shared.pushed[s.shared.popped.length]?) ∧
    (s.shared.head < s.shared.size ∧ s.shared.tail < s.shared.size) ∧
    s.shared.popped <+: s.shared.pushed.map some := by
  have hI := inv_reachable hq h
  have tk := hI.tokens
  have ur := hI.unread
  refine ⟨⟨by omega, by omega⟩, fun t e ht j hj hjn => ?_, fun t ht => ?_,
    ⟨hI.head ▸ Nat.mod_lt _ hI.size_pos, hI.tail ▸ Nat.mod_lt _ hI.size_pos⟩, ?_⟩
  · have : 0 < count s.pc Pc.isPushCrit := count_pos_of (t := t) (by simp [ht, Pc.isPushCrit])
    exact hI.head ▸ mod_ne_of_lt hjn (by omega)
  · have : 0 < count s.pc Pc.isPopCrit := count_pos_of (t := t) (by simp [ht, Pc.isPopCrit])
    exact ⟨by omega, hI.tail ▸ hI.buf _ le_rfl (by omega)⟩
  · rw [hI.popped, List.map_take]
    exact List.take_prefix _ _

/-- A queue of two slots: thread `0` pushes `5` and `6`, thread `1` pops, and thread `0` starts a
push of `7` and passes `sem_wait(&q->wr_sem)`, about to write. -/
def safeRun : Nat → State Nat (Fin 2) :=
  Sys.trace sect (init (Fin 2) (empty 2))
    [.start 0 (.pushWait 5), .exec 0, .exec 0, .exec 0, .start 0 (.pushWait 6), .exec 0, .exec 0,
      .exec 0, .start 1 .popWait, .exec 1, .exec 1, .exec 1, .start 0 (.pushWait 7), .exec 0]

theorem safeRun_isRun : IsRun (init (Fin 2) (empty 2)) Step safeRun 14 := ⟨rfl, fun k hk =>
  match k, hk with
  | 0, _ => ⟨0, .call (.push 5)⟩
  | 1, _ => ⟨0, .of_exec rfl rfl⟩
  | 2, _ => ⟨0, .of_exec rfl rfl⟩
  | 3, _ => ⟨0, .of_exec rfl rfl⟩
  | 4, _ => ⟨0, .call (.push 6)⟩
  | 5, _ => ⟨0, .of_exec rfl rfl⟩
  | 6, _ => ⟨0, .of_exec rfl rfl⟩
  | 7, _ => ⟨0, .of_exec rfl rfl⟩
  | 8, _ => ⟨1, .call .pop⟩
  | 9, _ => ⟨1, .of_exec rfl rfl⟩
  | 10, _ => ⟨1, .of_exec rfl rfl⟩
  | 11, _ => ⟨1, .of_exec rfl rfl⟩
  | 12, _ => ⟨0, .call (.push 7)⟩
  | 13, _ => ⟨0, .of_exec rfl rfl⟩⟩

/-- The pop took `5`, and the push of `7` is about to write the slot `5` was read from, not the
slot of `6`, which is still unread. -/
theorem queue_safe_run :
    (safeRun 14).pc 0 = .pushCrit 7 ∧ (safeRun 14).shared.pushed = [5, 6] ∧
      (safeRun 14).shared.popped = [some 5] ∧
      1 % (safeRun 14).shared.size ≠ (safeRun 14).shared.head :=
  ⟨rfl, rfl, rfl, (queue_safe (rfl : queueNew (α := Nat) 2 = some (empty 2))
    (safeRun_isRun.reachable 14 le_rfl)).2.1 0 7 rfl 1 (by decide) (by decide)⟩

omit [DecidableEq ι] [DecidableEq α] [Fintype ι] in
/-- A thread past one of its `sem_wait`s can always run its next section. -/
theorem sect_isSome_of_past {q : Queue α} {p : Pc α}
    (hp : (p.isPushCrit || p.isPushPost || p.isPopCrit || p.isPopPost) = true) :
    p ≠ .idle ∧ (sect q p).isSome := by
  cases p <;> simp_all [Pc.isPushCrit, Pc.isPushPost, Pc.isPopCrit, Pc.isPopPost, sect]

/-- Producers and consumers never block one another for good: in every reachable state in
which a push waits on `wr_sem` and a pop on `rd_sem`, some thread inside a call can run. Both
semaphores are then `0`, so the `size` tokens are all with threads past a `sem_wait`. -/
theorem queue_progress {size : Int} {q : Queue α} (hq : queueNew size = some q) {s : State α ι}
    (h : Reachable (init ι q) Step s) {t u : ι} {e : α} (ht : s.pc t = .pushWait e)
    (hu : s.pc u = .popWait) : ¬ s.Deadlocked sect .idle := by
  rintro ⟨-, hd⟩
  have hI := inv_reachable hq h
  have hw : s.shared.wrSem = 0 := by simpa [ht, sect] using hd t (by simp [ht])
  have hr : s.shared.rdSem = 0 := by simpa [hu, sect] using hd u (by simp [hu])
  have tk := hI.tokens
  have hpos := hI.size_pos
  obtain ⟨v, hv⟩ : ∃ v, ((s.pc v).isPushCrit || (s.pc v).isPushPost || (s.pc v).isPopCrit ||
      (s.pc v).isPopPost) = true := by
    rcases (by omega : 0 < count s.pc Pc.isPushCrit ∨ 0 < count s.pc Pc.isPushPost ∨
        0 < count s.pc Pc.isPopCrit ∨ 0 < count s.pc Pc.isPopPost) with h | h | h | h <;>
      obtain ⟨v, hv⟩ := count_pos_iff.1 h <;> exact ⟨v, by simp [hv]⟩
  obtain ⟨hidle, hsome⟩ := sect_isSome_of_past (q := s.shared) hv
  rw [hd v hidle] at hsome
  exact Bool.false_ne_true hsome

/-- A new queue of one slot: a push of `5` is called, then a pop. -/
def progressRun : Nat → State Nat (Fin 2) :=
  Sys.trace sect (init (Fin 2) (empty 1)) [.start 0 (.pushWait 5), .start 1 .popWait]

/-- With the push and the pop both inside their calls, one of them can run. -/
theorem progressRun_live : ¬ (progressRun 2).Deadlocked sect .idle := by
  have hrun : IsRun (init (Fin 2) (empty 1)) Step progressRun 2 := ⟨rfl, fun k hk =>
    match k, hk with
    | 0, _ => ⟨0, .call (.push 5)⟩
    | 1, _ => ⟨1, .call .pop⟩⟩
  exact queue_progress (rfl : queueNew (α := Nat) 1 = some (empty 1)) (hrun.reachable 2 le_rfl)
    (t := 0) (u := 1) (e := 5) rfl rfl

end Inv

end Queue

end HttpFileServer

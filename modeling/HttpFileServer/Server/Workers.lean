import HttpFileServer.Server.Registry

/-!
# The workers of the server (`handle_connection` in `asgn4/httpserver.c`)

`thread_count` workers pop requests and serve each GET or PUT between
`find_file_lock` and `release_file_lock`, holding the slot's rwlock as reader or
writer around the handler and the audit line. The registry has one slot per
worker, each with the lock `rwlock_new(N_WAY, 1)` returned.

* `Step` is one step of one worker: a request arrives, `find_file_lock` runs (and a
  `NULL` result is dereferenced), a step inside the slot's rwlock, or
  `release_file_lock`. A step inside a slot's rwlock is a step of the N_WAY model.
* `slot_reachable`: every slot's rwlock, with the workers holding the slot, is a
  reachable state of the N_WAY model, so its invariant holds there.
* `put_overlaps_get`: yet a PUT and a GET of one URI can be inside two different slots.
* `slot_exclusive`: the requests inside one slot are serialized as its rwlock promises.
* `server_progress`: the server never deadlocks, since no slot's rwlock does.
-/

namespace HttpFileServer.Server

open Rwlock

/-- The methods `handle_connection` takes a lock for. -/
inductive Method
  | get | put
  deriving DecidableEq, Repr

/-- Where a request's rwlock call starts: `reader_lock` for a GET, `writer_lock` for a PUT. -/
def Method.lockPc : Method → NWay.Pc
  | .get => .rdLock
  | .put => .wrLock

variable {T : Nat}

/-- Where a worker is in `worker_thread`: waiting for a request; about to call
`find_file_lock` for a GET or PUT of `uri`; holding slot `i`, inside its rwlock at `p`
(back at `.idle` once the unlock returned, before `release_file_lock`); or stopped after
dereferencing a `NULL` slot. -/
inductive Phase (T : Nat)
  | idle
  | find (m : Method) (uri : String)
  | held (m : Method) (uri : String) (i : Fin T) (p : NWay.Pc)
  | crashed
  deriving DecidableEq, Repr

/-- The registry and every worker's place. -/
structure ServerState (T : Nat) where
  fileLocks : Fin T → FileLock
  phase : Fin T → Phase T

/-- Before any request: every slot free with the lock `rwlock_new(N_WAY, 1)`. -/
def ServerState.init (T : Nat) : ServerState T := ⟨fun _ => ⟨NWay.nway1, none, 0⟩, fun _ => .idle⟩

/-- A worker's program counter in slot `i`'s rwlock; idle unless it holds the slot. -/
def Phase.slotPc (i : Fin T) : Phase T → NWay.Pc
  | .held _ _ j p => if j = i then p else .idle
  | _ => .idle

/-- The program counters of the workers in slot `i`'s rwlock. -/
def slotPc (phase : Fin T → Phase T) (i : Fin T) (w : Fin T) : NWay.Pc := (phase w).slotPc i

/-- Slot `i`'s rwlock with the workers using it. -/
def ServerState.slot (s : ServerState T) (i : Fin T) : NWay.State (Fin T) :=
  ⟨(s.fileLocks i).lock, slotPc s.phase i⟩

/-- The workers' places after a step of slot `i`'s rwlock left its threads at `pc`. -/
def setSlotPc (phase : Fin T → Phase T) (i : Fin T) (pc : Fin T → NWay.Pc) : Fin T → Phase T :=
  fun w => match phase w with
  | .held m u j p => if j = i then .held m u j (pc w) else .held m u j p
  | ph => ph

/-- One step of worker `w`. Requests that fail to parse, lack a `Request-Id` or have
another method touch no shared state and are left out. -/
inductive Step : ServerState T → Fin T → ServerState T → Prop
  | request {s : ServerState T} {w : Fin T} (m : Method) (uri : String) :
      s.phase w = .idle → Step s w { s with phase := Function.update s.phase w (.find m uri) }
  | find {s : ServerState T} {w : Fin T} {m : Method} {uri : String} {i : Fin T}
      {fls : Fin T → FileLock} :
      s.phase w = .find m uri → findFileLock uri s.fileLocks = some (i, fls) →
      Step s w ⟨fls, Function.update s.phase w (.held m uri i m.lockPc)⟩
  | findNull {s : ServerState T} {w : Fin T} {m : Method} {uri : String} :
      s.phase w = .find m uri → findFileLock uri s.fileLocks = none →
      Step s w { s with phase := Function.update s.phase w .crashed }
  | lock {s : ServerState T} {w : Fin T} {m : Method} {uri : String} {i : Fin T} {p : NWay.Pc}
      {l : NWay.Lock} {pc : Fin T → NWay.Pc} :
      s.phase w = .held m uri i p → p ≠ .idle → NWay.Step (s.slot i) w ⟨l, pc⟩ →
      Step s w ⟨Function.update s.fileLocks i { s.fileLocks i with lock := l },
        setSlotPc s.phase i pc⟩
  | release {s : ServerState T} {w : Fin T} {m : Method} {uri : String} {i : Fin T} :
      s.phase w = .held m uri i .idle →
      Step s w ⟨releaseFileLock s.fileLocks i, Function.update s.phase w .idle⟩

/-- What `release_file_lock` leaves of a slot's rwlock: all of it. -/
theorem releaseFileLock_lock (fls : Fin T → FileLock) (i j : Fin T) :
    (releaseFileLock fls i j).lock = (fls j).lock := by
  by_cases h : j = i
  · subst h; simp [releaseFileLock]
  · simp [releaseFileLock, Function.update_noteq h]

theorem slotPc_update (phase : Fin T → Phase T) (i w : Fin T) (ph : Phase T) :
    slotPc (Function.update phase w ph) i = Function.update (slotPc phase i) w (ph.slotPc i) := by
  funext x
  by_cases h : x = w
  · subst h; simp [slotPc]
  · simp [slotPc, Function.update_noteq h]

/-- A worker moving between places outside slot `i` leaves the slot's threads alone. -/
theorem slotPc_update_idle {phase : Fin T → Phase T} {i w : Fin T} {ph : Phase T}
    (hw : (phase w).slotPc i = .idle) (hph : ph.slotPc i = .idle) :
    slotPc (Function.update phase w ph) i = slotPc phase i := by
  rw [slotPc_update, hph, ← hw]
  exact Function.update_eq_self w _

/-- A step of slot `j`'s rwlock leaves the other slots' threads alone. -/
theorem slotPc_setSlotPc_ne {phase : Fin T → Phase T} {i j : Fin T} {pc : Fin T → NWay.Pc}
    (hij : j ≠ i) : slotPc (setSlotPc phase j pc) i = slotPc phase i := by
  funext x
  simp only [slotPc, setSlotPc]
  split <;> (try split) <;> simp_all [Phase.slotPc]

/-- After a step of slot `j`'s rwlock its threads are where the step left them, provided the
step left every worker not holding the slot idle. -/
theorem slotPc_setSlotPc_self {phase : Fin T → Phase T} {j : Fin T} {pc : Fin T → NWay.Pc}
    (h : ∀ x, slotPc phase j x = .idle → pc x = .idle) : slotPc (setSlotPc phase j pc) j = pc := by
  funext x
  have hx := h x
  simp only [slotPc, setSlotPc] at hx ⊢
  split <;> (try split) <;> simp_all [Phase.slotPc]

/-- A step of an N_WAY lock leaves a thread between calls there, unless it is the one
stepping. -/
theorem NWay.Step.idle_of_ne {ι : Type} [DecidableEq ι] {s s' : NWay.State ι} {t x : ι}
    (h : NWay.Step s t s') (hx : x ≠ t) (hi : s.pc x = .idle) : s'.pc x = .idle := by
  rcases Sys.Step.pc_other h NWay.cv_ne hx with e | ⟨c, hc, -⟩
  · rwa [e]
  · cases c <;> simp [NWay.cv, hi] at hc

theorem Phase.slotPc_held_idle (m : Method) (uri : String) (i j : Fin T) :
    (Phase.held m uri j .idle).slotPc i = .idle := by
  simp [Phase.slotPc]

/-- Every slot's rwlock, with the workers holding the slot as its threads, is a reachable
state of the N_WAY model from `rwlock_new(N_WAY, 1)`: each step of the server is a step
of that model or leaves the slot alone. -/
theorem slot_reachable {s : ServerState T} (h : Reachable (ServerState.init T) Step s)
    (i : Fin T) : Reachable (NWay.init (Fin T) NWay.nway1) NWay.Step (s.slot i) := by
  induction h with
  | init => exact .init
  | @step s s' w _ hs ih =>
    cases hs with
    | request m uri hw =>
      have e : slotPc (Function.update s.phase w (.find m uri)) i = slotPc s.phase i :=
        slotPc_update_idle (by simp [hw, Phase.slotPc]) rfl
      simpa [ServerState.slot, e] using ih
    | @find m uri j fls hw hf =>
      obtain ⟨-, rfl⟩ := findFileLock_eq_some hf
      by_cases hj : j = i
      · subst hj
        have hc : NWay.Calls ((s.slot j).pc w) m.lockPc := by
          cases m <;> simp only [ServerState.slot, slotPc, hw, Phase.slotPc] <;> constructor
        convert ih.step (Sys.Step.call hc) using 1
        simp [ServerState.slot, slotPc_update, FileLock.take_lock, Phase.slotPc]
      · have e : slotPc (Function.update s.phase w (.held m uri j m.lockPc)) i = slotPc s.phase i :=
          slotPc_update_idle (by simp [hw, Phase.slotPc]) (by simp [Phase.slotPc, hj])
        simpa [ServerState.slot, e, Function.update_noteq (Ne.symm hj)] using ih
    | findNull hw _ =>
      have e : slotPc (Function.update s.phase w .crashed) i = slotPc s.phase i :=
        slotPc_update_idle (by simp [hw, Phase.slotPc]) rfl
      simpa [ServerState.slot, e] using ih
    | @lock m uri j p l pc hw hp hst =>
      by_cases hj : j = i
      · subst hj
        have e : slotPc (setSlotPc s.phase j pc) j = pc := slotPc_setSlotPc_self fun x hx =>
          NWay.Step.idle_of_ne hst (fun hxw => hp (by simpa [hxw, slotPc, hw, Phase.slotPc] using hx)) hx
        simpa [ServerState.slot, e] using ih.step hst
      · simpa [ServerState.slot, slotPc_setSlotPc_ne hj, Function.update_noteq (Ne.symm hj)]
          using ih
    | release hw =>
      have e : slotPc (Function.update s.phase w .idle) i = slotPc s.phase i :=
        slotPc_update_idle (by simp [hw, Phase.slotPc_held_idle]) rfl
      simpa [ServerState.slot, e, releaseFileLock_lock] using ih

/-- A scheduler's choice for the server. -/
inductive Act (T : Nat)
  | request (w : Fin T) (m : Method) (uri : String)
  | find (w : Fin T)
  | lock (w : Fin T)
  | release (w : Fin T)

/-- The state after one choice of the scheduler; a section's wake-up is left out. -/
def ServerState.apply (s : ServerState T) : Act T → ServerState T
  | .request w m uri => { s with phase := Function.update s.phase w (.find m uri) }
  | .find w =>
    match s.phase w with
    | .find m uri =>
      match findFileLock uri s.fileLocks with
      | some (i, fls) => ⟨fls, Function.update s.phase w (.held m uri i m.lockPc)⟩
      | none => { s with phase := Function.update s.phase w .crashed }
    | _ => s
  | .lock w =>
    match s.phase w with
    | .held _ _ i _ =>
      let st := (s.slot i).exec NWay.sect w
      ⟨Function.update s.fileLocks i { s.fileLocks i with lock := st.shared },
        setSlotPc s.phase i st.pc⟩
    | _ => s
  | .release w =>
    match s.phase w with
    | .held _ _ i _ => ⟨releaseFileLock s.fileLocks i, Function.update s.phase w .idle⟩
    | _ => s

/-- Two workers. Worker `0` serves a GET of `x` in slot `0`; worker `1` takes slot `1` for a
GET of `foo` and enters its critical section; worker `0` releases slot `0` and takes a PUT of
`foo`, for which `find_file_lock` stops at the free slot `0`. -/
def overlapSchedule : List (Act 2) :=
  [.request 0 .get "x", .find 0, .request 1 .get "foo", .find 1, .lock 1, .lock 1,
    .lock 0, .lock 0, .lock 0, .release 0, .request 0 .put "foo", .find 0, .lock 0, .lock 0]

/-- The run of `overlapSchedule`. -/
def overlapRun (k : Nat) : ServerState 2 :=
  (overlapSchedule.take k).foldl ServerState.apply (ServerState.init 2)

theorem overlapRun_isRun : IsRun (ServerState.init 2) Step overlapRun 14 := ⟨rfl, fun k hk =>
    match k, hk with
    | 0, _ => ⟨0, .request .get "x" rfl⟩
    | 1, _ => ⟨0, .find rfl rfl⟩
    | 2, _ => ⟨1, .request .get "foo" rfl⟩
    | 3, _ => ⟨1, .find rfl rfl⟩
    | 4, _ => ⟨1, .lock rfl (by decide) (.of_exec rfl rfl)⟩
    | 5, _ => ⟨1, .lock rfl (by decide) (.of_exec rfl rfl)⟩
    | 6, _ => ⟨0, .lock rfl (by decide) (.of_exec rfl rfl)⟩
    | 7, _ => ⟨0, .lock rfl (by decide) (.of_exec rfl rfl)⟩
    | 8, _ => ⟨0, .lock rfl (by decide) (.of_exec rfl (broadcast_eq_self (by decide)).symm)⟩
    | 9, _ => ⟨0, .release rfl⟩
    | 10, _ => ⟨0, .request .put "foo" rfl⟩
    | 11, _ => ⟨0, .find rfl rfl⟩
    | 12, _ => ⟨0, .lock rfl (by decide) (.of_exec rfl rfl)⟩
    | 13, _ => ⟨0, .lock rfl (by decide) (.of_exec rfl rfl)⟩⟩

/-- A PUT and a GET of the same URI are in their critical sections at once, holding
different slots. -/
theorem put_overlaps_get :
    Reachable (ServerState.init 2) Step (overlapRun 14) ∧
    (overlapRun 14).phase 0 = .held .put "foo" 0 .writing ∧
    (overlapRun 14).phase 1 = .held .get "foo" 1 .reading :=
  ⟨overlapRun_isRun.reachable 14 le_rfl, rfl, rfl⟩

/-- In every reachable state of the server, requests holding the same slot are serialized as
its rwlock promises: at most one PUT is past `writer_lock`, and never together with a GET past
`reader_lock`. -/
theorem slot_exclusive {s : ServerState T} (h : Reachable (ServerState.init T) Step s)
    (i : Fin T) :
    Exclusive (tally (slotPc s.phase i) .writing) (tally (slotPc s.phase i) .reading)
      (s.fileLocks i).lock :=
  NWay.mutual_exclusion NWay.rwlockNew_one (slot_reachable h i)

/-- Two workers on `a`: worker `0` takes a GET into the critical section of slot `0`; then
worker `1` takes a PUT, for which `find_file_lock` returns the same slot, and calls
`writer_lock`, where it waits for the reader. -/
def sharedRun (k : Nat) : ServerState 2 :=
  ([.request 0 .get "a", .find 0, .lock 0, .lock 0, .request 1 .put "a", .find 1, .lock 1].take k).foldl
    ServerState.apply (ServerState.init 2)

theorem sharedRun_isRun : IsRun (ServerState.init 2) Step sharedRun 7 := ⟨rfl, fun k hk =>
  match k, hk with
  | 0, _ => ⟨0, .request .get "a" rfl⟩
  | 1, _ => ⟨0, .find rfl rfl⟩
  | 2, _ => ⟨0, .lock rfl (by decide) (.of_exec rfl rfl)⟩
  | 3, _ => ⟨0, .lock rfl (by decide) (.of_exec rfl rfl)⟩
  | 4, _ => ⟨1, .request .put "a" rfl⟩
  | 5, _ => ⟨1, .find rfl rfl⟩
  | 6, _ => ⟨1, .lock rfl (by decide) (.of_exec rfl rfl)⟩⟩

/-- The GET is past `reader_lock` and the PUT of the same slot waits in `writer_lock`: slot `0`
is exclusive there. -/
theorem sharedRun_exclusive :
    (sharedRun 7).phase 0 = .held .get "a" 0 .reading ∧
    (sharedRun 7).phase 1 = .held .put "a" 0 .wrWait ∧
    Exclusive (tally (slotPc (sharedRun 7).phase 0) .writing)
      (tally (slotPc (sharedRun 7).phase 0) .reading) ((sharedRun 7).fileLocks 0).lock :=
  ⟨rfl, rfl, slot_exclusive (sharedRun_isRun.reachable 7 le_rfl) 0⟩

/-- A worker whose next action does not wait: it is about to call `find_file_lock`, it is out
of its slot's rwlock and about to call `release_file_lock`, or the next section of its rwlock
call can run. -/
def ServerState.CanRun (s : ServerState T) (w : Fin T) : Prop :=
  match s.phase w with
  | .find _ _ => True
  | .held _ _ i p => p = .idle ∨ (NWay.sect (s.fileLocks i).lock p).isSome
  | _ => False

/-- A worker inside slot `i`'s rwlock holds the slot. -/
theorem Phase.slotPc_ne_idle {ph : Phase T} {i : Fin T} (h : ph.slotPc i ≠ .idle) :
    ∃ m uri p, ph = .held m uri i p ∧ p ≠ .idle := by
  cases ph with
  | held m uri j p =>
    by_cases hj : j = i
    · subst hj
      exact ⟨m, uri, p, rfl, by simpa [Phase.slotPc] using h⟩
    · simp [Phase.slotPc, hj] at h
  | _ => simp [Phase.slotPc] at h

/-- The server never deadlocks: in every reachable state in which a worker is serving a
request, some worker can move without waiting. Inside a slot this is the N_WAY lock's own
freedom from deadlock, as the workers holding the slot run the N_WAY model. -/
theorem server_progress {s : ServerState T} (h : Reachable (ServerState.init T) Step s)
    {w : Fin T} (hw : s.phase w ≠ .idle) (hc : s.phase w ≠ .crashed) : ∃ v, s.CanRun v := by
  rcases hph : s.phase w with _ | ⟨m, uri⟩ | ⟨m, uri, i, p⟩ | _
  · exact absurd hph hw
  · exact ⟨w, by simp [ServerState.CanRun, hph]⟩
  · by_cases hp : p = .idle
    · exact ⟨w, by simp [ServerState.CanRun, hph, hp]⟩
    -- the workers in slot `i` are not deadlocked
    have hbusy : ∃ t, (s.slot i).pc t ≠ .idle :=
      ⟨w, by simpa [ServerState.slot, slotPc, hph, Phase.slotPc] using hp⟩
    have hnd := NWay.not_deadlocked NWay.rwlockNew_one (slot_reachable h i)
    simp only [Sys.Deadlocked, not_and, not_forall] at hnd
    obtain ⟨t, ht, hsome⟩ := hnd hbusy
    obtain ⟨m', uri', p', hph', -⟩ := Phase.slotPc_ne_idle (i := i) ht
    refine ⟨t, ?_⟩
    simp only [ServerState.slot, slotPc, hph', Phase.slotPc, if_true] at hsome
    simp only [ServerState.CanRun, hph']
    exact .inr (Option.ne_none_iff_isSome.1 hsome)
  · exact absurd hph hc

/-- With the PUT waiting in `writer_lock` behind the GET, it cannot move itself, but some worker
can. -/
theorem sharedRun_progress : (sharedRun 7).phase 1 = .held .put "a" 0 .wrWait ∧
    ¬ (sharedRun 7).CanRun 1 ∧ ∃ v, (sharedRun 7).CanRun v := by
  have hph : (sharedRun 7).phase 1 = .held .put "a" 0 .wrWait := rfl
  refine ⟨hph, by simp [ServerState.CanRun, hph, NWay.sect], server_progress
    (sharedRun_isRun.reachable 7 le_rfl) (w := 1) (by simp [hph]) (by simp [hph])⟩

end HttpFileServer.Server

import HttpFileServer.Rwlock.NWay

/-!
# The per-URI lock registry (`find_file_lock`, `release_file_lock`)

The server keeps `thread_count` slots, each with an N_WAY rwlock, the URI it is
interned for (`NULL` when free) and the number of requests holding it. Both calls
run under `file_locks_mutex`, so each is one atomic step.

* `findFileLock` scans the slots in order and stops at the first one that is free
  or holds the URI; `releaseFileLock` frees a slot when its last user leaves.
* `findFileLock_eq_some` and `findFileLock_isSome` are the two facts the server's
  invariants use: what a successful call changes, and that a free slot is enough
  for it to succeed.
* `duplicate_slots`: after `find("x")`, `find("foo")`, the release of the first slot
  and `find("foo")`, two slots hold `"foo"`.
-/

namespace HttpFileServer.Server

/-- `struct file_lock`: the slot's rwlock, the URI it is interned for (`none` is `NULL`)
and the number of requests holding it. -/
structure FileLock where
  lock : Rwlock.NWay.Lock
  filename : Option String
  users : Nat
  deriving DecidableEq, Repr

variable {T : Nat}

/-- The test of `find_file_lock`'s loop: the slot is free, or `strcmp` finds the URI. -/
def FileLock.accepts (uri : String) (fl : FileLock) : Bool :=
  fl.filename.isNone || fl.filename == some uri

/-- What `find_file_lock` does to the slot its loop stops at: claim a free slot with
`users = 1`, or count one more user. -/
def FileLock.take (uri : String) (fl : FileLock) : FileLock :=
  match fl.filename with
  | none => { fl with filename := some uri, users := 1 }
  | some _ => { fl with users := fl.users + 1 }

/-- `find_file_lock(URI)` over the `thread_count` slots: the first slot that is free or
holds the URI, updated; `none` is the `NULL` returned when the loop finds none. -/
def findFileLock (uri : String) (fls : Fin T → FileLock) : Option (Fin T × (Fin T → FileLock)) :=
  ((List.finRange T).find? fun i => (fls i).accepts uri).map fun i =>
    (i, Function.update fls i ((fls i).take uri))

/-- `release_file_lock`: one user less, and the slot is freed when none is left. -/
def releaseFileLock (fls : Fin T → FileLock) (i : Fin T) : Fin T → FileLock :=
  let users := (fls i).users - 1
  Function.update fls i
    { fls i with users := users, filename := if users = 0 then none else (fls i).filename }

/-- A successful `find_file_lock` stops at a slot that is free or holds the URI and
changes only that slot. -/
theorem findFileLock_eq_some {uri : String} {fls fls' : Fin T → FileLock} {i : Fin T}
    (h : findFileLock uri fls = some (i, fls')) :
    (fls i).accepts uri = true ∧ fls' = Function.update fls i ((fls i).take uri) := by
  simp only [findFileLock, Option.map_eq_some', Prod.mk.injEq] at h
  obtain ⟨j, hj, rfl, rfl⟩ := h
  exact ⟨List.find?_some (p := fun i => (fls i).accepts uri) hj, rfl⟩

/-- `find_file_lock` returns a slot whenever some slot is free. -/
theorem findFileLock_isSome {uri : String} {fls : Fin T → FileLock} {i : Fin T}
    (hi : (fls i).filename = none) : (findFileLock uri fls).isSome := by
  simpa [findFileLock, FileLock.accepts] using ⟨i, .inl hi⟩

theorem FileLock.take_lock (uri : String) (fl : FileLock) : (fl.take uri).lock = fl.lock := by
  unfold FileLock.take; split <;> rfl

theorem FileLock.take_filename (uri : String) (fl : FileLock) :
    (fl.take uri).filename ≠ none := by
  unfold FileLock.take; split <;> simp_all

/-- Taking a slot that is free only when unused counts one more user. -/
theorem FileLock.take_users (uri : String) (fl : FileLock) (h : fl.filename = none → fl.users = 0) :
    (fl.take uri).users = fl.users + 1 := by
  unfold FileLock.take; split <;> simp_all

/-- The registry states a sequence of calls reaches from `main`'s initialisation (every
slot free, with the lock `l`), with the slots the unreleased `find_file_lock` calls
returned; a release names one of them. -/
inductive RegistryReachable (l : Rwlock.NWay.Lock) : (Fin T → FileLock) → List (Fin T) → Prop
  | init : RegistryReachable l (fun _ => ⟨l, none, 0⟩) []
  | find {fls fls' : Fin T → FileLock} {held : List (Fin T)} {uri : String} {i : Fin T} :
      RegistryReachable l fls held → findFileLock uri fls = some (i, fls') →
      RegistryReachable l fls' (i :: held)
  | release {fls : Fin T → FileLock} {held : List (Fin T)} {i : Fin T} :
      RegistryReachable l fls held → i ∈ held →
      RegistryReachable l (releaseFileLock fls i) (held.erase i)

/-- The registry after `find_file_lock(uri)` (unchanged if it returns `NULL`). -/
def afterFind (uri : String) (fls : Fin T → FileLock) : Fin T → FileLock :=
  ((findFileLock uri fls).map Prod.snd).getD fls

theorem RegistryReachable.find_slot {l : Rwlock.NWay.Lock} {fls : Fin T → FileLock}
    {held : List (Fin T)} {uri : String} {i : Fin T} (h : RegistryReachable l fls held)
    (hi : (findFileLock uri fls).map Prod.fst = some i) :
    RegistryReachable l (afterFind uri fls) (i :: held) := by
  obtain ⟨⟨j, fls'⟩, hf, rfl⟩ := Option.map_eq_some'.1 hi
  simpa [afterFind, hf] using h.find hf

/-- Two slots: `find("x")` takes slot `0`, `find("foo")` slot `1`; slot `0` is released,
and the next `find("foo")` stops at the free slot `0`. -/
def duplicateRegistry : Fin 2 → FileLock :=
  afterFind "foo" (releaseFileLock (afterFind "foo" (afterFind "x" fun _ => ⟨Rwlock.NWay.nway1, none, 0⟩)) 0)

/-- Both held slots of `duplicateRegistry` are interned for `"foo"`. -/
theorem duplicate_slots :
    RegistryReachable Rwlock.NWay.nway1 duplicateRegistry [0, 1] ∧
    (duplicateRegistry 0).filename = some "foo" ∧ (duplicateRegistry 1).filename = some "foo" :=
  let l := Rwlock.NWay.nway1
  ⟨@RegistryReachable.find_slot 2 l _ _ "foo" 0
    (@RegistryReachable.release 2 l _ _ 0 (@RegistryReachable.find_slot 2 l _ _ "foo" 1
      (@RegistryReachable.find_slot 2 l _ _ "x" 0 .init rfl) rfl) (by decide)) rfl, rfl, rfl⟩

end HttpFileServer.Server

import Mathlib.Logic.Function.Basic

/-!
# The file system the programs use

`memory` and the asgn2 server open, create, truncate and unlink files by name. The model keeps
what each name holds: a regular file's bytes or a directory. What else makes a call on a name
fail (the directories on the way to it, permissions, the length of the name, the table of
descriptors) is an input, `Access`: for each name, the `errno` a call reports before what the
name holds is looked at.

* `Store.set` and `Store.remove` come with the read lemmas every later proof cites, so that
  no proof about a program unfolds the store.
* `Store.WrittenAt w fs fs'`: `fs'` is `fs` with regular files written at names of `w` only. It
  is reflexive and transitive, so what one request may do to the file system is what a whole
  run may do (`WrittenAt.trans`).
* `Access.openRead`, `Access.openWrite`, `Access.openCreate` and `Access.fstat`: the outcome of
  `open` in the three modes the programs use, and of `fstat`.
-/

namespace HttpFileServer

/-- What a name holds. -/
inductive Node
  | file (data : List Char)
  | dir
  deriving DecidableEq, Repr

/-- The file system: what each name holds, `none` where nothing exists. -/
def Store := List Char → Option Node

namespace Store

/-- The file system with nothing in it. -/
def empty : Store := fun _ => none

/-- The name `name` now holds `n`. -/
def set (fs : Store) (name : List Char) (n : Node) : Store := Function.update fs name (some n)

/-- `unlink(name)`: nothing exists at `name`. -/
def remove (fs : Store) (name : List Char) : Store := Function.update fs name none

variable {fs : Store} {a b : List Char} {n : Node}

@[simp] theorem set_self : fs.set a n a = some n := Function.update_same _ _ _

@[simp] theorem remove_self : fs.remove a a = none := Function.update_same _ _ _

@[simp] theorem remove_ne (h : b ≠ a) : fs.remove a b = fs b := Function.update_noteq h _ _

/-- `fs'` is `fs` with regular files written at names of `w` only: every other name holds what
it held, and no directory is made, changed or removed. -/
def WrittenAt (w : List Char → Prop) (fs fs' : Store) : Prop :=
  ∀ n, fs' n = fs n ∨ fs n ≠ some .dir ∧ (∃ d, fs' n = some (.file d)) ∧ w n

variable {w w' : List Char → Prop} {fs' fs'' : Store}

@[refl] theorem writtenAt_refl (w : List Char → Prop) (fs : Store) : WrittenAt w fs fs :=
  fun _ => .inl rfl

theorem WrittenAt.trans (h : WrittenAt w fs fs') (h' : WrittenAt w fs' fs'') :
    WrittenAt w fs fs'' := by
  intro n
  rcases h n with e | ⟨hd, hf, hw⟩ <;> rcases h' n with e' | ⟨hd', hf', hw'⟩
  · exact .inl (e'.trans e)
  · exact .inr ⟨e ▸ hd', hf', hw'⟩
  · exact .inr ⟨hd, e' ▸ hf, hw⟩
  · exact .inr ⟨hd, hf', hw⟩

end Store

/-! ## How calls on a name fail -/

namespace Server

/-- The `errno` values the handlers tell apart; `other` is any other. -/
inductive Errno
  | eacces | enametoolong | eperm | erofs | enoent | eisdir | ebadf | efault | other
  deriving DecidableEq, Repr

end Server

open Server (Errno)

/-- Why a call on a name fails for a reason the store does not record: a directory on the way
that is missing (`ENOENT`) or a file (`ENOTDIR`), a permission, a read-only file system, a name
too long, no free descriptor. `none` where only what the name holds decides. -/
structure Access where
  /-- `open(name, O_RDONLY)`. -/
  read : List Char → Option Errno
  /-- `open(name, O_WRONLY | ...)`, before what the name holds is looked at. -/
  write : List Char → Option Errno
  /-- Making a file where nothing is, for `O_CREAT`. -/
  create : List Char → Option Errno
  /-- `fstat` of the descriptor `open` gave. -/
  stat : List Char → Option Errno

namespace Access

/-- No call fails but as what the names hold makes it. -/
def unrestricted : Access := ⟨fun _ => none, fun _ => none, fun _ => none, fun _ => none⟩

/-- `open(name, O_RDONLY)`: the `errno` it sets, `none` when it opens the name. A directory
opens. -/
def openRead (acc : Access) (fs : Store) (name : List Char) : Option Errno :=
  match acc.read name, fs name with
  | some e, _ => some e
  | none, none => some .enoent
  | none, some _ => none

/-- `open(name, O_WRONLY | O_TRUNC)`: `ENOENT` where nothing is and `EISDIR` on a directory; it
opens, and empties, a regular file. -/
def openWrite (acc : Access) (fs : Store) (name : List Char) : Option Errno :=
  match acc.write name, fs name with
  | some e, _ => some e
  | none, none => some .enoent
  | none, some .dir => some .eisdir
  | none, some (.file _) => none

/-- `open(name, O_WRONLY | O_CREAT | O_TRUNC)`, which `creat(name, 0666)` is: as `openWrite`,
but where nothing is it makes an empty file unless making one fails. -/
def openCreate (acc : Access) (fs : Store) (name : List Char) : Option Errno :=
  match acc.write name, fs name with
  | some e, _ => some e
  | none, none => acc.create name
  | none, some .dir => some .eisdir
  | none, some (.file _) => none

/-- `fstat` of the name once open: its `errno`, or whether the name is a directory. -/
def fstat (acc : Access) (fs : Store) (name : List Char) : Except Errno Bool :=
  match acc.stat name with
  | some e => .error e
  | none => .ok (fs name = some .dir)

variable {acc : Access} {fs : Store} {name : List Char}

/-- `O_CREAT` opens no directory. -/
theorem openCreate_eq_none (h : acc.openCreate fs name = none) : fs name ≠ some .dir := by
  unfold openCreate at h
  split at h <;> simp_all

end Access

end HttpFileServer

import HttpFileServer.Http.Getters
import HttpFileServer.Store

/-!
# The `memory` program

`memory` reads one command from stdin: `get\nLOCATION\n` copies the file at `LOCATION` to stdout;
`set\nLOCATION\nLENGTH\nCONTENTS` writes the file and prints `OK`. Any other input ends with
`Invalid Command` on stderr and status 1; a failed system call with `Operation Failed`.

Stdin is the list of bytes the program can still read: a `read` of `k` bytes returns the next
`min k` of them, and `0` at the end. `strcmp` reads past the four bytes of `command` into the
bytes that follow the array, `after`. How `open` fails is the `Access` of the file system, and
which `read` or `write` of the copy loops fails is a list of faults, one entry a turn.

* `readLocationString_ok_iff`: the location lines accepted are those of one to `PATH_MAX`
  bytes whose first byte is no NUL, read as the C string before their first NUL.
* `readContentLength_ok_iff`: the length lines accepted are the lines of digits, none
  included, read as their decimal value modulo `2^32`.
* `setLoop_eq_setStored`: `set` reads whole chunks of `min(LENGTH, MEM_BUF_SIZE)` bytes until it
  has `LENGTH`, so it can store more than `LENGTH` bytes, and when its `unsigned` count would
  reach `2^32` it stores all of stdin.
* `memory_after`: unless a NUL follows the `command` array, `strcmp` sees more than four bytes
  and every input is an invalid command.
* `memory_set`, `memory_get`, `memory_set_get`: with a NUL after the array and no failing
  `read` or `write`, what the two commands do to the store and print, and that a `get` after a
  `set` prints what was set.
* `memory_frame`: whatever fails, every run leaves the store as it was, or writes one regular
  file in a `set` whose `open` succeeded, and then prints `OK` or fails with
  `Operation Failed`; a run that ends with `Invalid Command` changes nothing.
-/

namespace HttpFileServer.Asgn1

open Http

/-- `MEM_BUF_SIZE`. -/
def memBufSize : Nat := 4096

/-- `PATH_MAX` of `linux/limits.h`. -/
def pathMax : Nat := 4096

/-- Why the program exits with status `1`: `err_invalid_command` or `err_operation_failed`. -/
inductive Failure
  | invalidCommand
  | operationFailed
  deriving DecidableEq, Repr

/-- What each error function writes to stderr before `exit(1)`. -/
def Failure.message : Failure → List Char
  | .invalidCommand => "Invalid Command\n".toList
  | .operationFailed => "Operation Failed\n".toList

/-- What a run leaves behind: the bytes written to stdout and to stderr, and the exit status. -/
structure Outcome where
  stdout : List Char
  stderr : List Char
  status : Nat
  deriving DecidableEq, Repr

/-- A run that returns from `main` having written `out` to stdout. -/
def Outcome.ok (out : List Char) : Outcome := ⟨out, [], 0⟩

/-- A run that ends in `err_invalid_command` or `err_operation_failed`. -/
def Outcome.fail (e : Failure) : Outcome := ⟨[], e.message, 1⟩

/-- A run that wrote `out` to stdout and then returned from `main` or failed with `e`. -/
def Outcome.exit : List Char × Option Failure → Outcome
  | (out, none) => .ok out
  | (out, some e) => ⟨out, e.message, 1⟩

/-! ## Failures inside the copy loops -/

/-- A call of one turn of a copy loop that fails: its `read`, or the `write` that `write_to_fd`
makes once `n` bytes of the chunk are out, if any remain. -/
inductive Fault
  | read
  | write (n : Nat)
  deriving DecidableEq, Repr

/-- `write_to_fd(fd, buf, len)` under the fault of its turn: what reaches `fd`, and whether it
returns `-1`. -/
def writeToFd : Option Fault → List Char → List Char × Bool
  | some (.write n), buf => if n < buf.length then (buf.take n, true) else (buf, false)
  | _, buf => (buf, false)

/-- What `write_to_fd` writes is the start of its buffer, all of it unless it fails. -/
theorem writeToFd_sent {f : Option Fault} {buf out : List Char} {failed : Bool}
    (h : writeToFd f buf = (out, failed)) : out <+: buf ∧ (failed = false → out = buf) := by
  unfold writeToFd at h
  split at h
  · split_ifs at h <;> cases h <;> simp [List.take_prefix]
  · cases h
    simp

/-! ## The location -/

/-- The `for` loop of `read_location_string` with `k` turns left, one byte a turn: the bytes
before the newline, whether the newline came, and the input after the bytes read; `none` when
the input ends first (`r == 0`). -/
def readLocationLoop : Nat → List Char → Option (List Char × Bool × List Char)
  | 0, input => some ([], false, input)
  | _ + 1, [] => none
  | k + 1, c :: input =>
    if c = '\n' then some ([], true, input)
    else (readLocationLoop k input).map fun (l, nl, rest) => (c :: l, nl, rest)

/-- `read_location_string`: the location as `strcpy` copies it, and the input after its line.
An empty location (`location[0] == '\0'`) and one of more than `PATH_MAX` bytes are invalid. -/
def readLocationString (input : List Char) : Except Failure (List Char × List Char) :=
  match readLocationLoop (pathMax + 1) input with
  | none => .error .invalidCommand
  | some (loc, newline, rest) =>
    if loc.headD '\x00' = '\x00' then .error .invalidCommand
    else if !newline then .error .invalidCommand
    else .ok (cstr loc, rest)

theorem readLocationLoop_line {rest : List Char} :
    ∀ {loc : List Char} {k : Nat}, '\n' ∉ loc → loc.length < k →
      readLocationLoop k (loc ++ '\n' :: rest) = some (loc, true, rest)
  | _, 0, _, hk => absurd hk (Nat.not_lt_zero _)
  | [], _ + 1, _, _ => by simp [readLocationLoop]
  | c :: cs, k + 1, hnl, hk => by
    have hc : c ≠ '\n' := fun h => hnl (h ▸ List.mem_cons_self _ _)
    rw [List.cons_append, readLocationLoop, if_neg hc,
      readLocationLoop_line (fun h => hnl (List.mem_cons_of_mem _ h)) (by simp at hk; omega)]
    rfl

/-- A loop that stopped at a newline read a line of fewer than `k` bytes. -/
theorem readLocationLoop_newline : ∀ {k : Nat} {input loc rest : List Char},
    readLocationLoop k input = some (loc, true, rest) →
      input = loc ++ '\n' :: rest ∧ '\n' ∉ loc ∧ loc.length < k
  | 0, _, _, _, h => by simp [readLocationLoop] at h
  | _ + 1, [], _, _, h => nomatch h
  | k + 1, c :: input, loc, rest, h => by
    rw [readLocationLoop] at h
    split_ifs at h with hc
    · cases h
      exact ⟨by rw [hc]; rfl, List.not_mem_nil _, Nat.succ_pos _⟩
    · obtain ⟨⟨l, _, _⟩, h', he⟩ := Option.map_eq_some'.1 h
      cases he
      obtain ⟨rfl, hnl, hlen⟩ := readLocationLoop_newline h'
      exact ⟨rfl, List.not_mem_cons_of_ne_of_not_mem (Ne.symm hc) hnl, by simp; omega⟩

/-- A location line of at most `PATH_MAX` bytes whose first byte is no NUL is read as the C
string before its first NUL. -/
theorem readLocationString_line {loc rest : List Char} (hnl : '\n' ∉ loc)
    (hlen : loc.length ≤ pathMax) (hhead : loc.headD '\x00' ≠ '\x00') :
    readLocationString (loc ++ '\n' :: rest) = .ok (cstr loc, rest) := by
  rw [readLocationString, readLocationLoop_line hnl (by omega)]
  simp only [if_neg hhead]
  rfl

/-- The location lines `read_location_string` accepts: one to `PATH_MAX` bytes before the first
newline, the first of them no NUL; the location is the C string they start with. -/
theorem readLocationString_ok_iff {input loc rest : List Char} :
    readLocationString input = .ok (loc, rest) ↔
      ∃ line, input = line ++ '\n' :: rest ∧ '\n' ∉ line ∧ line.length ≤ pathMax ∧
        line.headD '\x00' ≠ '\x00' ∧ loc = cstr line := by
  constructor
  · intro h
    unfold readLocationString at h
    rcases hl : readLocationLoop (pathMax + 1) input with _ | ⟨line, _ | _, r⟩ <;>
      simp only [hl, Bool.not_false, Bool.not_true, Bool.false_eq_true, if_true, if_false,
        ite_self] at h
    · cases h
    · cases h
    · split_ifs at h with hhead
      cases h
      obtain ⟨rfl, hnl, hlen⟩ := readLocationLoop_newline hl
      exact ⟨line, rfl, hnl, by omega, hhead, rfl⟩
  · rintro ⟨line, rfl, hnl, hlen, hhead, rfl⟩
    exact readLocationString_line hnl hlen hhead

/-! ## `get` -/

/-- The read loop of `get_command`, each turn under the next entry of `faults` (none once they
run out): `read(fd, buf, MEM_BUF_SIZE)` returns the next chunk of the file, `0` at its end, and
`write_to_fd` writes it to stdout. A failed `write_to_fd` ends the run in
`err_operation_failed`; a failed `read` ends the loop, and `rb == -1` then ends the run in
`err_invalid_command`. Returns what reached stdout and how the run ends. -/
def copyChunks (faults : List (Option Fault)) (data : List Char) : List Char × Option Failure :=
  if faults.headD none = some .read then ([], some .invalidCommand)
  else if _h : data = [] then ([], none)
  else
    let (out, failed) := writeToFd (faults.headD none) (data.take memBufSize)
    if failed then (out, some .operationFailed)
    else (copyChunks faults.tail (data.drop memBufSize)).map (out ++ ·) id
termination_by data.length
decreasing_by
  simp only [List.length_drop, memBufSize]
  have := List.length_pos.2 _h
  omega

/-- With no failing call, the chunks `get` copies make up the file. -/
theorem copyChunks_nil (data : List Char) : copyChunks [] data = (data, none) := by
  rw [copyChunks]
  by_cases h0 : data = []
  · simp [h0]
  · simp [h0, writeToFd, copyChunks_nil (data.drop memBufSize)]
termination_by data.length
decreasing_by simp only [List.length_drop, memBufSize]; have := List.length_pos.2 h0; omega

/-- Whatever fails, what `get` prints is the start of the file, and all of it when the run does
not fail. -/
theorem copyChunks_printed (faults : List (Option Fault)) (data : List Char) :
    (copyChunks faults data).1 <+: data ∧
      ((copyChunks faults data).2 = none → (copyChunks faults data).1 = data) := by
  induction faults, data using copyChunks.induct with
  | case1 _ _ hr => rw [copyChunks, if_pos hr]; simp
  | case2 _ hr => rw [copyChunks, if_neg hr]; simp
  | case3 _ data hr h0 _ hw =>
    rw [copyChunks, if_neg hr, dif_neg h0]
    simp only [hw, if_true]
    exact ⟨(writeToFd_sent hw).1.trans (List.take_prefix _ _), nofun⟩
  | case4 _ data hr h0 _ failed hw hf ih =>
    obtain rfl : failed = false := by simpa using hf
    obtain rfl := (writeToFd_sent hw).2 rfl
    rw [copyChunks, if_neg hr, dif_neg h0]
    simp only [hw, Bool.false_eq_true, if_false, Prod.map_fst, Prod.map_snd, id]
    obtain ⟨ih1, ih2⟩ := ih
    refine ⟨?_, fun he => by rw [ih2 he, List.take_append_drop]⟩
    have := (List.prefix_append_right_inj (data.take memBufSize)).2 ih1
    rwa [List.take_append_drop] at this

/-- `get_command`. A byte after the location line is invalid. `open` fails as the file system's
`Access` says, and where nothing is; on a directory it succeeds, and the first `read` fails
(`EISDIR`). -/
def getCommand (acc : Access) (faults : List (Option Fault)) (input : List Char) (fs : Store) :
    Outcome :=
  match readLocationString input with
  | .error e => .fail e
  | .ok (loc, rest) =>
    if rest ≠ [] then .fail .invalidCommand
    else
      match acc.openRead fs loc, fs loc with
      | none, some (.file data) => .exit (copyChunks faults data)
      | _, _ => .fail .invalidCommand

/-! ## `set` -/

/-- The loop of `set_command` that reads the content length one byte at a time until the
newline: `content_length *= 10; content_length += c - '0';` in an `unsigned`. -/
def readContentLength : List Char → Nat → Except Failure (Nat × List Char)
  | [], _ => .error .invalidCommand
  | c :: input, cl =>
    if c = '\n' then .ok (cl, input)
    else if c < '0' ∨ c > '9' then .error .invalidCommand
    else readContentLength input ((cl * 10 % 2 ^ 32 + (c.toNat - '0'.toNat)) % 2 ^ 32)

/-- The test of the length loop rejects exactly the bytes that are no digits. -/
theorem isDigit_iff_not_lt {c : Char} : c.isDigit = true ↔ ¬ (c < '0' ∨ c > '9') := by
  simp only [Char.isDigit, Bool.and_eq_true, decide_eq_true_eq, not_or, gt_iff_lt, Char.not_lt]
  rfl

/-- A length line of digits is read as its decimal value modulo `2^32`. -/
theorem readContentLength_digits {rest : List Char} :
    ∀ {ds : List Char} (cl : Nat), (∀ c ∈ ds, c.isDigit = true) →
      readContentLength (ds ++ '\n' :: rest) (cl % 2 ^ 32) =
        .ok (ds.foldl (fun n c => n * 10 + (c.toNat - '0'.toNat)) cl % 2 ^ 32, rest)
  | [], _, _ => by simp [readContentLength]
  | c :: cs, cl, hd => by
    have hc := hd c (List.mem_cons_self _ _)
    have hnl : c ≠ '\n' := by rintro rfl; simp [Char.isDigit] at hc
    have e : (cl % 2 ^ 32 * 10 % 2 ^ 32 + (c.toNat - '0'.toNat)) % 2 ^ 32 =
        (cl * 10 + (c.toNat - '0'.toNat)) % 2 ^ 32 := by omega
    rw [List.cons_append, readContentLength, if_neg hnl, if_neg (isDigit_iff_not_lt.1 hc), e,
      readContentLength_digits _ fun x hx => hd x (List.mem_cons_of_mem _ hx), List.foldl_cons]

theorem readContentLength_decimal {ds rest : List Char} (hds : ∀ c ∈ ds, c.isDigit = true) :
    readContentLength (ds ++ '\n' :: rest) 0 = .ok (decimalValue ds % 2 ^ 32, rest) :=
  readContentLength_digits 0 hds

/-- What the length loop accepts is a line of digits. -/
theorem readContentLength_line : ∀ {input rest : List Char} {cl v : Nat},
    readContentLength input cl = .ok (v, rest) →
      ∃ ds, input = ds ++ '\n' :: rest ∧ ∀ c ∈ ds, c.isDigit = true
  | [], _, _, _, h => nomatch h
  | c :: input, rest, cl, v, h => by
    rw [readContentLength] at h
    split_ifs at h with hnl hd
    · cases h
      exact ⟨[], by rw [hnl]; rfl, fun _ h => absurd h (List.not_mem_nil _)⟩
    · obtain ⟨ds, rfl, hds⟩ := readContentLength_line h
      refine ⟨c :: ds, rfl, fun x hx => ?_⟩
      rcases List.mem_cons.1 hx with rfl | hx
      · exact isDigit_iff_not_lt.2 hd
      · exact hds x hx

/-- The length line `set` accepts: any number of digits, none included, then a newline; the
length is their decimal value modulo `2^32`. -/
theorem readContentLength_ok_iff {input rest : List Char} {v : Nat} :
    readContentLength input 0 = .ok (v, rest) ↔
      ∃ ds, input = ds ++ '\n' :: rest ∧ (∀ c ∈ ds, c.isDigit = true) ∧
        v = decimalValue ds % 2 ^ 32 := by
  constructor
  · intro h
    obtain ⟨ds, rfl, hds⟩ := readContentLength_line h
    rw [readContentLength_decimal hds] at h
    cases h
    exact ⟨ds, rfl, hds, rfl⟩
  · rintro ⟨ds, rfl, hds, rfl⟩
    exact readContentLength_decimal hds

/-- An empty length line is read as the length `0`. -/
example : readContentLength "\nxyz".toList 0 = .ok (0, "xyz".toList) := rfl


/-- The content loop of `set_command` from `total_rb` bytes read, each turn under the next entry
of `faults`: while `total_rb < cl`, each `read(STDIN_FILENO, buf, bs)` returns the next at most
`bs` bytes, the loop stops at the end of the input (`rb == 0`), and `write_to_fd` writes each
chunk. `total_rb` is an `unsigned int`. A failed `read` or `write_to_fd` ends the run in
`err_operation_failed`. Returns what was written to the file and whether the run failed. -/
def setLoop (faults : List (Option Fault)) (cl bs total : Nat) (input : List Char) :
    List Char × Bool :=
  if total < cl then
    if faults.headD none = some .read then ([], true)
    else if _h : input.take bs = [] then ([], false)
    else
      let (out, failed) := writeToFd (faults.headD none) (input.take bs)
      if failed then (out, true)
      else (setLoop faults.tail cl bs ((total + (input.take bs).length) % 2 ^ 32)
        (input.drop bs)).map (out ++ ·) id
  else ([], false)
termination_by input.length
decreasing_by
  simp only [List.length_drop]
  have : 0 < (input.take bs).length := List.length_pos.2 _h
  simp only [List.length_take] at this
  omega

/-- With no failing call, a turn of the content loop writes its chunk whole. -/
theorem setLoop_nofault (cl bs total : Nat) (input : List Char) :
    setLoop [] cl bs total input =
      if total < cl ∧ input.take bs ≠ [] then
        (setLoop [] cl bs ((total + (input.take bs).length) % 2 ^ 32) (input.drop bs)).map
          (input.take bs ++ ·) id
      else ([], false) := by
  rw [setLoop]
  by_cases ht : total < cl <;> by_cases h0 : input.take bs = [] <;> simp [ht, h0, writeToFd]

theorem setLoop_nil (cl bs total : Nat) : setLoop [] cl bs total [] = ([], false) := by
  rw [setLoop_nofault]
  simp

/-- With `total_rb` below `2^32` all along, and `k` whole chunks of `bs` the least that reach
`cl`, the loop writes the first `bs * k` bytes of stdin, or all of it when fewer arrive. -/
theorem setLoop_chunks {cl bs : Nat} (hbs : 0 < bs) :
    ∀ (k total : Nat) (input : List Char), cl ≤ total + bs * k → total + bs * k < 2 ^ 32 →
      (∀ j < k, total + bs * j < cl) → setLoop [] cl bs total input = (input.take (bs * k), false)
  | 0, total, input, hcl, _, _ => by rw [setLoop_nofault, if_neg (by omega)]; rfl
  | k + 1, total, input, hcl, hw, hmin => by
    have ht : total < cl := by simpa using hmin 0 (Nat.succ_pos k)
    have hk : bs * (k + 1) = bs + bs * k := by rw [Nat.mul_succ, Nat.add_comm]
    rw [setLoop_nofault]
    by_cases h0 : input.take bs = []
    · rw [if_neg fun h => h.2 h0, (List.take_eq_nil_iff.1 h0).resolve_left hbs.ne', List.take_nil]
    rw [if_pos ⟨ht, h0⟩]
    by_cases hin : input.length < bs
    · -- stdin ends inside this chunk
      rw [List.drop_eq_nil_of_le hin.le, setLoop_nil, List.take_of_length_le hin.le,
        List.take_of_length_le (by rw [hk]; omega)]
      simp
    · -- a whole chunk
      have hlen : (input.take bs).length = bs := List.length_take_of_le (by omega)
      rw [hlen, Nat.mod_eq_of_lt (by rw [hk] at hw; omega), hk, List.take_add,
        setLoop_chunks hbs k _ _ (by omega) (by omega) fun j hj => by
          have := hmin (j + 1) (by omega)
          rw [Nat.mul_succ] at this
          omega]
      rfl

/-- When `cl` is above `2^32 - MEM_BUF_SIZE`, `total_rb` wraps to `0` before it reaches `cl`,
so the loop writes all of stdin. -/
theorem setLoop_wrap {cl : Nat} (hcl : 2 ^ 32 - memBufSize < cl) :
    ∀ (total : Nat) (input : List Char), total % memBufSize = 0 → total < 2 ^ 32 →
      setLoop [] cl memBufSize total input = (input, false)
  | total, input, hm, _ => by
    have ht : total < cl := by simp only [memBufSize] at hcl hm; omega
    rw [setLoop_nofault]
    by_cases h0 : input.take memBufSize = []
    · obtain rfl := (List.take_eq_nil_iff.1 h0).resolve_left (by decide)
      simp
    rw [if_pos ⟨ht, h0⟩]
    by_cases hin : input.length < memBufSize
    · rw [List.drop_eq_nil_of_le hin.le, setLoop_nil, List.take_of_length_le hin.le]
      simp
    · have hlen : (input.take memBufSize).length = memBufSize := List.length_take_of_le (by omega)
      rw [setLoop_wrap hcl _ (input.drop memBufSize)
        (by rw [hlen]; simp only [memBufSize] at hm ⊢; omega) (Nat.mod_lt _ (by decide))]
      simp
termination_by _ input => input.length
decreasing_by simp only [List.length_drop, memBufSize] at hin ⊢; omega

/-- What `set` stores of the bytes that follow the length line, for the content length `n`:
with `b = min n MEM_BUF_SIZE`, whole chunks of `b` bytes are read until there are `n`, so the
first `b * ⌈n / b⌉` bytes, or all of them when so many would make `total_rb` wrap. -/
def setStored (n : Nat) (contents : List Char) : List Char :=
  let b := min n memBufSize
  if 2 ^ 32 ≤ b * ((n + b - 1) / b) then contents else contents.take (b * ((n + b - 1) / b))

/-- The content loop of `set` stores `setStored`. -/
theorem setLoop_eq_setStored {n : Nat} (hn : n < 2 ^ 32) (contents : List Char) :
    setLoop [] n (if n < memBufSize then n else memBufSize) 0 contents =
      (setStored n contents, false) := by
  have hb : (if n < memBufSize then n else memBufSize) = min n memBufSize := by
    split_ifs with h <;> simp only [memBufSize] at h ⊢ <;> omega
  rw [hb, setStored]
  rcases Nat.eq_zero_or_pos n with rfl | hpos
  · rw [setLoop_nofault]
    simp
  have hb0 : 0 < min n memBufSize := by simp only [memBufSize]; omega
  have hq := Nat.div_add_mod (n + min n memBufSize - 1) (min n memBufSize)
  have hr := Nat.mod_lt (n + min n memBufSize - 1) hb0
  split_ifs with hwrap
  · -- only a chunk of `MEM_BUF_SIZE` can carry `total_rb` to `2^32`
    have hb4 : min n memBufSize = memBufSize := by simp only [memBufSize] at *; omega
    rw [hb4]
    exact setLoop_wrap (by simp only [memBufSize] at *; omega) 0 contents rfl (by decide)
  · refine setLoop_chunks hb0 _ 0 contents (by omega) (by omega) fun j hj => ?_
    have := Nat.mul_le_mul_left (min n memBufSize) (show j + 1 ≤ _ from hj)
    rw [Nat.mul_succ] at this
    omega

/-- When exactly `n` bytes follow the length line, `set` stores them all. -/
theorem setStored_length (contents : List Char) : setStored contents.length contents = contents := by
  unfold setStored
  dsimp only
  split_ifs
  · rfl
  apply List.take_of_length_le
  rcases Nat.eq_zero_or_pos contents.length with h | h
  · omega
  have hb0 : 0 < min contents.length memBufSize := by simp only [memBufSize]; omega
  have hq := Nat.div_add_mod (contents.length + min contents.length memBufSize - 1)
    (min contents.length memBufSize)
  have hr := Nat.mod_lt (contents.length + min contents.length memBufSize - 1) hb0
  omega

/-- `set_command`. `open(location, O_WRONLY | O_CREAT | O_TRUNC)` fails as the file system's
`Access` says and on a directory; otherwise it empties or makes the file, and the content loop
writes to it, so a run that fails in the loop leaves the file holding what was written. -/
def setCommand (acc : Access) (faults : List (Option Fault)) (input : List Char) (fs : Store) :
    Outcome × Store :=
  match readLocationString input with
  | .error e => (.fail e, fs)
  | .ok (loc, rest) =>
    match readContentLength rest 0 with
    | .error e => (.fail e, fs)
    | .ok (cl, contents) =>
      match acc.openCreate fs loc with
      | some _ => (.fail .operationFailed, fs)
      | none =>
        let bufSize := if cl < memBufSize then cl else memBufSize
        let (data, failed) := setLoop faults cl bufSize 0 contents
        (if failed then .fail .operationFailed else .ok "OK\n".toList, fs.set loc (.file data))

theorem setCommand_line {loc ds : List Char} (hnl : '\n' ∉ loc) (hlen : loc.length ≤ pathMax)
    (hhead : loc.headD '\x00' ≠ '\x00') (hds : ∀ c ∈ ds, c.isDigit = true) (contents : List Char)
    (acc : Access) (fs : Store) :
    setCommand acc [] (loc ++ '\n' :: (ds ++ '\n' :: contents)) fs =
      if acc.openCreate fs (cstr loc) = none then
        (.ok "OK\n".toList,
          fs.set (cstr loc) (.file (setStored (decimalValue ds % 2 ^ 32) contents)))
      else (.fail .operationFailed, fs) := by
  rw [setCommand, readLocationString_line hnl hlen hhead]
  simp only
  rw [readContentLength_decimal hds]
  rcases hopen : acc.openCreate fs (cstr loc) with _ | e
  · simp only [if_true]
    rw [setLoop_eq_setStored (Nat.mod_lt _ (by decide))]
    rfl
  · rfl

/-- What `set` can do to the store: nothing, or write one regular file where no directory was,
once `open` succeeded; it then prints `OK` or fails with `Operation Failed`. -/
theorem setCommand_frame (acc : Access) (faults : List (Option Fault)) (input : List Char)
    (fs : Store) :
    (setCommand acc faults input fs).2 = fs ∨
      ((setCommand acc faults input fs).1 = .ok "OK\n".toList ∨
        (setCommand acc faults input fs).1 = .fail .operationFailed) ∧
        ∃ loc data, fs loc ≠ some .dir ∧ (setCommand acc faults input fs).2 = fs.set loc (.file data) := by
  unfold setCommand
  rcases readLocationString input with _ | ⟨loc, rest⟩
  · exact .inl rfl
  dsimp only
  rcases readContentLength rest 0 with _ | ⟨cl, contents⟩
  · exact .inl rfl
  dsimp only
  rcases hopen : acc.openCreate fs loc with _ | _
  · rcases setLoop faults cl (if cl < memBufSize then cl else memBufSize) 0 contents with
      ⟨data, _ | _⟩ <;> exact .inr ⟨by simp, loc, data, Access.openCreate_eq_none hopen, rfl⟩
  · exact .inl rfl

theorem getCommand_line {loc : List Char} (hnl : '\n' ∉ loc) (hlen : loc.length ≤ pathMax)
    (hhead : loc.headD '\x00' ≠ '\x00') (rest : List Char) (acc : Access) (fs : Store) :
    getCommand acc [] (loc ++ '\n' :: rest) fs =
      if rest = [] ∧ acc.read (cstr loc) = none then
        match fs (cstr loc) with
        | some (.file data) => .ok data
        | _ => .fail .invalidCommand
      else .fail .invalidCommand := by
  rw [getCommand, readLocationString_line hnl hlen hhead]
  by_cases hr : rest = []
  · rcases hread : acc.read (cstr loc) with _ | e <;>
      rcases hfs : fs (cstr loc) with _ | (data | _) <;>
      simp [hr, hread, hfs, Access.openRead, copyChunks_nil, Outcome.exit]
  · simp [hr]

/-! ## `main` -/

/-- `main`: the loop that reads the four bytes of `command` fails at the end of the input; then
`strcmp` compares `command`, read on into `after` up to a NUL, with `get\n` and `set\n`. -/
def memory (acc : Access) (faults : List (Option Fault)) (after input : List Char) (fs : Store) :
    Outcome × Store :=
  if input.length < 4 then (.fail .invalidCommand, fs)
  else if cstr (input.take 4 ++ after) = "get\n".toList then
    (getCommand acc faults (input.drop 4) fs, fs)
  else if cstr (input.take 4 ++ after) = "set\n".toList then setCommand acc faults (input.drop 4) fs
  else (.fail .invalidCommand, fs)

/-! ## What a run does -/

variable {after : List Char}

/-- With a NUL after the `command` array, `main` runs the command its first four bytes name. -/
theorem memory_command (cmd : List Char) (hcmd : cmd.length = 4) (hnul : '\x00' ∉ cmd)
    (hafter : cstr after = []) (acc : Access) (faults : List (Option Fault)) (input : List Char)
    (fs : Store) :
    memory acc faults after (cmd ++ input) fs =
      if cmd = "get\n".toList then (getCommand acc faults input fs, fs)
      else if cmd = "set\n".toList then setCommand acc faults input fs
      else (.fail .invalidCommand, fs) := by
  rw [memory, if_neg (by simp [hcmd]), List.take_left' hcmd, List.drop_left' hcmd,
    cstr_append_of_not_mem hnul, hafter, List.append_nil]

/-- With a NUL after the `command` array and no failing `read` or `write`, `get` prints the file
at the location when nothing follows the location line and `open(location, O_RDONLY)` does not
fail for a reason the store does not record; it fails with `Invalid Command` where nothing or a
directory is, where `open` fails, or when anything follows the line. The store is never
changed. -/
theorem memory_get (hafter : cstr after = []) {loc : List Char} (hnl : '\n' ∉ loc)
    (hlen : loc.length ≤ pathMax) (hhead : loc.headD '\x00' ≠ '\x00') (rest : List Char)
    (acc : Access) (fs : Store) :
    memory acc [] after ("get\n".toList ++ (loc ++ '\n' :: rest)) fs =
      (if rest = [] ∧ acc.read (cstr loc) = none then
        match fs (cstr loc) with
        | some (.file data) => .ok data
        | _ => .fail .invalidCommand
      else .fail .invalidCommand, fs) := by
  rw [memory_command "get\n".toList rfl (by decide) hafter, if_pos rfl,
    getCommand_line hnl hlen hhead]

/-- A `get` of the file `a` holding `xyz`, where no call fails. -/
theorem memory_get_xyz :
    memory Access.unrestricted [] [] ("get\n".toList ++ ("a".toList ++ ['\n']))
        (Store.empty.set "a".toList (.file "xyz".toList)) =
      (.ok "xyz".toList, Store.empty.set "a".toList (.file "xyz".toList)) :=
  (memory_get (by decide) (by decide) (by decide) (by decide) [] Access.unrestricted _).trans rfl

/-- With a NUL after the `command` array, a `get` changes nothing, whatever fails: it prints
nothing and fails where the location holds no regular file it can open, and otherwise prints the
start of the file, exiting with status `0` only once it has printed all of it. -/
theorem memory_get_partial (hafter : cstr after = []) {loc : List Char} (hnl : '\n' ∉ loc)
    (hlen : loc.length ≤ pathMax) (hhead : loc.headD '\x00' ≠ '\x00') (rest : List Char)
    (acc : Access) (faults : List (Option Fault)) (fs : Store) :
    (memory acc faults after ("get\n".toList ++ (loc ++ '\n' :: rest)) fs).2 = fs ∧
      ((memory acc faults after ("get\n".toList ++ (loc ++ '\n' :: rest)) fs).1.stdout = [] ∧
          (memory acc faults after ("get\n".toList ++ (loc ++ '\n' :: rest)) fs).1.status ≠ 0 ∨
        ∃ data, fs (cstr loc) = some (.file data) ∧
          (memory acc faults after ("get\n".toList ++ (loc ++ '\n' :: rest)) fs).1.stdout <+: data ∧
          ((memory acc faults after ("get\n".toList ++ (loc ++ '\n' :: rest)) fs).1.status = 0 →
            (memory acc faults after ("get\n".toList ++ (loc ++ '\n' :: rest)) fs).1.stdout =
              data)) := by
  rw [memory_command "get\n".toList rfl (by decide) hafter, if_pos rfl]
  refine ⟨rfl, ?_⟩
  rw [getCommand, readLocationString_line hnl hlen hhead]
  dsimp only
  split_ifs
  · exact .inl ⟨rfl, by decide⟩
  split
  · rename_i data _ hfs
    obtain ⟨hp, hall⟩ := copyChunks_printed faults data
    rcases hc : copyChunks faults data with ⟨out, _ | e⟩ <;> rw [hc] at hp hall
    · exact .inr ⟨data, hfs, hp, fun _ => hall rfl⟩
    · exact .inr ⟨data, hfs, hp, fun h => by simp [Outcome.exit] at h⟩
  · exact .inl ⟨rfl, by decide⟩

/-- A `get` of the file `a` holding `xyz` whose first `write` to stdout fails after one byte. -/
theorem memory_get_partial_x :
    (memory Access.unrestricted [some (.write 1)] [] ("get\n".toList ++ ("a".toList ++ ['\n']))
        (Store.empty.set "a".toList (.file "xyz".toList))).2 =
        Store.empty.set "a".toList (.file "xyz".toList) ∧
      ((memory Access.unrestricted [some (.write 1)] [] ("get\n".toList ++ ("a".toList ++ ['\n']))
        (Store.empty.set "a".toList (.file "xyz".toList))).1.stdout = [] ∧
          (memory Access.unrestricted [some (.write 1)] [] ("get\n".toList ++ ("a".toList ++ ['\n']))
            (Store.empty.set "a".toList (.file "xyz".toList))).1.status ≠ 0 ∨
        ∃ data, Store.empty.set "a".toList (.file "xyz".toList) (cstr "a".toList) = some (.file data) ∧
          (memory Access.unrestricted [some (.write 1)] [] ("get\n".toList ++ ("a".toList ++ ['\n']))
            (Store.empty.set "a".toList (.file "xyz".toList))).1.stdout <+: data ∧
          ((memory Access.unrestricted [some (.write 1)] [] ("get\n".toList ++ ("a".toList ++ ['\n']))
            (Store.empty.set "a".toList (.file "xyz".toList))).1.status = 0 →
            (memory Access.unrestricted [some (.write 1)] [] ("get\n".toList ++ ("a".toList ++ ['\n']))
              (Store.empty.set "a".toList (.file "xyz".toList))).1.stdout = data)) :=
  memory_get_partial (by decide) (by decide) (by decide) (by decide) [] _ _ _

/-- With a NUL after the `command` array and no failing `read` or `write`, a `get` of the
location a `set` wrote prints the bytes that followed the length line, when there were as many
as it gave, fewer than `2^32`, and `open` succeeds for writing and then for reading. -/
theorem memory_set_get (hafter : cstr after = []) {loc ds contents : List Char} (hnl : '\n' ∉ loc)
    (hlen : loc.length ≤ pathMax) (hhead : loc.headD '\x00' ≠ '\x00')
    (hds : ∀ c ∈ ds, c.isDigit = true) (hval : decimalValue ds = contents.length)
    (hsize : contents.length < 2 ^ 32) {acc : Access} {fs : Store}
    (hopen : acc.openCreate fs (cstr loc) = none) (hread : acc.read (cstr loc) = none) :
    (memory acc [] after ("get\n".toList ++ (loc ++ ['\n']))
      (memory acc [] after ("set\n".toList ++ (loc ++ '\n' :: (ds ++ '\n' :: contents))) fs).2).1 =
      .ok contents := by
  rw [memory_command "set\n".toList rfl (by decide) hafter, if_neg (by decide), if_pos rfl,
    setCommand_line hnl hlen hhead hds contents, if_pos hopen,
    memory_command "get\n".toList rfl (by decide) hafter, if_pos rfl,
    getCommand_line hnl hlen hhead, hval, Nat.mod_eq_of_lt hsize, setStored_length]
  simp [hread]

/-- `set` then `get` of `a` with the bytes `xyz`. -/
theorem memory_set_get_abc :
    (memory Access.unrestricted [] [] ("get\n".toList ++ ("a".toList ++ ['\n']))
      (memory Access.unrestricted [] []
        ("set\n".toList ++ ("a".toList ++ '\n' :: ("3".toList ++ '\n' :: "xyz".toList)))
        Store.empty).2).1 = .ok "xyz".toList :=
  memory_set_get (by decide) (by decide) (by decide) (by decide) (by decide) (by decide)
    (by decide) rfl rfl

/-- Every run, whatever fails, leaves the store as it was, or writes one regular file where no
directory was: a `set` whose `open` succeeded, which then prints `OK` or fails in the content
loop with `Operation Failed`, the file holding what was written. So a run that ends with
`Invalid Command` changes nothing. -/
theorem memory_frame (acc : Access) (faults : List (Option Fault)) (after input : List Char)
    (fs : Store) :
    (memory acc faults after input fs).2 = fs ∨
      ((memory acc faults after input fs).1 = .ok "OK\n".toList ∨
        (memory acc faults after input fs).1 = .fail .operationFailed) ∧
        ∃ loc data, fs loc ≠ some .dir ∧ (memory acc faults after input fs).2 = fs.set loc (.file data) := by
  unfold memory
  split_ifs
  · exact .inl rfl
  · exact .inl rfl
  · exact setCommand_frame acc faults _ fs
  · exact .inl rfl

end HttpFileServer.Asgn1

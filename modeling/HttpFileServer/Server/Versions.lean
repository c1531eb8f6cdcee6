import HttpFileServer.Asgn2.Server
import HttpFileServer.Server.Handlers

/-!
# The PUT handler of asgn4 against the one of asgn2

The multi-threaded server keeps the `handle_put` of the first one but drops its checks that the
client sent neither more nor fewer bytes than `Content-Length`, and with them the clean-up. Both
are run on the file system of the asgn2 model, where `open` fails as `Access.openWrite` says.

* `handlePut_agree`: for a client that sends exactly `Content-Length` bytes after the head, the
  two handlers answer the same status and leave the same file system, wherever `creat` does not
  fail.
-/

namespace HttpFileServer.Server

open Http

/-- The asgn4 `handle_put` run on the file system: `open` fails as `Access.openWrite` says,
`pass_n_bytes` moves the bytes asked for, and the file it opened or created holds what it wrote.
Returns the status and the file system after. -/
def handlePutOn (acc : Access) (fs : Store) (r : Request) : Nat × Store :=
  let uri := (r.uri.getD "").toList
  match handlePut (fun sock n => sock.take n.toNat) (acc.openWrite fs uri) r with
  | (resp, none) => (resp.status, fs)
  | (resp, some data) => (resp.status, fs.set uri (.file data))

/-- Once the file is open, the asgn4 handler of a client that sends exactly `Content-Length`
bytes writes them all. -/
theorem handlePut_exact {r : Request} {opened : Option Errno} {res : Nat}
    (hL : reqGetContentLength r = (r.body ++ r.sock).length) (ho : putOpen opened = .ok res) :
    handlePut (fun sock n => sock.take n.toNat) opened r = (⟨false, res⟩, some (r.body ++ r.sock)) := by
  rw [handlePut_file hL ho (by simp) (List.length_append _ _).le fun n _ => by simp,
    List.take_length]

/-- For a client that sends exactly `Content-Length` bytes after the head, fewer than `2^32` of
them beyond the buffer, the asgn2 `handle_put`, given a turn of `pass_n_bytes_fr` per byte and
one more, answers the status the asgn4 one answers and leaves the file system it leaves, for
every way `open` fails, where `creat` makes the file when `open` reports `ENOENT`. -/
theorem handlePut_agree {acc : Access} {fuel : Nat} {fs : Store} {r : Request}
    (hL : reqGetContentLength r = (r.body ++ r.sock).length) (hsize : r.sock.length < 2 ^ 32)
    (hfuel : (r.body ++ r.sock).length ≤ fuel)
    (hcreat : acc.openWrite fs (r.uri.getD "").toList = some .enoent →
      acc.openCreate fs (r.uri.getD "").toList = none) :
    Asgn2.handlePut acc (fuel + 1) fs r = some (handlePutOn acc fs r) := by
  unfold Asgn2.handlePut handlePutOn
  rw [hL, if_neg (by omega)]
  rcases ho : acc.openWrite fs (r.uri.getD "").toList with _ | e <;> simp only [ho]
  · -- it existed
    rw [Asgn2.putBody_complete hfuel hsize, handlePut_exact hL (show putOpen none = .ok 200 from rfl)]
  rcases hp : putOpen (some e) with status | res
  · -- refused
    simp only [handlePut, hL, hp, Nat.cast_nonneg, not_lt.2, if_false]
  · -- created
    obtain ⟨rfl, rfl⟩ := putOpen_some hp
    rw [hcreat ho]
    simp only
    rw [Asgn2.putBody_complete hfuel hsize, handlePut_exact hL hp]

/-- A PUT of `hi` to `a` with `Content-Length: 2`, of which `h` is buffered and `i` is still in
the socket. -/
def splitPut : Request :=
  ⟨[], 0, "i".toList, .put, some "a", '1', '1', [⟨"Content-Length", "2"⟩], "h".toList⟩

/-- Over an existing `a`, where no call fails, the two handlers agree on `splitPut`. -/
theorem handlePut_agree_split :
    Asgn2.handlePut Access.unrestricted 3 (Store.empty.set "a".toList (.file [])) splitPut =
      some (handlePutOn Access.unrestricted (Store.empty.set "a".toList (.file [])) splitPut) :=
  handlePut_agree (by decide) (by decide) (by decide) fun h => nomatch h

end HttpFileServer.Server

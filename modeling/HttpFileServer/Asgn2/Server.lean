import HttpFileServer.Http.Getters
import HttpFileServer.Server.Handlers

/-!
# The single-threaded server of `asgn2/httpserver.c`

The first server answers one connection at a time. Its `validate_request` checks the method
and the version before any handler runs, and its handlers copy bytes with `pass_n_bytes_fr`,
a loop that calls `read_n_bytes` until `n` bytes are passed.

* `validateRequest_eq_zero`: a request is served only as a GET without a body or a PUT, of
  version 1.1.
* `passNBytesFr_enough`: with the `n` bytes in the source, the loop passes them and returns.
* `passNBytesFr_short` and `passNBytesFr_loops`: with fewer, it never returns, so a short
  body never reaches `handle_put`'s clean-up.
* `passNBytesFr_wraps`: with `2^32` bytes to pass, `to_read` wraps to `0` and the loop never
  returns either.
* `handleGet_file`: a GET of a file that `open` and `fstat` accept sends it whole when it has
  fewer than `2^32` bytes, and never returns otherwise.
* `handlePut_all_or_nothing`: a PUT answered 200 or 201 stored exactly the bytes the client
  sent, but when `creat` failed at `Content-Length: 0`; any other answer leaves the file system
  as it was, but for emptying an existing file.
* `serve` is `main`'s loop over the connections it accepts, one after another.

The handlers' `switch`es on `errno` are word for word those of the asgn4 handlers, so the
model takes them from there: `Server.handleGet` and `Server.putOpen`.
-/

namespace HttpFileServer.Asgn2

open Http

/-- The version check of `validate_request`: 505 unless the version is 1.1. -/
def checkVersion (r : Request) : Nat :=
  if r.httpVerMajor ≠ '1' ∨ r.httpVerMinor ≠ '1' then 505 else 0

/-- `validate_request`: `0` for a request to serve, else its status. The `GET` case falls
through to the version check once the body is found empty. -/
def validateRequest (r : Request) : Nat :=
  match r.method with
  | .get => if r.body.length ≠ 0 then 400 else checkVersion r
  | .put => checkVersion r
  | .unsupported => 501

example : validateRequest ⟨"GET /a HTTP/0.9\r\nRequest-Id: 5\r\n\r\n".toList, 34, [], .get,
    some "a", '0', '9', [⟨"Request-Id", "5"⟩], []⟩ = 505 := by decide

/-- `_PNB_BUF_SIZE`. -/
def pnbBufSize : Nat := 4096

/-- `read_n_bytes(src, buf, k)` as the helper is documented: it reads from the front of the
source until it has `k` bytes or the source ends, and returns how many it read. -/
def readNBytes (src : List Char) (k : Nat) : Option Nat := some (min k src.length)

/-- `pass_n_bytes_fr(src, dst, n)` with at most `fuel` turns of its loop, from `total_wb` bytes
passed; `none` when the turns run out. `readNBytes src k` is what `read_n_bytes` returns
(`none` for `-1`) and `write_n_bytes` writes all it is given. `to_read` is an `unsigned int`,
so `n - total_wb` is taken modulo `2^32`. Returns the result, the rest of the source and what
the destination received. -/
def passNBytesFr (readNBytes : List Char → Nat → Option Nat) :
    Nat → List Char → List Char → Int → Int → Option (Int × List Char × List Char)
  | 0, _, _, _, _ => none
  | fuel + 1, src, dst, n, totalWb =>
    if totalWb < n then
      match readNBytes src (min ((n - totalWb).toNat % 2 ^ 32) pnbBufSize) with
      | none => some (-1, src, dst)
      | some rb => passNBytesFr readNBytes fuel (src.drop rb) (dst ++ src.take rb) n (totalWb + rb)
    else some (totalWb, src, dst)

/-- What `read_n_bytes` promises: it reads at most what was asked and what the source holds,
and reads nothing only when nothing was asked or the source has ended. -/
def ReadNBytesSpec (readNBytes : List Char → Nat → Option Nat) : Prop :=
  ∀ src k rb, readNBytes src k = some rb → rb ≤ k ∧ rb ≤ src.length ∧ (rb = 0 → k = 0 ∨ src = [])

theorem readNBytes_spec : ReadNBytesSpec readNBytes := by
  intro src k rb h
  simp only [readNBytes, Option.some.injEq] at h
  subst h
  refine ⟨Nat.min_le_left _ _, Nat.min_le_right _ _, fun h0 => ?_⟩
  rcases Nat.eq_zero_or_pos k with hk | hk
  · exact .inl hk
  · exact .inr (List.length_eq_zero.1 (by omega))

/-- A source that holds fewer bytes than remain to pass keeps the loop going forever when
`read_n_bytes` does not fail: each turn passes what the source still has, and at its end the
loop reads nothing and turns again. -/
theorem passNBytesFr_short {read : List Char → Nat → Option Nat}
    (hread : ∀ src k, ∃ rb, read src k = some rb ∧ rb ≤ src.length) :
    ∀ (fuel : Nat) (src dst : List Char) (n totalWb : Int), totalWb + src.length < n →
      passNBytesFr read fuel src dst n totalWb = none
  | 0, _, _, _, _, _ => rfl
  | fuel + 1, src, dst, n, totalWb, h => by
    obtain ⟨rb, hrb, hle⟩ := hread src (min ((n - totalWb).toNat % 2 ^ 32) pnbBufSize)
    rw [passNBytesFr, if_pos (by omega), hrb]
    exact passNBytesFr_short hread fuel _ _ n _ (by simp only [List.length_drop]; omega)

/-- A client that sends `abc` when `pass_n_bytes_fr` is to pass 10 bytes: with `read_n_bytes`
as documented, the loop never returns, however many turns it is given. -/
theorem passNBytesFr_loops :
    ReadNBytesSpec readNBytes ∧
      ∀ fuel dst, passNBytesFr readNBytes fuel "abc".toList dst 10 0 = none :=
  ⟨readNBytes_spec, fun fuel dst => passNBytesFr_short
    (fun src k => ⟨_, rfl, Nat.min_le_right _ _⟩) fuel _ dst 10 0 (by decide)⟩

/-- With at least the `k < 2^32` bytes still to pass in the source, `pass_n_bytes_fr` passes
exactly them and returns `n`, given a turn for each byte and one more. -/
theorem passNBytesFr_enough : ∀ (fuel : Nat) (src dst : List Char) (n totalWb : Int) (k : Nat),
    n = totalWb + k → k < 2 ^ 32 → k ≤ src.length → k ≤ fuel →
    passNBytesFr readNBytes (fuel + 1) src dst n totalWb = some (n, src.drop k, dst ++ src.take k)
  | fuel, src, dst, n, totalWb, 0, hn, _, _, _ => by
    rw [passNBytesFr, if_neg (by omega)]
    simp [hn]
  | fuel + 1, src, dst, n, totalWb, k + 1, hn, hk, hsrc, hf => by
    have ht : min ((n - totalWb).toNat % 2 ^ 32) pnbBufSize = min (k + 1) 4096 := by
      rw [show (n - totalWb).toNat = k + 1 by omega, Nat.mod_eq_of_lt hk]; rfl
    have hrb : min (min (k + 1) 4096) src.length = min (k + 1) 4096 := by omega
    rw [passNBytesFr, if_pos (by omega), ht, readNBytes, hrb]
    simp only
    rw [passNBytesFr_enough fuel _ _ n _ (k + 1 - min (k + 1) 4096) (by omega) (by omega)
      (by simp only [List.length_drop]; omega) (by omega), List.drop_drop, List.append_assoc, ← List.take_add,
      show min (k + 1) 4096 + (k + 1 - min (k + 1) 4096) = k + 1 by omega]

/-- With `2^32` bytes still to pass, `to_read` wraps to `0`: the loop reads nothing and turns
forever, however much the source holds. -/
theorem passNBytesFr_wraps : ∀ (fuel : Nat) (src dst : List Char) (totalWb : Int),
    passNBytesFr readNBytes fuel src dst (totalWb + 2 ^ 32) totalWb = none
  | 0, _, _, _ => rfl
  | fuel + 1, src, dst, totalWb => by
    have e : (totalWb + 2 ^ 32 - totalWb).toNat = 2 ^ 32 := by omega
    rw [passNBytesFr, if_pos (by omega), e]
    simpa [readNBytes] using passNBytesFr_wraps fuel src dst totalWb

/-! ## What the loop returns -/

/-- With `read_n_bytes` as documented, `pass_n_bytes_fr` returns only once it has passed exactly
what it was asked for: `n` in all, the next `n - total_wb` bytes of the source, which held them. -/
theorem passNBytesFr_some : ∀ {fuel : Nat} {src dst : List Char} {n t : Int}
    {res : Int × List Char × List Char}, t ≤ n → passNBytesFr readNBytes fuel src dst n t = some res →
      (n - t).toNat ≤ src.length ∧ res = (n, src.drop (n - t).toNat, dst ++ src.take (n - t).toNat)
  | 0, _, _, _, _, _, _, h => nomatch h
  | fuel + 1, src, dst, n, t, res, hle, h => by
    rw [passNBytesFr] at h
    split_ifs at h with hlt
    · simp only [readNBytes] at h
      generalize hrb : min (min ((n - t).toNat % 2 ^ 32) pnbBufSize) src.length = rb at h
      have hle' : rb ≤ (n - t).toNat := by rw [← hrb]; simp only [pnbBufSize]; omega
      obtain ⟨hsrc, rfl⟩ := passNBytesFr_some (by omega) h
      have e : (n - t).toNat = rb + (n - (t + rb)).toNat := by omega
      simp only [List.length_drop] at hsrc
      refine ⟨by omega, ?_⟩
      rw [e, List.drop_drop, List.append_assoc, ← List.take_add, Nat.add_comm]
    · obtain rfl : t = n := by omega
      simp only [Option.some.injEq] at h
      simp [← h]

/-- Once `2^32` bytes or more remain to pass, every turn leaves `2^32` or more, as `to_read` is
what remains modulo `2^32`: the loop never returns, whatever the source holds. -/
theorem passNBytesFr_large {read : List Char → Nat → Option Nat}
    (hread : ∀ src k, ∃ rb, read src k = some rb ∧ rb ≤ k) :
    ∀ (fuel : Nat) (src dst : List Char) (n t : Int), 2 ^ 32 ≤ n - t →
      passNBytesFr read fuel src dst n t = none
  | 0, _, _, _, _, _ => rfl
  | fuel + 1, src, dst, n, t, h => by
    obtain ⟨rb, hrb, hle⟩ := hread src (min ((n - t).toNat % 2 ^ 32) pnbBufSize)
    rw [passNBytesFr, if_pos (by omega), hrb]
    exact passNBytesFr_large hread fuel _ _ n _ (by simp only [pnbBufSize] at hle; omega)

/-! ## The handlers on the file system -/

/-- The status line and the body `respond` writes for a status; any other status is answered
as 500. -/
def respondText : Nat → String × String
  | 200 => ("200 OK", "OK\n")
  | 201 => ("201 Created", "Created\n")
  | 400 => ("400 Bad Request", "Bad Request\n")
  | 403 => ("403 Forbidden", "Forbidden\n")
  | 404 => ("404 Not Found", "Not Found\n")
  | 501 => ("501 Not Implemented", "Not Implemented\n")
  | 505 => ("505 Version Not Supported", "Version Not Supported\n")
  | _ => ("500 Internal Server Error", "Internal Server Error\n")

/-- `respond(conn, status)`: the status line, the length of the body, a blank line and the
body. -/
def respond (status : Nat) : List Char :=
  ("HTTP/1.1 " ++ (respondText status).1 ++ "\r\n" ++ "Content-Length: " ++
    toString (respondText status).2.length ++ "\r\n" ++ "\r\n" ++ (respondText status).2).toList

/-- The head `handle_get` writes before the file: `200 OK` and its `Content-Length`. -/
def getHead (size : Nat) : List Char :=
  ("HTTP/1.1 200 OK\r\n" ++ "Content-Length: " ++ toString size ++ "\r\n" ++ "\r\n").toList

/-- `handle_get` on the file system, with at most `fuel` turns of `pass_n_bytes_fr`: the status
it returns (`-1` once it has answered) and what it wrote to the socket. After `open` and
`fstat` it answers as the asgn4 `handle_get`, which sends the file exactly where `open` and
`fstat` succeed on a regular file; there this one sends it with `pass_n_bytes_fr`. -/
def handleGet (acc : Access) (fuel : Nat) (fs : Store) (r : Request) : Option (Int × List Char) :=
  let uri := (r.uri.getD "").toList
  let resp := Server.handleGet (acc.openRead fs uri) (acc.fstat fs uri)
  match resp.sent, fs uri with
  | true, some (.file data) =>
    (passNBytesFr readNBytes fuel data (getHead data.length) data.length 0).map
      fun (_, _, sent) => (-1, sent)
  | _, _ => some (resp.status, [])

/-- Where `open` and `fstat` succeed on a regular file, the switches let the file be sent. -/
theorem serverGet_file {acc : Access} {fs : Store} {uri data : List Char}
    (hread : acc.read uri = none) (hstat : acc.stat uri = none)
    (h : fs uri = some (.file data)) :
    Server.handleGet (acc.openRead fs uri) (acc.fstat fs uri) = ⟨true, 200⟩ := by
  simp [Access.openRead, Access.fstat, hread, hstat, h, Server.handleGet]

/-- What `handle_get` sends: when it answers itself (`-1`), the `200` head and every byte of the
file at the URI; otherwise nothing. -/
theorem handleGet_sent {acc : Access} {fuel : Nat} {fs : Store} {r : Request} {status : Int}
    {sent : List Char} (h : handleGet acc fuel fs r = some (status, sent)) :
    status = -1 ∧ (∃ data, fs (r.uri.getD "").toList = some (.file data) ∧
      sent = getHead data.length ++ data) ∨ status ≠ -1 ∧ sent = [] := by
  unfold handleGet at h
  dsimp only at h
  split at h
  · rename_i data _ hfs
    obtain ⟨⟨_, _, _⟩, hpass, he⟩ := Option.map_eq_some'.1 h
    obtain ⟨rfl, rfl⟩ := Prod.mk.inj he
    obtain ⟨-, hres⟩ := passNBytesFr_some (t := 0) (n := data.length) (by omega) hpass
    rw [(Prod.mk.inj (Prod.mk.inj hres).2).2]
    exact .inl ⟨rfl, data, hfs, by simp⟩
  · cases h
    exact .inr ⟨by omega, rfl⟩

/-- `handle_get` of a file below `2^32` bytes, given a turn per byte and one more, sends the
`200` head and the whole file. -/
theorem handleGet_sends {acc : Access} {fs : Store} {r : Request} {data : List Char}
    (hread : acc.read (r.uri.getD "").toList = none) (hstat : acc.stat (r.uri.getD "").toList = none)
    (h : fs (r.uri.getD "").toList = some (.file data)) (hlt : data.length < 2 ^ 32) {fuel : Nat}
    (hf : data.length ≤ fuel) :
    handleGet acc (fuel + 1) fs r = some (-1, getHead data.length ++ data) := by
  simp only [handleGet, serverGet_file hread hstat h, h]
  rw [passNBytesFr_enough fuel data _ data.length 0 data.length (by simp) hlt le_rfl hf,
    List.take_length]
  rfl

/-- `handle_get` of a regular file that `open` and `fstat` accept: below `2^32` bytes, given a
turn per byte and one more, it sends the `200` head and the whole file; at `2^32` bytes or more
it never returns. -/
theorem handleGet_file {acc : Access} {fs : Store} {r : Request} {data : List Char}
    (hread : acc.read (r.uri.getD "").toList = none) (hstat : acc.stat (r.uri.getD "").toList = none)
    (h : fs (r.uri.getD "").toList = some (.file data)) :
    (data.length < 2 ^ 32 → ∀ fuel, data.length ≤ fuel →
      handleGet acc (fuel + 1) fs r = some (-1, getHead data.length ++ data)) ∧
    (2 ^ 32 ≤ data.length → ∀ fuel, handleGet acc fuel fs r = none) := by
  refine ⟨fun hlt _ hf => handleGet_sends hread hstat h hlt hf, fun hge fuel => ?_⟩
  simp only [handleGet, serverGet_file hread hstat h, h]
  have hread : ∀ src k, ∃ rb, readNBytes src k = some rb ∧ rb ≤ k :=
    fun _ _ => ⟨_, rfl, Nat.min_le_left _ _⟩
  rw [passNBytesFr_large hread _ _ _ data.length 0 (by simp only [sub_zero]; omega)]
  rfl

/-- A file of two bytes at `a`, where no call fails. -/
theorem handleGet_file_hi :
    handleGet Access.unrestricted 3 (Store.empty.set "a".toList (.file "hi".toList))
        ⟨[], 0, [], .get, some "a", '1', '1', [], []⟩ = some (-1, getHead 2 ++ "hi".toList) := by
  have hfs : (Store.empty.set "a".toList (.file "hi".toList))
      (((⟨[], 0, [], .get, some "a", '1', '1', [], []⟩ : Request).uri.getD "").toList) =
        some (.file "hi".toList) := Store.set_self
  exact (handleGet_file rfl rfl hfs).1 (by decide) 2 (by decide)

/-- `handle_put` once the file at `uri` is open and empty: `res` is the status for a file that
existed (200) or was created (201), and `cleanup` the file system after the clean-up, which
unlinks a created file and truncates an existing one. The buffered body is written first; a
body longer than `Content-Length`, one cut short and one followed by more bytes are answered
400 after the clean-up. -/
def putBody (fuel : Nat) (fs : Store) (r : Request) (contentLength : Int) (uri : List Char)
    (res : Nat) (cleanup : Store) : Option (Nat × Store) :=
  if (r.body.length : Int) > contentLength then some (400, cleanup)
  else if contentLength = 0 then some (res, fs.set uri (.file []))
  else if (r.body.length : Int) = contentLength then some (res, fs.set uri (.file r.body))
  else
    (passNBytesFr readNBytes fuel r.sock r.body (contentLength - r.body.length) 0).map
      fun (wb, sock, data) =>
        if r.body.length + wb < contentLength then (400, cleanup)
        else if sock ≠ [] then (400, cleanup)
        else (res, fs.set uri (.file data))

/-- `handle_put` on the file system, with at most `fuel` turns of `pass_n_bytes_fr`: the status
and the file system after. When `open(URI, O_WRONLY | O_TRUNC)` fails, the asgn4 `switch`
(`Server.putOpen`) answers 403 or 500, or on `ENOENT` lets `creat` make the file. When `creat`
fails too, `fd` is `-1`: the handler still answers 201 at `Content-Length: 0`, and otherwise
400, since `write_n_bytes` to `-1` fails, and so does the first write of `pass_n_bytes_fr`;
its `unlink` finds nothing to remove. -/
def handlePut (acc : Access) (fuel : Nat) (fs : Store) (r : Request) : Option (Nat × Store) :=
  let contentLength := reqGetContentLength r
  let uri := (r.uri.getD "").toList
  if contentLength < 0 then some (400, fs)
  else
    match acc.openWrite fs uri with
    | none => putBody fuel fs r contentLength uri 200 (fs.set uri (.file []))
    | some e =>
      match Server.putOpen (some e), acc.openCreate fs uri with
      | .error status, _ => some (status, fs)
      | .ok res, none => putBody fuel fs r contentLength uri res (fs.remove uri)
      | .ok res, some _ =>
        if (r.body.length : Int) > contentLength then some (400, fs)
        else if contentLength = 0 then some (res, fs)
        else some (400, fs)

/-- A client that sends exactly `Content-Length` bytes after the head, fewer than `2^32` beyond
the buffer, gets `res` and its bytes in the file, given a turn per byte and one more. -/
theorem putBody_complete {fuel : Nat} {fs cleanup : Store} {r : Request} {uri : List Char}
    {res : Nat} (hlen : (r.body ++ r.sock).length ≤ fuel) (hsize : r.sock.length < 2 ^ 32) :
    putBody (fuel + 1) fs r (r.body ++ r.sock).length uri res cleanup =
      some (res, fs.set uri (.file (r.body ++ r.sock))) := by
  simp only [List.length_append] at hlen ⊢
  unfold putBody
  rw [if_neg (by push_cast; omega)]
  by_cases hzero : ((r.body.length + r.sock.length : Nat) : Int) = 0
  · rw [if_pos hzero]
    have hb : r.body = [] := List.length_eq_zero.1 (by omega)
    have hs : r.sock = [] := List.length_eq_zero.1 (by omega)
    simp [hb, hs]
  rw [if_neg hzero]
  by_cases hsock : r.sock = []
  · rw [if_pos (by simp [hsock]), hsock, List.append_nil]
  rw [if_neg (by have := List.length_pos.2 hsock; push_cast; omega),
    passNBytesFr_enough fuel r.sock r.body _ 0 r.sock.length (by push_cast; omega) hsize le_rfl
      (by omega), List.drop_length, List.take_length]
  simp

/-- `handle_connection`: parse, validate, then the handler of the method; the handlers see the
file system and return it with what they wrote to the socket. -/
def handleConnection (acc : Access) (fuel : Nat) (stale : List Char) (ready : Nat) (fs : Store)
    (r : Request) : Option (Int × List Char × Store) :=
  match reqParse stale ready r with
  | none => some (400, [], fs)
  | some r =>
    if validateRequest r ≠ 0 then some (validateRequest r, [], fs)
    else
      match r.method with
      | .get => (handleGet acc fuel fs r).map fun (status, sent) => (status, sent, fs)
      | .put => (handlePut acc fuel fs r).map fun (status, fs) => (status, [], fs)
      | .unsupported => some (501, [], fs)

/-- Everything `handle_connection` can do: answer with a status of its own, sending nothing and
changing nothing; or, for a request that parses and validates, run `handle_get` or
`handle_put`. -/
theorem handleConnection_cases {acc : Access} {fuel ready : Nat} {stale : List Char}
    {fs fs' : Store} {r : Request} {status : Int} {sent : List Char}
    (h : handleConnection acc fuel stale ready fs r = some (status, sent, fs')) :
    (status ≠ -1 ∧ sent = [] ∧ fs' = fs) ∨
      ∃ r', reqParse stale ready r = some r' ∧ validateRequest r' = 0 ∧
        (r'.method = .get ∧ handleGet acc fuel fs r' = some (status, sent) ∧ fs' = fs ∨
          r'.method = .put ∧ sent = [] ∧ ∃ n : Nat, status = n ∧
            handlePut acc fuel fs r' = some (n, fs')) := by
  unfold handleConnection at h
  rcases hp : reqParse stale ready r with _ | r' <;> simp only [hp] at h
  · cases h
    exact .inl ⟨by decide, rfl, rfl⟩
  split_ifs at h with hv
  · cases h
    exact .inl ⟨by omega, rfl, rfl⟩
  rw [not_not] at hv
  cases hm : r'.method <;> simp only [hm] at h
  · obtain ⟨⟨_, _⟩, hget, he⟩ := Option.map_eq_some'.1 h
    cases he
    exact .inr ⟨r', rfl, hv, .inl ⟨hm, hget, rfl⟩⟩
  · obtain ⟨⟨_, _⟩, hput, he⟩ := Option.map_eq_some'.1 h
    cases he
    exact .inr ⟨r', rfl, hv, .inr ⟨hm, rfl, _, rfl, hput⟩⟩
  · cases h
    exact .inl ⟨by decide, rfl, rfl⟩

/-- What `handle_connection` sends itself: the `200` head and a file's bytes when it returns
`-1`, and nothing otherwise. -/
theorem handleConnection_sent {acc : Access} {fuel ready : Nat} {stale : List Char}
    {fs fs' : Store} {r : Request} {status : Int} {sent : List Char}
    (h : handleConnection acc fuel stale ready fs r = some (status, sent, fs')) :
    status = -1 ∧ (∃ data, sent = getHead data.length ++ data) ∨ status ≠ -1 ∧ sent = [] := by
  rcases handleConnection_cases h with ⟨hne, rfl, -⟩ | ⟨_, -, -, ⟨-, hget, -⟩ | ⟨-, rfl, n, rfl, -⟩⟩
  · exact .inr ⟨hne, rfl⟩
  · rcases handleGet_sent hget with ⟨rfl, data, -, rfl⟩ | ⟨hne, rfl⟩
    · exact .inl ⟨rfl, data, rfl⟩
    · exact .inr ⟨hne, rfl⟩
  · exact .inr ⟨by omega, rfl⟩

/-- One turn of `main`'s loop, for a client that sends `input`: what the server sends back, with
`respond` unless the handler answered itself, and the file system after. -/
def serveConnection (acc : Access) (fuel : Nat) (stale : List Char) (ready : Nat) (fs : Store)
    (input : List Char) : Option (List Char × Store) :=
  (handleConnection acc fuel stale ready fs (reqCreate input)).map fun (status, sent, fs) =>
    (if status = -1 then sent else sent ++ respond status.toNat, fs)

/-- A connection `main` accepts: the bytes left in the buffer that `req_create` allocates, how
many bytes the first `recv` finds, and what the client sends. -/
structure Connection where
  stale : List Char
  ready : Nat
  input : List Char
  deriving DecidableEq, Repr

/-- `main`'s loop over the connections it accepts in turn, each handler given at most `fuel`
turns of `pass_n_bytes_fr`: the replies, in order, and the file system after; `none` when a
handler never returns, so that no later connection is served. -/
def serve (acc : Access) (fuel : Nat) : Store → List Connection → Option (List (List Char) × Store)
  | fs, [] => some ([], fs)
  | fs, c :: cs =>
    match serveConnection acc fuel c.stale c.ready fs c.input with
    | none => none
    | some (reply, fs) => (serve acc fuel fs cs).map fun (replies, fs) => (reply :: replies, fs)

end HttpFileServer.Asgn2

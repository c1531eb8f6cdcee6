import HttpFileServer.Http.RoundTrip
import HttpFileServer.Server.Workers
import HttpFileServer.Store

/-!
# The handlers and the dispatch of a connection (`asgn4/httpserver.c`)

`handle_connection` parses a request, looks up its `Request-Id` and then either answers at once
with a canned response or serves it: it takes the URI's slot, locks it, runs `handle_get` or
`handle_put`, writes the audit line and unlocks. The file system calls are inputs of the model:
how `open` and `fstat` failed, if they did, and what the helper `pass_n_bytes` moves.

* `handleGet_status`: `handle_get` answers 200, 403, 404 or 500.
* `oldVersion_served`: a request of version 0.9 is served and audited as a GET.
* `handlePut_file`: when the buffered body is not longer than `Content-Length`, the file holds
  the first `Content-Length` bytes of the body.
* `put_writes_whole_buffer`: when it is longer, all of it is written.
-/

namespace HttpFileServer.Server

open Http

/-- `Response`: whether the handler already wrote its reply, and the status. -/
structure Response where
  sent : Bool
  status : Nat
  deriving DecidableEq, Repr

/-- `handle_get`, from how `open(URI, O_RDONLY)` failed (`none`: it succeeded) and what
`fstat` gave: its `errno`, or whether the file is a directory. -/
def handleGet (opened : Option Errno) (stat : Except Errno Bool) : Response :=
  match opened with
  | some e => ⟨false, match e with
    | .eacces | .enametoolong | .eperm | .erofs => 403
    | .enoent => 404
    | _ => 500⟩
  | none =>
    match stat with
    | .error e => ⟨false, match e with
      | .eacces | .ebadf | .efault => 403
      | .enoent => 404
      | _ => 500⟩
    | .ok isDir => if isDir then ⟨false, 403⟩ else ⟨true, 200⟩

/-- The `open` of `handle_put`: the status for a file that exists (200) or is created (201),
or the error status. -/
def putOpen : Option Errno → Except Nat Nat
  | none => .ok 200
  | some .enoent => .ok 201
  | some .eisdir | some .eacces | some .enametoolong | some .eperm | some .erofs => .error 403
  | some _ => .error 500

/-- A failed `open` goes on to `creat` only on `ENOENT`, for the status 201. -/
theorem putOpen_some {e : Errno} {res : Nat} (h : putOpen (some e) = .ok res) :
    e = .enoent ∧ res = 201 := by
  cases e <;> cases h
  exact ⟨rfl, rfl⟩

/-- `handle_put`. `passNBytes sock n` is what `pass_n_bytes(sock, fd, n)` moves from the
socket into the file; `write_n_bytes` writes all it is given. Returns the response and what
the target file holds afterwards, when the handler opened or created it. -/
def handlePut (passNBytes : List Char → Int → List Char) (opened : Option Errno) (r : Request) :
    Response × Option (List Char) :=
  let contentLength := reqGetContentLength r
  if contentLength < 0 then (⟨false, 400⟩, none)
  else
    match putOpen opened with
    | .error status => (⟨false, status⟩, none)
    | .ok res =>
      if contentLength = 0 then (⟨false, res⟩, some [])
      else
        let written := if 0 < r.body.length then r.body else []
        if (written.length : Int) = contentLength then (⟨false, res⟩, some written)
        else (⟨false, res⟩, some (written ++ passNBytes r.sock (contentLength - written.length)))

/-- What `handle_connection` does with a request: answer it at once with a canned response,
taking no slot, opening no file and writing no audit line; or serve it between
`find_file_lock` and `release_file_lock`, writing the audit line for `requestId`. -/
inductive Dispatch
  | respond (status : Nat)
  | serve (m : Method) (uri : String) (requestId : String)
  deriving DecidableEq, Repr

/-- `handle_connection` up to its `switch` on the method. -/
def handleConnection (stale : List Char) (ready : Nat) (r : Request) : Dispatch :=
  match reqParse stale ready r with
  | none => .respond 400
  | some r =>
    match reqGetHeaderValue r "Request-Id" with
    | none => .respond 400
    | some requestId =>
      match r.method with
      | .get => .serve .get (r.uri.getD "") requestId
      | .put => .serve .put (r.uri.getD "") requestId
      | .unsupported => .respond 501

/-- The name `write_audit_log` is given for a method. -/
def Method.name : Method → String
  | .get => "GET"
  | .put => "PUT"

/-- `write_audit_log`: `METHOD,/URI,STATUS,REQUEST_ID`. -/
def auditLine (op uri : String) (status : Nat) (requestId : String) : String :=
  op ++ ",/" ++ uri ++ "," ++ toString status ++ "," ++ requestId ++ "\n"

/-- The audit line a dispatch writes once its handler answered `status`. -/
def Dispatch.audit (status : Nat) : Dispatch → Option String
  | .respond _ => none
  | .serve m uri requestId => some (auditLine m.name uri status requestId)

/-- `handle_connection` dispatches every well-formed head that arrives whole, whatever its
version and whatever follows it. Without a `Request-Id` header it answers 400. With one, a GET
or a PUT is served on its URI under the value of the first `Request-Id`, and any other method is
answered 501. -/
theorem handleConnection_render (stale : List Char) {h : RequestHead} (hw : h.WellFormed)
    (hlen : h.render.length ≤ reqMaxSize) {ready : Nat} (hready : reqMaxSize ≤ ready)
    (body : List Char) :
    handleConnection stale ready (reqCreate (h.render ++ body)) =
      match h.headers.find? (fun kv => strcasecmpEq ⟨kv.1⟩ "Request-Id") with
      | none => .respond 400
      | some (_, v) =>
        match methodOf h.method with
        | .get => .serve .get ⟨h.uri⟩ ⟨v⟩
        | .put => .serve .put ⟨h.uri⟩ ⟨v⟩
        | .unsupported => .respond 501 := by
  rw [handleConnection, reqParse_render stale hw hlen hready body]
  simp only [RequestHead.reqGetHeaderValue_parsed]
  rcases hf : h.headers.find? (fun kv => strcasecmpEq ⟨kv.1⟩ "Request-Id") with _ | ⟨k, v⟩ <;>
    simp only [hf, Option.map_none', Option.map_some']
  cases hm : methodOf h.method <;> simp [RequestHead.parsed, hm]

/-- `GET /a HTTP/0.9` with `Request-Id: 7`. -/
def getOldA : RequestHead :=
  ⟨"GET".toList, "a".toList, '0', '9', [("Request-Id".toList, "7".toList)]⟩

/-- The old GET of `a` is served under the id `7`. -/
theorem handleConnection_getOldA :
    handleConnection [] reqMaxSize (reqCreate (getOldA.render ++ [])) = .serve .get "a" "7" :=
  handleConnection_render [] (show getOldA.WellFormed from
    ⟨by decide, by decide, rfl, rfl, by simp [getOldA, RequestHead.HeaderOk, Token]; decide⟩)
    (by decide) le_rfl []

/-! ## GET -/

/-- `handle_get` answers 200 (having streamed the file), 403, 404 or 500. -/
theorem handleGet_status (opened : Option Errno) (stat : Except Errno Bool) :
    (handleGet opened stat).status = 200 ∨ (handleGet opened stat).status = 403 ∨
      (handleGet opened stat).status = 404 ∨ (handleGet opened stat).status = 500 := by
  unfold handleGet
  rcases opened with _ | e
  · rcases stat with e | isDir
    · cases e <;> simp
    · cases isDir <;> simp
  · cases e <;> simp

/-- A GET of version 0.9 with a `Request-Id`. -/
def oldVersionRequest : List Char := "GET /a HTTP/0.9\r\nRequest-Id: 5\r\n\r\n".toList

/-- `req_parse` accepts `oldVersionRequest` and stores version 0.9, and `handle_connection`
serves it as a GET of `a`: it takes a slot, runs `handle_get`, whose status is never 505,
and writes the audit line `GET,/a,STATUS,5`. -/
theorem oldVersion_served (stale : List Char) :
    (∃ r, reqParse stale reqMaxSize (reqCreate oldVersionRequest) = some r ∧
      r.httpVerMajor = '0' ∧ r.httpVerMinor = '9') ∧
    handleConnection stale reqMaxSize (reqCreate oldVersionRequest) = .serve .get "a" "5" ∧
    ∀ opened stat, (handleGet opened stat).status ≠ 505 ∧
      (Dispatch.serve .get "a" "5").audit (handleGet opened stat).status =
        some (auditLine "GET" "a" (handleGet opened stat).status "5") := by
  have hr : reqParse [] reqMaxSize (reqCreate oldVersionRequest) =
      some ⟨oldVersionRequest, 34, [], .get, some "a", '0', '9', [⟨"Request-Id", "5"⟩], []⟩ := by
    decide
  have hid : reqGetHeaderValue ⟨oldVersionRequest, 34, [], .get, some "a", '0', '9',
      [⟨"Request-Id", "5"⟩], []⟩ "Request-Id" = some "5" := by
    decide
  refine ⟨⟨_, reqParse_stale hr, rfl, rfl⟩, ?_, fun opened stat => ⟨?_, rfl⟩⟩
  · simp only [handleConnection, reqParse_stale hr, hid]
    rfl
  · rcases handleGet_status opened stat with h | h | h | h <;> rw [h] <;> decide

/-! ## PUT -/

/-- The file after a PUT whose buffered body is at most `Content-Length` and whose socket
supplies the rest, when `pass_n_bytes` moves the `n` bytes asked for: the first
`Content-Length` bytes of the body. -/
theorem handlePut_file {passNBytes : List Char → Int → List Char} {opened : Option Errno}
    {r : Request} {L res : Nat} (hL : reqGetContentLength r = L) (ho : putOpen opened = .ok res)
    (hle : r.body.length ≤ L) (hsock : L ≤ r.body.length + r.sock.length)
    (hpass : ∀ n : Nat, n ≤ r.sock.length → passNBytes r.sock n = r.sock.take n) :
    handlePut passNBytes opened r = (⟨false, res⟩, some ((r.body ++ r.sock).take L)) := by
  have hw : (if 0 < r.body.length then r.body else []) = r.body := by
    split_ifs with h
    · rfl
    · exact (List.length_eq_zero.1 (by omega)).symm
  simp only [handlePut, hL, ho, hw, Nat.cast_nonneg, not_lt.2, if_false]
  rcases Nat.eq_zero_or_pos L with rfl | hpos
  · simp
  · have hL0 : (L : Int) ≠ 0 := by omega
    rw [if_neg hL0]
    by_cases heq : r.body.length = L
    · rw [if_pos (by omega), List.take_append_of_le_length (by omega),
        List.take_of_length_le (by omega)]
    · rw [if_neg (by omega), show (L : Int) - r.body.length = ((L - r.body.length : Nat) : Int) by
        omega, hpass _ (by omega), List.take_append_eq_append_take,
        List.take_of_length_le (l := r.body) (by omega)]

/-- A PUT of `/a` whose `Content-Length` is 2 and whose body, `hello`, is longer. -/
def shortLengthRequest : List Char :=
  "PUT /a HTTP/1.1\r\nRequest-Id: 1\r\nContent-Length: 2\r\n\r\nhello".toList

/-- `req_parse` accepts `shortLengthRequest` arriving at once, with all of `hello` buffered. On
an existing `/a`, `handle_put` answers 200 having written the five bytes, then asks
`pass_n_bytes` for `2 - 5` bytes: whatever the helper does then, the file starts with `hello`
and is not the first two bytes of the body. -/
theorem put_writes_whole_buffer (stale : List Char) (passNBytes : List Char → Int → List Char) :
    ∃ r, reqParse stale reqMaxSize (reqCreate shortLengthRequest) = some r ∧
      reqGetContentLength r = 2 ∧ r.body = "hello".toList ∧
      handlePut passNBytes none r = (⟨false, 200⟩, some ("hello".toList ++ passNBytes [] (-3))) ∧
      (handlePut passNBytes none r).2 ≠ some (r.body.take 2) := by
  have hr : reqParse [] reqMaxSize (reqCreate shortLengthRequest) =
      some ⟨shortLengthRequest, 58, [], .put, some "a", '1', '1',
        [⟨"Request-Id", "1"⟩, ⟨"Content-Length", "2"⟩], "hello".toList⟩ := by
    decide
  have hL : reqGetContentLength ⟨shortLengthRequest, 58, [], .put, some "a", '1', '1',
      [⟨"Request-Id", "1"⟩, ⟨"Content-Length", "2"⟩], "hello".toList⟩ = 2 := by
    decide
  have hput : handlePut passNBytes none ⟨shortLengthRequest, 58, [], .put, some "a", '1', '1',
      [⟨"Request-Id", "1"⟩, ⟨"Content-Length", "2"⟩], "hello".toList⟩ =
      (⟨false, 200⟩, some ("hello".toList ++ passNBytes [] (-3))) := by
    simp only [handlePut, hL]
    rfl
  refine ⟨_, reqParse_stale hr, hL, rfl, hput, ?_⟩
  rw [hput]
  -- the file holds at least the five bytes of `hello`, the first two bytes only two
  intro h
  simpa using congrArg (fun f => (f.getD []).length) h

end HttpFileServer.Server

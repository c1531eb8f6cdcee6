import HttpFileServer.Http.Regex

/-!
# Parsing a request (`seb_http.c`)

`req_parse` reads the request from the socket into a buffer of `REQ_MAX_SIZE` bytes and runs
the patterns of `seb_http_regex_init` on it, part after part: the method, the URI, the
version, the headers and the body. Each part moves the parse cursor `pc` past its match.

* A `Request` is `struct request`: the bytes read so far (`wc` is their number), the parse
  cursor, the bytes the client has sent that are not read yet, and the fields the parse
  fills in.
* `reqParse stale ready` also takes what the buffer held before it was written, which the
  header loop can see (it searches `in.buf + pc` up to a NUL, past `wc`), and the number of
  bytes that have arrived when `req_parse` calls `recv`.
* `reqParse_buffered`: no byte is lost or read twice, and the buffer never holds more than
  `REQ_MAX_SIZE` bytes.
* `reqParse_fields`: the URI, the version digits and every header of an accepted request are
  well formed.
* `reqParse_stale`: a parse that succeeds when the stale bytes are absent succeeds the same
  whatever they are.
-/

namespace HttpFileServer.Http

/-- `REQ_MAX_SIZE`. -/
def reqMaxSize : Nat := 2048

/-- `Method`. -/
inductive Method where
  | get
  | put
  | unsupported
  deriving DecidableEq, Repr

/-- `Header`: a key and its value. -/
structure Header where
  key : String
  value : String
  deriving DecidableEq, Repr

/-- A header as `_HEADER_PATTERN` reads one: a key of one to 128 name characters and a value
of one to 128 printable characters. -/
def Header.WellFormed (h : Header) : Prop :=
  Token isNameChar 128 h.key.data ∧ Token isPrintable 128 h.value.data

/-- `struct request`. `data` is `in.buf[0, wc)` and `pc` is `in.pc`; `sock` stands for
`sockfd`, as the bytes the client sends from now until it closes. `uri` is `none` while it is
`NULL`, `headers` is `headers[0, num_headers)` and `body` is `body[0, body_size)`, empty while
`body` is `NULL`. -/
@[ext]
structure Request where
  data : List Char
  pc : Nat
  sock : List Char
  method : Method
  uri : Option String
  httpVerMajor : Char
  httpVerMinor : Char
  headers : List Header
  body : List Char
  deriving DecidableEq, Repr

namespace Request

/-- The write cursor `in.wc`. -/
def wc (r : Request) : Nat := r.data.length

/-- The copy `str` that `parse_chunk` makes of the unparsed bytes, as `regexec` reads it. The
parse functions copy their groups out of `in.buf + pc`, which holds the same bytes. -/
def unparsed (r : Request) : List Char := cstr (r.data.drop r.pc)

/-- `n` more bytes from the socket into the buffer at `wc`, or all that the client still
sends when that is fewer (`read_n_bytes`). -/
def read (r : Request) (n : Nat) : Request :=
  { r with data := r.data ++ r.sock.take n, sock := r.sock.drop n }

/-- The read of `parse_chunk`: when fewer than `chunkSize` bytes are unparsed and the buffer is
not full, read the missing bytes, at most up to `REQ_MAX_SIZE`. Reading none (the end of the
stream) makes the request invalid. -/
def fill (r : Request) (chunkSize : Nat) : Option Request :=
  if r.wc - r.pc < chunkSize ∧ r.wc < reqMaxSize then
    let need := min (chunkSize - (r.wc - r.pc)) (reqMaxSize - r.wc)
    if (r.sock.take need).isEmpty then none else some (r.read need)
  else some r

/-- The `recv` of `req_parse`: what has arrived, `ready` bytes, up to a full buffer. -/
def recv (r : Request) (ready : Nat) : Request :=
  r.read (min ready (reqMaxSize - r.wc))

end Request

/-- `req_create`: nothing read, nothing parsed. -/
def reqCreate (sock : List Char) : Request :=
  { data := [], pc := 0, sock := sock, method := .unsupported, uri := none,
    httpVerMajor := '0', httpVerMinor := '0', headers := [], body := [] }

variable {α : Type}

/-- `parse_chunk`: read if fewer than `chunkSize` bytes are unparsed, then run `reg` on the
unparsed bytes. Returns the request and where `reg` matched. -/
def parseChunk (r : Request) (chunkSize : Nat) (reg : List Char → Option (Nat × α)) :
    Option (Request × Nat × α) := do
  let r ← r.fill chunkSize
  let (p, a) ← reg r.unparsed
  pure (r, p, a)

/-- The `strcasecmp` tests of `parse_method`. -/
def methodOf (m : List Char) : Method :=
  if m.map Char.toLower = ['g', 'e', 't'] then .get
  else if m.map Char.toLower = ['p', 'u', 't'] then .put
  else .unsupported

/-- `parse_method`: `_METHOD_PATTERN` over at least 9 bytes. -/
def parseMethod (r : Request) : Option Request := do
  let (r, p, k) ← parseChunk r 9 (regexec true methodPattern)
  pure { r with method := methodOf ((r.unparsed.drop p).take k), pc := r.pc + p + k + 1 }

/-- `parse_uri`: `_URI_PATTERN` over at least 65 bytes. -/
def parseUri (r : Request) : Option Request := do
  let (r, p, k) ← parseChunk r 65 (regexec true uriPattern)
  pure { r with uri := some ⟨(r.unparsed.drop (p + 1)).take k⟩, pc := r.pc + p + k + 2 }

/-- `parse_http_version`: `_HTTP_VERSION_PATTERN` over at least 11 bytes. -/
def parseHttpVersion (r : Request) : Option Request := do
  let (r, p, _) ← parseChunk r 11 (regexec true httpVersionPattern)
  pure { r with httpVerMajor := r.unparsed.getD (p + 5) '\x00',
                httpVerMinor := r.unparsed.getD (p + 7) '\x00', pc := r.pc + p + 10 }

/-- The loop of `parse_headers`: while `pc` is before `headers_end`, search `in.buf + pc` for
`_HEADER_PATTERN`, copy its key and value, and move past the match. -/
def parseHeaderLines (buf : List Char) (headersEnd : Nat) :
    Nat → Nat → List Header → Option (Nat × List Header)
  | 0, _, _ => none
  | fuel + 1, pc, hs =>
    if pc < headersEnd then
      let str := cstr (buf.drop pc)
      match regexec false headerPattern str with
      | some (p, k, v) =>
        parseHeaderLines buf headersEnd fuel (pc + p + k + v + 4)
          (hs ++ [⟨⟨(str.drop p).take k⟩, ⟨(str.drop (p + k + 2)).take v⟩⟩])
      | none => none
    else some (pc, hs)

/-- `parse_headers`: `_HEADERS_PATTERN` over the unparsed bytes, with no read. When its group
matched no line, move past the match; otherwise read the lines up to the end of the group and
skip the blank line. The buffer past `wc` still holds `stale`. Each turn of the loop moves
`pc` forward, so `headers_end + 1` turns are enough. -/
def parseHeaders (stale : List Char) (r : Request) : Option Request := do
  let (r, p, e, last) ← parseChunk r 0 (regexec true headersPattern)
  match last with
  | some (so, eo) =>
    if so = eo then pure { r with pc := r.pc + p + e } else do
      let headersEnd := r.pc + p + eo
      let (pc, hs) ← parseHeaderLines (r.data ++ stale.drop r.wc) headersEnd (headersEnd + 1) r.pc []
      pure { r with headers := hs, pc := pc + 2 }
  | none => pure { r with pc := r.pc + p + e }

/-- `parse_body`: the unparsed bytes, if any, are the body. -/
def parseBody (r : Request) : Request :=
  if 0 < r.wc - r.pc then { r with body := r.data.drop r.pc, pc := r.wc } else { r with pc := r.wc }

/-- `req_parse`; `none` is the `-1` of an invalid request. -/
def reqParse (stale : List Char) (ready : Nat) (r : Request) : Option Request := do
  let r ← parseMethod r
  let r ← parseUri r
  let r ← parseHttpVersion r
  let r ← parseHeaders stale (r.recv ready)
  pure (parseBody r)

/-! ## The buffer -/

namespace Request

variable {r r' : Request} {input : List Char} {n c : Nat}

@[simp] theorem read_pc : (r.read n).pc = r.pc := rfl
@[simp] theorem read_uri : (r.read n).uri = r.uri := rfl
@[simp] theorem read_headers : (r.read n).headers = r.headers := rfl
@[simp] theorem read_httpVerMajor : (r.read n).httpVerMajor = r.httpVerMajor := rfl
@[simp] theorem read_httpVerMinor : (r.read n).httpVerMinor = r.httpVerMinor := rfl

theorem read_zero : r.read 0 = r := by
  simp [read]

/-- What the buffer and the socket hold together is what the client sent, and the buffer holds
at most `REQ_MAX_SIZE` bytes. -/
structure Buffered (input : List Char) (r : Request) : Prop where
  stream : r.data ++ r.sock = input
  wc_le : r.wc ≤ reqMaxSize

/-- The invariant reads only the buffer and the socket. -/
theorem Buffered.of_eq (hb : r.Buffered input) (hd : r'.data = r.data) (hs : r'.sock = r.sock) :
    r'.Buffered input :=
  ⟨by rw [hd, hs, hb.stream], by simpa only [wc, hd] using hb.wc_le⟩

theorem read_buffered (hb : r.Buffered input) (hn : r.wc + n ≤ reqMaxSize) :
    (r.read n).Buffered input :=
  ⟨by simp [read, ← hb.stream], by simp only [read, wc, List.length_append, List.length_take] at hn ⊢; omega⟩

/-- A read takes the next bytes of the stream. -/
theorem read_eq (hb : r.data ++ r.sock = input) :
    r.read n = { r with data := input.take (r.wc + n), sock := input.drop (r.wc + n) } := by
  subst hb
  simp [read, wc, List.take_append, List.drop_append]

/-- `parse_chunk`'s read when the stream still holds a byte whenever one is needed: the buffer
then runs to `pc + chunkSize` bytes, at most `REQ_MAX_SIZE`, or to the end of the stream. -/
theorem fill_eq (hb : r.data ++ r.sock = input) (hpc : r.pc ≤ r.wc)
    (hread : r.wc - r.pc < c → r.wc < reqMaxSize → r.wc < input.length) :
    r.fill c = some (r.read (min (r.pc + c) reqMaxSize - r.wc)) := by
  have hlen : input.length = r.wc + r.sock.length := by rw [← hb, List.length_append]; rfl
  simp only [fill]
  split_ifs with h1 h2
  · have hs : r.sock ≠ [] := fun e => by have := hread h1.1 h1.2; simp [e] at hlen; omega
    simp only [List.isEmpty_iff, List.take_eq_nil_iff, hs, or_false] at h2
    omega
  · congr 2
    omega
  · rw [show min (r.pc + c) reqMaxSize - r.wc = 0 by omega, read_zero]

/-- `parse_chunk`'s read moves bytes from the socket to the buffer and stops at a full buffer. -/
theorem fill_buffered (hb : r.Buffered input) (h : r.fill c = some r') :
    r'.Buffered input ∧ ∃ n, r' = r.read n := by
  simp only [fill] at h
  split_ifs at h with hc
  · cases h
    exact ⟨read_buffered hb (by omega), _, rfl⟩
  · cases h
    exact ⟨hb, 0, read_zero.symm⟩

theorem recv_buffered (hb : r.Buffered input) (ready : Nat) : (r.recv ready).Buffered input :=
  read_buffered hb (by have := hb.wc_le; omega)

end Request

open Request

section Stages

variable {r r' : Request} {input : List Char}

theorem parseChunk_eq_some {c p : Nat} {reg : List Char → Option (Nat × α)} {a : α} :
    parseChunk r c reg = some (r', p, a) ↔ r.fill c = some r' ∧ reg r'.unparsed = some (p, a) := by
  simp only [parseChunk, Option.bind_eq_bind, Option.bind_eq_some, Prod.exists]
  constructor
  · rintro ⟨r1, h1, p', a', h2, h3⟩
    cases h3
    exact ⟨h1, h2⟩
  · rintro ⟨h1, h2⟩
    exact ⟨r', h1, p, a, h2, rfl⟩

theorem parseMethod_buffered (hb : r.Buffered input) (h : parseMethod r = some r') :
    r'.Buffered input ∧ r'.uri = r.uri ∧ r'.headers = r.headers := by
  simp only [parseMethod, Option.bind_eq_bind, Option.bind_eq_some, Prod.exists,
    parseChunk_eq_some, Option.pure_def, Option.some.injEq] at h
  obtain ⟨r1, p, k, ⟨hf, -⟩, rfl⟩ := h
  obtain ⟨hb1, n, rfl⟩ := fill_buffered hb hf
  exact ⟨hb1.of_eq rfl rfl, rfl, rfl⟩

/-- `parse_uri` stores one to 63 name characters. -/
theorem parseUri_uri (hb : r.Buffered input) (h : parseUri r = some r') :
    r'.Buffered input ∧ (∃ u, r'.uri = some ⟨u⟩ ∧ Token isNameChar 63 u) ∧ r'.headers = r.headers := by
  simp only [parseUri, Option.bind_eq_bind, Option.bind_eq_some, Prod.exists,
    parseChunk_eq_some, Option.pure_def, Option.some.injEq] at h
  obtain ⟨r1, p, k, ⟨hf, hm⟩, rfl⟩ := h
  obtain ⟨hb1, n, rfl⟩ := fill_buffered hb hf
  have hu := uriPattern_group (regexec_sound hm)
  rw [List.drop_drop] at hu
  exact ⟨hb1.of_eq rfl rfl, ⟨_, rfl, hu⟩, rfl⟩

/-- `parse_http_version` stores two digits. -/
theorem parseHttpVersion_digits (hb : r.Buffered input) (h : parseHttpVersion r = some r') :
    r'.Buffered input ∧ r'.httpVerMajor.isDigit ∧ r'.httpVerMinor.isDigit ∧ r'.uri = r.uri ∧
      r'.headers = r.headers := by
  simp only [parseHttpVersion, Option.bind_eq_bind, Option.bind_eq_some, Prod.exists,
    parseChunk_eq_some, Option.pure_def, Option.some.injEq] at h
  obtain ⟨r1, p, u, ⟨hf, hm⟩, rfl⟩ := h
  obtain ⟨hb1, n, rfl⟩ := fill_buffered hb hf
  have hd := httpVersionPattern_groups (d := '\x00') (regexec_sound hm)
  simp only [List.getD_eq_getElem?_getD, List.getElem?_drop] at hd
  exact ⟨hb1.of_eq rfl rfl, by simpa using hd.1, by simpa using hd.2, rfl, rfl⟩

/-- Every header the loop of `parse_headers` copies is well formed. -/
theorem parseHeaderLines_wellFormed {buf : List Char} {e : Nat} :
    ∀ {fuel pc : Nat} {hs : List Header} {res : Nat × List Header},
      parseHeaderLines buf e fuel pc hs = some res → (∀ x ∈ hs, x.WellFormed) →
        ∀ x ∈ res.2, x.WellFormed
  | 0, _, _, _, h, _ => by cases h
  | fuel + 1, pc, hs, res, h, hw => by
    simp only [parseHeaderLines] at h
    split_ifs at h
    · split at h
      · rename_i p k v hm
        refine parseHeaderLines_wellFormed h fun x hx => ?_
        rcases List.mem_append.1 hx with hx | hx
        · exact hw x hx
        · obtain ⟨hk, hv, -⟩ := headerPattern_groups (regexec_sound hm)
          rw [List.mem_singleton.1 hx, List.drop_drop, ← Nat.add_assoc] at *
          exact ⟨hk, hv⟩
      · cases h
    · cases h
      exact hw

/-- `parse_headers` stores only well-formed headers. -/
theorem parseHeaders_wellFormed {stale : List Char} (hb : r.Buffered input)
    (h : parseHeaders stale r = some r') :
    r'.Buffered input ∧ ((∀ x ∈ r.headers, x.WellFormed) → ∀ x ∈ r'.headers, x.WellFormed) ∧
      r'.uri = r.uri ∧
      r'.httpVerMajor = r.httpVerMajor ∧ r'.httpVerMinor = r.httpVerMinor := by
  simp only [parseHeaders, Option.bind_eq_bind, Option.bind_eq_some, Prod.exists,
    parseChunk_eq_some, Option.pure_def, Option.some.injEq] at h
  obtain ⟨r1, p, e, last, ⟨hf, -⟩, h⟩ := h
  obtain ⟨hb1, n, rfl⟩ := fill_buffered hb hf
  split at h
  · split_ifs at h
    · cases h
      exact ⟨hb1.of_eq rfl rfl, id, rfl, rfl, rfl⟩
    · simp only [Option.bind_eq_bind, Option.bind_eq_some, Prod.exists, Option.pure_def,
        Option.some.injEq] at h
      obtain ⟨pc, hs, hl, rfl⟩ := h
      exact ⟨hb1.of_eq rfl rfl, fun _ => parseHeaderLines_wellFormed hl (by simp), rfl, rfl, rfl⟩
  · cases h
    exact ⟨hb1.of_eq rfl rfl, id, rfl, rfl, rfl⟩

end Stages

/-! ## A whole parse -/

section Parse

variable {stale : List Char} {ready : Nat} {r r' : Request} {input : List Char}

theorem parseBody_eq (r : Request) :
    parseBody r = { r with body := if 0 < r.wc - r.pc then r.data.drop r.pc else r.body, pc := r.wc } := by
  unfold parseBody; split_ifs <;> rfl

theorem reqCreate_buffered (sock : List Char) : (reqCreate sock).Buffered sock :=
  ⟨rfl, by simp [reqCreate, wc, reqMaxSize]⟩

/-- Over a whole parse no byte is lost or read twice, and the buffer stays within
`REQ_MAX_SIZE`. -/
theorem reqParse_buffered (hb : r.Buffered input) (h : reqParse stale ready r = some r') :
    r'.Buffered input := by
  simp only [reqParse, Option.bind_eq_bind, Option.bind_eq_some, Option.pure_def,
    Option.some.injEq] at h
  obtain ⟨r1, h1, r2, h2, r3, h3, r4, h4, rfl⟩ := h
  have hb3 := (parseHttpVersion_digits (parseUri_uri (parseMethod_buffered hb h1).1 h2).1 h3).1
  rw [parseBody_eq]
  exact (parseHeaders_wellFormed (recv_buffered hb3 ready) h4).1.of_eq rfl rfl

/-- A GET of `a` with a `Request-Id`, as a client sends it. -/
def getRequest : List Char := "GET /a HTTP/1.1\r\nRequest-Id: 5\r\n\r\n".toList

theorem reqParse_getRequest : reqParse [] reqMaxSize (reqCreate getRequest) =
    some ⟨getRequest, 34, [], .get, some "a", '1', '1', [⟨"Request-Id", "5"⟩], []⟩ := by
  decide

/-- The parse of `getRequest`, arriving at once, keeps every byte in the buffer. -/
theorem reqParse_buffered_get :
    (⟨getRequest, 34, [], .get, some "a", '1', '1', [⟨"Request-Id", "5"⟩], []⟩ : Request).Buffered
      getRequest :=
  reqParse_buffered (reqCreate_buffered getRequest) reqParse_getRequest

/-- An accepted request stores a URI of one to 63 name characters, two version digits and
well-formed headers. -/
theorem reqParse_fields {sock : List Char} (h : reqParse stale ready (reqCreate sock) = some r') :
    (∃ u, r'.uri = some ⟨u⟩ ∧ Token isNameChar 63 u) ∧ r'.httpVerMajor.isDigit ∧
      r'.httpVerMinor.isDigit ∧ ∀ x ∈ r'.headers, x.WellFormed := by
  simp only [reqParse, Option.bind_eq_bind, Option.bind_eq_some, Option.pure_def,
    Option.some.injEq] at h
  obtain ⟨r1, h1, r2, h2, r3, h3, r4, h4, rfl⟩ := h
  obtain ⟨hb1, -, hh1⟩ := parseMethod_buffered (reqCreate_buffered sock) h1
  obtain ⟨hb2, ⟨u, hu, htok⟩, hh2⟩ := parseUri_uri hb1 h2
  obtain ⟨hb3, d1, d2, hu3, hh3⟩ := parseHttpVersion_digits hb2 h3
  obtain ⟨-, hw, hu4, hM, hm⟩ := parseHeaders_wellFormed (recv_buffered hb3 ready) h4
  simp only [recv, read_uri, read_httpVerMajor, read_httpVerMinor, read_headers] at hu4 hM hm hw
  rw [parseBody_eq]
  exact ⟨⟨u, hu4.trans (hu3.trans hu), htok⟩, hM ▸ d1, hm ▸ d2,
    hw (by simp [hh3, hh2, hh1, reqCreate])⟩

/-- The fields of `getRequest` as parsed. -/
theorem reqParse_fields_get :
    (∃ u, (some "a" : Option String) = some ⟨u⟩ ∧ Token isNameChar 63 u) ∧ ('1' : Char).isDigit ∧
      ('1' : Char).isDigit ∧ ∀ x ∈ [(⟨"Request-Id", "5"⟩ : Header)], x.WellFormed :=
  reqParse_fields reqParse_getRequest

theorem take_drop_append {x z : List Char} {p k : Nat} (h : p + k ≤ x.length) :
    ((x ++ z).drop p).take k = (x.drop p).take k := by
  rw [List.drop_append_of_le_length (by omega), List.take_append_of_le_length (by simp; omega)]

/-- Bytes past the end of the buffer change no turn of the header loop that succeeds: every
search finds its line before them. -/
theorem parseHeaderLines_append {buf t : List Char} {e : Nat} :
    ∀ {fuel pc : Nat} {hs : List Header} {res : Nat × List Header},
      parseHeaderLines buf e fuel pc hs = some res → parseHeaderLines (buf ++ t) e fuel pc hs = some res
  | 0, _, _, _, h => by cases h
  | fuel + 1, pc, hs, res, h => by
    simp only [parseHeaderLines] at h ⊢
    split_ifs at h ⊢
    · obtain ⟨z, hz⟩ := cstr_append (buf.drop pc) (t.drop (pc - buf.length))
      rw [List.drop_append_eq_append_drop, hz]
      split at h
      · rename_i p k v hm
        have hl := (headerPattern_groups (regexec_sound hm)).2.2
        rw [List.length_drop] at hl
        rw [regexec_append hm]
        simp only
        rw [take_drop_append (by omega), take_drop_append (by omega)]
        exact parseHeaderLines_append h
      · cases h
    · exact h

theorem parseHeaders_stale (h : parseHeaders [] r = some r') : parseHeaders stale r = some r' := by
  simp only [parseHeaders, Option.bind_eq_bind, Option.bind_eq_some, Prod.exists] at h ⊢
  obtain ⟨r1, p, e, last, hc, h⟩ := h
  refine ⟨r1, p, e, last, hc, ?_⟩
  split at h
  · split_ifs at h ⊢
    · exact h
    · obtain ⟨res, hl, h⟩ := Option.bind_eq_some.1 h
      rw [List.drop_nil, List.append_nil] at hl
      exact Option.bind_eq_some.2 ⟨res, parseHeaderLines_append hl, h⟩
  · exact h

/-- A parse that succeeds when nothing stale follows the bytes read succeeds the same whatever
the buffer held before. -/
theorem reqParse_stale (h : reqParse [] ready r = some r') : reqParse stale ready r = some r' := by
  simp only [reqParse, Option.bind_eq_bind, Option.bind_eq_some] at h ⊢
  obtain ⟨r1, h1, r2, h2, r3, h3, r4, h4, h5⟩ := h
  exact ⟨r1, h1, r2, h2, r3, h3, r4, parseHeaders_stale h4, h5⟩

end Parse

end HttpFileServer.Http

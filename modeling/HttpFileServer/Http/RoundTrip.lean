import HttpFileServer.Http.Getters

/-!
# Well-formed requests are parsed back (`req_parse`)

The assignment's grammar of a request head is a request line `METHOD SP /URI SP HTTP/d.d CRLF`,
header lines `KEY: VALUE CRLF` and a blank line. `RequestHead.render` writes a head as bytes.

* `reqParse_render`: when the whole request has arrived, `req_parse` accepts every well-formed
  head of at most `REQ_MAX_SIZE` bytes followed by any body, and stores exactly its method,
  URI, version and headers, in order, with the rest of the buffered bytes as the body.
* The parse goes part by part: `parseChunk_token` is one part whose bytes start the unparsed
  text, and `headerLines_block`, `parseHeaderLines_block` are the header lines.
* `junkLine_accepted`: the converse fails, as `req_parse` accepts a request with a line that is
  no header line among its headers.
-/

namespace HttpFileServer.Http

/-- A request head as the grammar writes it. -/
structure RequestHead where
  method : List Char
  uri : List Char
  major : Char
  minor : Char
  headers : List (List Char × List Char)
  deriving DecidableEq, Repr

namespace RequestHead

/-- `KEY: VALUE CRLF`. -/
def headerLine (kv : List Char × List Char) : List Char :=
  kv.1 ++ ':' :: ' ' :: (kv.2 ++ ['\r', '\n'])

/-- The header lines, in order. -/
def headerBlock : List (List Char × List Char) → List Char
  | [] => []
  | kv :: hs => headerLine kv ++ headerBlock hs

/-- A head from its version on: `HTTP/d.d CRLF`, the header lines and the blank line. -/
def versionPart (h : RequestHead) : List Char :=
  'H' :: 'T' :: 'T' :: 'P' :: '/' :: h.major :: '.' :: h.minor :: '\r' :: '\n' ::
    (headerBlock h.headers ++ ['\r', '\n'])

/-- A head from its URI on: `/URI SP` and the rest. -/
def uriPart (h : RequestHead) : List Char :=
  '/' :: (h.uri ++ ' ' :: versionPart h)

/-- A head as bytes: the request line, the header lines and the blank line. -/
def render (h : RequestHead) : List Char :=
  h.method ++ ' ' :: uriPart h

/-- A header line of the grammar: a key of one to 128 name characters and a value of one to
128 printable characters. -/
def HeaderOk (kv : List Char × List Char) : Prop :=
  Token isNameChar 128 kv.1 ∧ Token isPrintable 128 kv.2

/-- The grammar's conditions on each part of a head. -/
structure WellFormed (h : RequestHead) : Prop where
  method : Token Char.isAlpha 8 h.method
  uri : Token isNameChar 63 h.uri
  major : h.major.isDigit = true
  minor : h.minor.isDigit = true
  headers : ∀ kv ∈ h.headers, HeaderOk kv

/-- The header a parse stores for a header line. -/
def toHeader (kv : List Char × List Char) : Header :=
  ⟨⟨kv.1⟩, ⟨kv.2⟩⟩

/-- What `req_parse` stores for the head `h` at the start of `input` when every byte of `input`
has arrived: the first `REQ_MAX_SIZE` bytes are buffered and all parsed, the body is what
follows the head in them. -/
def parsed (h : RequestHead) (input : List Char) : Request :=
  { data := input.take reqMaxSize, pc := (input.take reqMaxSize).length,
    sock := input.drop reqMaxSize, method := methodOf h.method, uri := some ⟨h.uri⟩,
    httpVerMajor := h.major, httpVerMinor := h.minor, headers := h.headers.map toHeader,
    body := (input.take reqMaxSize).drop h.render.length }

/-- `req_get_header_value` of a parsed head is the value of the first header of the head whose
key matches. -/
theorem reqGetHeaderValue_parsed (h : RequestHead) (input : List Char) (key : String) :
    reqGetHeaderValue (h.parsed input) key =
      (h.headers.find? fun kv => strcasecmpEq ⟨kv.1⟩ key).map fun kv => ⟨kv.2⟩ := by
  simp only [reqGetHeaderValue, parsed, List.find?_map, Option.map_map]
  rfl

theorem headerLine_length (kv : List Char × List Char) :
    (headerLine kv).length = kv.1.length + kv.2.length + 4 := by
  simp [headerLine]; omega

theorem length_le_headerBlock : ∀ hs : List (List Char × List Char), hs.length ≤ (headerBlock hs).length
  | [] => le_rfl
  | kv :: hs => by
    have := length_le_headerBlock hs
    simp only [headerBlock, List.length_append, headerLine_length, List.length_cons]
    omega

theorem render_length (h : RequestHead) :
    h.render.length = h.method.length + h.uri.length + (headerBlock h.headers).length + 15 := by
  simp [render, uriPart, versionPart]; omega

/-- No byte of a head of the grammar is a NUL. -/
theorem headerLine_nul {kv : List Char × List Char} (h : HeaderOk kv) : '\x00' ∉ headerLine kv := by
  have hk : '\x00' ∉ kv.1 := fun e => absurd (h.1.2.2 _ e) (by decide)
  have hv : '\x00' ∉ kv.2 := fun e => absurd (h.2.2.2 _ e) (by decide)
  simp [headerLine, hk, hv]

end RequestHead

open RequestHead

/-- A word of a class that excludes NUL holds no NUL. -/
theorem Token.nul_not_mem {cls : Char → Bool} {n : Nat} {w : List Char} (h : Token cls n w)
    (hc : cls '\x00' = false) : '\x00' ∉ w :=
  fun e => by simp [h.2.2 _ e] at hc

/-! ## One part at a time -/

section Parts

variable {r : Request} {input w rest : List Char} {c : Nat} {α : Type}

/-- Unparsed bytes that start with `w` (no NUL in it) are a text that starts with `w`. -/
theorem unparsed_token {k : Nat} (hd : r.data = input.take k) (hw : input.drop r.pc = w ++ rest)
    (hk : r.pc + w.length ≤ k) (hnul : '\x00' ∉ w) : ∃ z, r.unparsed = w ++ z :=
  ⟨cstr (rest.take (k - r.pc - w.length)), by
    rw [Request.unparsed, hd, List.drop_take, hw, List.take_append_eq_append_take,
      List.take_of_length_le (by omega), cstr_append_of_not_mem hnul]⟩

/-- A part whose bytes `w` come next in the stream: `parse_chunk` reads up to
`pc + chunkSize` bytes and the pattern `g` matches at the start of the text. -/
theorem parseChunk_token {g : List Char → Option (Nat × α)} {a : α}
    (hb : r.data ++ r.sock = input) (hpc : r.pc ≤ r.wc)
    (hread : r.wc - r.pc < c → r.wc < reqMaxSize → r.wc < input.length)
    (hw : input.drop r.pc = w ++ rest) (hc : w.length ≤ c) (hmax : r.pc + w.length ≤ reqMaxSize)
    (hnul : '\x00' ∉ w) (hg : ∀ z, g (w ++ z) = some (0, a)) :
    ∃ z, (r.read (min (r.pc + c) reqMaxSize - r.wc)).unparsed = w ++ z ∧
      parseChunk r c g = some (r.read (min (r.pc + c) reqMaxSize - r.wc), 0, a) := by
  have hd := congrArg Request.data (Request.read_eq (n := min (r.pc + c) reqMaxSize - r.wc) hb)
  obtain ⟨z, hz⟩ := unparsed_token (r := r.read _) hd hw (by simp only [Request.read_pc]; omega) hnul
  exact ⟨z, hz, parseChunk_eq_some.2 ⟨Request.fill_eq hb hpc hread, hz ▸ hg z⟩⟩

/-- `parse_method` on a method `m` and its space. -/
theorem parseMethod_token {m : List Char} (hm : Token Char.isAlpha 8 m)
    (hb : r.data ++ r.sock = input) (hpc : r.pc ≤ r.wc)
    (hread : r.wc - r.pc < 9 → r.wc < reqMaxSize → r.wc < input.length)
    (hw : input.drop r.pc = m ++ ' ' :: rest) (hmax : r.pc + 9 ≤ reqMaxSize) :
    parseMethod r = some { r.read (min (r.pc + 9) reqMaxSize - r.wc) with
      method := methodOf m, pc := r.pc + m.length + 1 } := by
  have hlen := hm.2.1
  obtain ⟨z, hz, hc⟩ := parseChunk_token (w := m ++ [' ']) (c := 9) (g := regexec true methodPattern)
    hb hpc hread (by simpa using hw) (by simp; omega) (by simp; omega)
    (by simpa using hm.nul_not_mem rfl)
    fun z => regexec_of_head (methodPattern_eq_some_iff.2 ⟨m, z, by simp, hm, rfl⟩)
  simp [parseMethod, hc, hz]

/-- `parse_uri` on a slash, a URI `u` and its space. -/
theorem parseUri_token {u : List Char} (hu : Token isNameChar 63 u)
    (hb : r.data ++ r.sock = input) (hpc : r.pc ≤ r.wc)
    (hread : r.wc - r.pc < 65 → r.wc < reqMaxSize → r.wc < input.length)
    (hw : input.drop r.pc = '/' :: (u ++ ' ' :: rest)) (hmax : r.pc + 65 ≤ reqMaxSize) :
    parseUri r = some { r.read (min (r.pc + 65) reqMaxSize - r.wc) with
      uri := some ⟨u⟩, pc := r.pc + u.length + 2 } := by
  have hlen := hu.2.1
  obtain ⟨z, hz, hc⟩ := parseChunk_token (w := '/' :: (u ++ [' '])) (c := 65)
    (g := regexec true uriPattern) hb hpc hread (by simpa using hw) (by simp; omega)
    (by simp; omega) (by simpa using hu.nul_not_mem rfl)
    fun z => regexec_of_head (uriPattern_eq_some_iff.2 ⟨u, z, by simp, hu, rfl⟩)
  simp [parseUri, hc, hz]

/-- `parse_http_version` on `HTTP/a.b` and its CRLF. -/
theorem parseHttpVersion_token {a b : Char} (ha : a.isDigit = true) (hb' : b.isDigit = true)
    (hb : r.data ++ r.sock = input) (hpc : r.pc ≤ r.wc)
    (hread : r.wc - r.pc < 11 → r.wc < reqMaxSize → r.wc < input.length)
    (hw : input.drop r.pc = 'H' :: 'T' :: 'T' :: 'P' :: '/' :: a :: '.' :: b :: '\r' :: '\n' :: rest)
    (hmax : r.pc + 11 ≤ reqMaxSize) :
    parseHttpVersion r = some { r.read (min (r.pc + 11) reqMaxSize - r.wc) with
      httpVerMajor := a, httpVerMinor := b, pc := r.pc + 10 } := by
  have hna : a ≠ '\x00' := by rintro rfl; simp at ha
  have hnb : b ≠ '\x00' := by rintro rfl; simp at hb'
  obtain ⟨z, hz, hc⟩ := parseChunk_token
    (w := ['H', 'T', 'T', 'P', '/', a, '.', b, '\r', '\n']) (c := 11)
    (g := regexec true httpVersionPattern) hb hpc hread (by simpa using hw) (by simp) (by simp; omega)
    (by simp [hna.symm, hnb.symm])
    fun z => regexec_of_head (httpVersionPattern_eq_some_iff.2 ⟨a, b, z, rfl, ha, hb'⟩)
  simp [parseHttpVersion, hc, hz]

end Parts

/-! ## The header lines -/

section Headers

theorem headerBlock_nul : ∀ {hs : List (List Char × List Char)}, (∀ kv ∈ hs, HeaderOk kv) →
    '\x00' ∉ headerBlock hs
  | [], _ => by simp [headerBlock]
  | kv :: hs, hw => by
    simp only [headerBlock, List.mem_append, not_or]
    exact ⟨headerLine_nul (hw kv (List.mem_cons_self _ _)),
      headerBlock_nul fun x hx => hw x (List.mem_cons_of_mem _ hx)⟩

/-- A header line starts with a key character, so it is never the blank line. -/
theorem lit_crlf_headerLine {kv : List Char × List Char} (h : HeaderOk kv) (t : List Char) :
    lit ['\r', '\n'] (headerLine kv ++ t) = none := by
  obtain ⟨c, k, hk⟩ := List.exists_cons_of_ne_nil (List.ne_nil_of_length_pos h.1.1)
  have hc : c ≠ '\r' := fun e =>
    absurd (h.1.2.2 c (hk ▸ List.mem_cons_self _ _)) (by rw [e]; decide)
  simp [headerLine, hk, lit, Ne.symm hc]

/-- `_HEADERS_PATTERN` at the head of header lines of the grammar and the blank line: the
match ends after the blank line, and group 1 is the last line, when there is one. -/
theorem headerLines_block (t : List Char) : ∀ (hs : List (List Char × List Char)) (fuel pos : Nat)
    (last : Option (Nat × Nat)), (∀ kv ∈ hs, HeaderOk kv) → hs.length < fuel →
    ∃ l, headerLines fuel (headerBlock hs ++ '\r' :: '\n' :: t) pos last =
        some (pos + (headerBlock hs).length + 2, l) ∧ (hs = [] → l = last) ∧
      (hs ≠ [] → ∃ so, l = some (so, pos + (headerBlock hs).length) ∧ so < pos + (headerBlock hs).length)
  | [], fuel + 1, pos, last, _, _ =>
    ⟨last, by simp [headerLines, headerBlock, lit], fun _ => rfl, fun h => absurd rfl h⟩
  | kv :: hs, fuel + 1, pos, last, hw, hf => by
    have hkv := hw kv (List.mem_cons_self _ _)
    have hline := headerLine_length kv
    obtain ⟨l, hl, h1, h2⟩ := headerLines_block t hs fuel (pos + (headerLine kv).length)
      (some (pos, pos + (headerLine kv).length)) (fun x hx => hw x (List.mem_cons_of_mem _ hx))
      (by simp only [List.length_cons] at hf; omega)
    have hpat : headerPattern (headerBlock (kv :: hs) ++ '\r' :: '\n' :: t) =
        some (kv.1.length, kv.2.length) :=
      headerPattern_eq_some_iff.2 ⟨kv.1, kv.2, headerBlock hs ++ '\r' :: '\n' :: t,
        by simp [headerBlock, headerLine], hkv.1, hkv.2, rfl, rfl⟩
    have hrest : (headerBlock (kv :: hs) ++ '\r' :: '\n' :: t).drop (kv.1.length + kv.2.length + 4) =
        headerBlock hs ++ '\r' :: '\n' :: t := by
      rw [← hline, headerBlock, List.append_assoc, List.drop_left]
    have hlit : lit ['\r', '\n'] (headerBlock (kv :: hs) ++ '\r' :: '\n' :: t) = none := by
      rw [headerBlock, List.append_assoc]
      exact lit_crlf_headerLine hkv _
    refine ⟨l, ?_, fun h => absurd h (List.cons_ne_nil _ _), fun _ => ?_⟩
    · simp only [headerLines, hlit, hpat, hrest]
      rw [show pos + kv.1.length + kv.2.length + 4 = pos + (headerLine kv).length by omega, hl]
      simp only [headerBlock, List.length_append, Nat.add_assoc]
    · rcases hs with _ | ⟨kv', hs⟩
      · exact ⟨pos, by simpa [headerBlock] using h1 rfl, by simp [headerBlock]; omega⟩
      · obtain ⟨so, hso, hlt⟩ := h2 (List.cons_ne_nil _ _)
        have e : pos + (headerLine kv).length + (headerBlock (kv' :: hs)).length =
            pos + (headerBlock (kv :: kv' :: hs)).length := by
          simp only [headerBlock, List.length_append]; omega
        exact ⟨so, by rw [hso, e], by omega⟩

/-- The loop of `parse_headers` over header lines of the grammar copies each key and value, in
order, and stops at the end of the lines. -/
theorem parseHeaderLines_block {buf : List Char} : ∀ (hs : List (List Char × List Char))
    (fuel pc : Nat) (acc : List Header) (t : List Char), (∀ kv ∈ hs, HeaderOk kv) →
    hs.length < fuel → buf.drop pc = headerBlock hs ++ t →
    parseHeaderLines buf (pc + (headerBlock hs).length) fuel pc acc =
      some (pc + (headerBlock hs).length, acc ++ hs.map toHeader)
  | [], fuel + 1, pc, acc, t, _, _, _ => by simp [parseHeaderLines, headerBlock]
  | kv :: hs, fuel + 1, pc, acc, t, hw, hf, hd => by
    have hkv := hw kv (List.mem_cons_self _ _)
    have hline := headerLine_length kv
    have hstr : cstr (buf.drop pc) = headerLine kv ++ cstr (headerBlock hs ++ t) := by
      rw [hd, headerBlock, List.append_assoc, cstr_append_of_not_mem (headerLine_nul hkv)]
    have hm : regexec false headerPattern (cstr (buf.drop pc)) = some (0, kv.1.length, kv.2.length) := by
      rw [hstr]
      exact regexec_of_head (headerPattern_eq_some_iff.2
        ⟨kv.1, kv.2, cstr (headerBlock hs ++ t), by simp [headerLine], hkv.1, hkv.2, rfl, rfl⟩)
    have hnext := parseHeaderLines_block hs fuel (pc + (headerLine kv).length) (acc ++ [toHeader kv]) t
      (fun x hx => hw x (List.mem_cons_of_mem _ hx)) (by simp only [List.length_cons] at hf; omega)
      (by rw [← List.drop_drop, hd, headerBlock, List.append_assoc, List.drop_left])
    have hlt : pc < pc + (headerBlock (kv :: hs)).length := by
      simp only [headerBlock, List.length_append]; omega
    rw [parseHeaderLines, if_pos hlt]
    simp only [hm]
    have hk : ((cstr (buf.drop pc)).drop 0).take kv.1.length = kv.1 := by
      rw [hstr]; simp [headerLine]
    have hv : ((cstr (buf.drop pc)).drop (0 + kv.1.length + 2)).take kv.2.length = kv.2 := by
      rw [hstr, Nat.zero_add, ← List.drop_drop]; simp [headerLine]
    rw [hk, hv, show pc + 0 + kv.1.length + kv.2.length + 4 = pc + (headerLine kv).length by omega,
      show pc + (headerBlock (kv :: hs)).length = pc + (headerLine kv).length + (headerBlock hs).length by
        simp only [headerBlock, List.length_append]; omega]
    simpa [toHeader] using hnext

end Headers

/-! ## The whole request -/

section Whole

variable {r : Request} {input : List Char}

/-- `parse_headers` on buffered header lines of the grammar and the blank line. -/
theorem parseHeaders_block {stale rest : List Char} {hs : List (List Char × List Char)}
    (hw : ∀ kv ∈ hs, HeaderOk kv) (hb : r.data ++ r.sock = input) (hh : r.headers = [])
    (hblk : input.drop r.pc = headerBlock hs ++ '\r' :: '\n' :: rest)
    (hwc : r.pc + (headerBlock hs).length + 2 ≤ r.wc) :
    parseHeaders stale r =
      some { r with headers := hs.map toHeader, pc := r.pc + (headerBlock hs).length + 2 } := by
  have hd : r.data = input.take r.wc := by rw [← hb]; simp [Request.wc]
  have hlen := length_le_headerBlock hs
  obtain ⟨z, hz⟩ := unparsed_token (w := headerBlock hs ++ ['\r', '\n']) hd (by simpa using hblk)
    (by simp; omega) (by simpa using headerBlock_nul hw)
  obtain ⟨l, hl, h1, h2⟩ := headerLines_block z hs (headerBlock hs ++ '\r' :: '\n' :: z).length 0 none
    hw (by simp; omega)
  have hchunk : parseChunk r 0 (regexec true headersPattern) =
      some (r, 0, 0 + (headerBlock hs).length + 2, l) := by
    refine parseChunk_eq_some.2 ⟨by simp [Request.fill], ?_⟩
    rw [hz]
    exact regexec_of_head (by simpa [headersPattern] using hl)
  simp only [parseHeaders, Option.bind_eq_bind, hchunk, Option.some_bind]
  rcases hs with _ | ⟨kv, hs⟩
  · rw [h1 rfl]
    simp [hh, headerBlock]
  · obtain ⟨so, rfl, hso⟩ := h2 (List.cons_ne_nil _ _)
    have hloop : parseHeaderLines (r.data ++ stale.drop r.wc) (r.pc + (headerBlock (kv :: hs)).length)
        (r.pc + (headerBlock (kv :: hs)).length + 1) r.pc [] =
        some (r.pc + (headerBlock (kv :: hs)).length, [] ++ (kv :: hs).map toHeader) :=
      parseHeaderLines_block (kv :: hs) _ r.pc []
        (('\r' :: '\n' :: rest).take (r.wc - r.pc - (headerBlock (kv :: hs)).length) ++ stale.drop r.wc)
        hw (by omega) (by
          rw [List.drop_append_of_le_length (by simp [Request.wc] at hwc; omega), hd, List.drop_take,
            hblk, List.take_append_eq_append_take, List.take_of_length_le (by omega), List.append_assoc])
    simp only [Nat.zero_add, Nat.add_zero] at hso ⊢
    rw [if_neg (Nat.ne_of_lt hso), hloop]
    rfl

theorem drop_of_eq_append {p s l : List Char} {n : Nat} (hl : l = p ++ s) (hn : n = p.length) :
    l.drop n = s := by
  rw [hl, hn, List.drop_left]

/-- Every well-formed head of at most `REQ_MAX_SIZE` bytes, followed by any body, is accepted
once all of it has arrived, and `req_parse` stores exactly its parts. -/
theorem reqParse_render (stale : List Char) {h : RequestHead} (hw : h.WellFormed)
    (hlen : h.render.length ≤ reqMaxSize) {ready : Nat} (hready : reqMaxSize ≤ ready)
    (body : List Char) :
    reqParse stale ready (reqCreate (h.render ++ body)) = some (h.parsed (h.render ++ body)) := by
  obtain ⟨hm1, hm8, -⟩ := hw.method
  obtain ⟨hu1, hu63, -⟩ := hw.uri
  have hL := render_length h
  have hmax : reqMaxSize = 2048 := rfl
  rw [hmax] at hlen hready
  set input := h.render ++ body with hinput
  have hI : input.length = h.render.length + body.length := List.length_append _ _
  have d1 : input.drop (h.method.length + 1) = '/' :: (h.uri ++ ' ' :: (versionPart h ++ body)) :=
    drop_of_eq_append (p := h.method ++ [' ']) (by simp [input, render, uriPart]) (by simp)
  -- the request line, part by part
  set R1 : Request := ⟨input.take 9, h.method.length + 1, input.drop 9, methodOf h.method, none,
    '0', '0', [], []⟩
  have e1 : parseMethod (reqCreate input) = some R1 := by
    rw [parseMethod_token hw.method rfl le_rfl (fun _ _ => by simp [reqCreate, Request.wc]; omega)
      (show input.drop 0 = h.method ++ ' ' :: (uriPart h ++ body) by simp [input, render])
      (by simp [reqCreate, hmax]), Request.read_eq rfl]
    simp [R1, reqCreate, Request.wc, hmax]
  set R2 : Request := ⟨input.take (h.method.length + 66), h.method.length + h.uri.length + 3,
    input.drop (h.method.length + 66), methodOf h.method, some ⟨h.uri⟩, '0', '0', [], []⟩
  have e2 : parseUri R1 = some R2 := by
    rw [parseUri_token (r := R1) hw.uri (List.take_append_drop 9 input)
      (by simp [R1, Request.wc]; omega) (fun _ _ => by simp [R1, Request.wc]; omega) d1
      (by simp [R1, hmax]; omega), Request.read_eq (List.take_append_drop 9 input)]
    simp only [R1, R2, Request.wc, List.length_take, hI, hmax, Option.some.injEq, Request.mk.injEq,
      and_true]
    exact ⟨by congr 1; omega, by omega, by congr 1; omega⟩
  have d2 : input.drop (h.method.length + h.uri.length + 3) = 'H' :: 'T' :: 'T' :: 'P' :: '/' ::
      h.major :: '.' :: h.minor :: '\r' :: '\n' :: (headerBlock h.headers ++ ['\r', '\n'] ++ body) :=
    drop_of_eq_append (p := h.method ++ ' ' :: '/' :: (h.uri ++ [' ']))
      (by simp [input, render, uriPart, versionPart]) (by simp; omega)
  set R3 : Request :=
    ⟨input.take (max (min (h.method.length + 66) input.length) (h.method.length + h.uri.length + 14)),
      h.method.length + h.uri.length + 13,
      input.drop (max (min (h.method.length + 66) input.length) (h.method.length + h.uri.length + 14)),
      methodOf h.method, some ⟨h.uri⟩, h.major, h.minor, [], []⟩
  have e3 : parseHttpVersion R2 = some R3 := by
    rw [parseHttpVersion_token (r := R2) hw.major hw.minor (List.take_append_drop _ input)
      (by simp [R2, Request.wc]; omega) (fun hr _ => by simp [R2, Request.wc] at hr ⊢; omega) d2
      (by simp [R2, hmax]; omega), Request.read_eq (List.take_append_drop _ input)]
    simp only [R2, R3, Request.wc, List.length_take, hI, hmax, Option.some.injEq, Request.mk.injEq,
      true_and, and_true]
    exact ⟨by congr 1; omega, by congr 1; omega⟩
  -- everything has arrived: `recv` fills the buffer
  set R4 : Request := ⟨input.take 2048, h.method.length + h.uri.length + 13, input.drop 2048,
    methodOf h.method, some ⟨h.uri⟩, h.major, h.minor, [], []⟩
  have e4 : R3.recv ready = R4 := by
    rw [Request.recv, Request.read_eq (List.take_append_drop _ input)]
    simp only [R3, R4, Request.wc, List.length_take, hI, hmax, Request.mk.injEq, true_and, and_true]
    exact ⟨by congr 1; omega, by congr 1; omega⟩
  -- the header lines and the blank line
  have d3 : input.drop (h.method.length + h.uri.length + 13) =
      headerBlock h.headers ++ '\r' :: '\n' :: body :=
    drop_of_eq_append
      (p := h.method ++ ' ' :: '/' :: (h.uri ++ ' ' :: ['H', 'T', 'T', 'P', '/', h.major, '.', h.minor,
        '\r', '\n'])) (by simp [input, render, uriPart, versionPart]) (by simp; omega)
  set R5 : Request := ⟨input.take 2048, h.render.length, input.drop 2048, methodOf h.method,
    some ⟨h.uri⟩, h.major, h.minor, h.headers.map toHeader, []⟩
  have e5 : parseHeaders stale R4 = some R5 := by
    rw [parseHeaders_block (r := R4) hw.headers (List.take_append_drop _ input) rfl d3
      (by simp [R4, Request.wc]; omega)]
    simp only [R4, R5, Option.some.injEq, Request.mk.injEq, true_and, and_true]
    omega
  -- the body
  simp only [reqParse, Option.bind_eq_bind, e1, Option.some_bind, e2, e3, e4, e5, Option.pure_def,
    Option.some.injEq, parseBody_eq]
  simp only [R5, RequestHead.parsed, Request.wc, Request.mk.injEq, hmax, true_and, and_true]
  split_ifs with hb
  · rfl
  · exact (List.drop_eq_nil_of_le (by omega)).symm

end Whole

/-! ## A request off the grammar that is accepted -/

/-- A request line, a line that is no header line, a header and the blank line. -/
def junkRequest : List Char :=
  "GET /a HTTP/1.1\r\nbad line\r\nRequest-Id: 1\r\n\r\n".toList

/-- `req_parse` accepts `junkRequest`, whatever the buffer held before, and stores
`Request-Id: 1` as its only header; yet no well-formed head starts it. Under `REG_NEWLINE` the
headers pattern matches from the line after `bad line`, and the loop's unanchored search for a
header skips `bad line`. -/
theorem junkLine_accepted (stale : List Char) :
    reqParse stale reqMaxSize (reqCreate junkRequest) =
      some ⟨junkRequest, 44, [], .get, some "a", '1', '1', [⟨"Request-Id", "1"⟩], []⟩ ∧
    ¬ ∃ (h : RequestHead) (body : List Char), h.WellFormed ∧ junkRequest = h.render ++ body := by
  have hrun : reqParse [] reqMaxSize (reqCreate junkRequest) =
      some ⟨junkRequest, 44, [], .get, some "a", '1', '1', [⟨"Request-Id", "1"⟩], []⟩ := by
    decide
  refine ⟨reqParse_stale hrun, ?_⟩
  rintro ⟨h, body, hw, heq⟩
  have hjunk : junkRequest.length = 44 := rfl
  have hle : h.render.length ≤ 44 := by
    have := congrArg List.length heq
    simp only [List.length_append, hjunk] at this
    omega
  have hround := reqParse_render [] hw (by simp [reqMaxSize]; omega) le_rfl body
  rw [← heq, hrun, Option.some.injEq] at hround
  simp only [RequestHead.parsed, Request.mk.injEq] at hround
  obtain ⟨-, -, -, hm, hu, -, -, hh, hb⟩ := hround
  -- the body the parse stored is empty, so the head is the whole request
  have h44 : 44 ≤ h.render.length := by
    rw [List.take_of_length_le (by simp [hjunk, reqMaxSize])] at hb
    exact hjunk ▸ List.drop_eq_nil_iff.1 hb.symm
  -- and a head with that method, URI and header is 34 bytes long
  have hmeth : h.method.length = 3 := by
    unfold methodOf at hm
    split_ifs at hm with hg
    simpa using congrArg List.length hg
  have huri : h.uri = ['a'] := by
    simpa [String.ext_iff] using hu.symm
  obtain ⟨⟨k, v⟩, hkv⟩ : ∃ kv, h.headers = [kv] := by
    rcases hhs : h.headers with _ | ⟨kv, _ | _⟩ <;> simp [hhs] at hh
    exact ⟨kv, rfl⟩
  simp only [hkv, List.map_cons, List.map_nil, List.cons.injEq, toHeader, Header.mk.injEq,
    and_true] at hh
  have hk : k.length = 10 := by simpa using congrArg (fun s : String => s.length) hh.1.symm
  have hv : v.length = 1 := by simpa using congrArg (fun s : String => s.length) hh.2.symm
  have := render_length h
  simp [hmeth, huri, hkv, headerBlock, headerLine_length, hk, hv] at this
  omega

end HttpFileServer.Http

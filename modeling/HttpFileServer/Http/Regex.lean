import Mathlib.Data.List.Basic

/-!
# The request patterns of `seb_http.c`

`seb_http_regex_init` compiles five patterns with `REG_EXTENDED | REG_NEWLINE`, and the parse
functions run them with `regexec`. Each pattern is a matcher anchored at the head of the
text, and `regexec` is the POSIX search for the leftmost position where it matches.

* Under `REG_NEWLINE`, `^` matches at the start of the text and after every `'\n'`;
  `regexec` with `bol` is the search for a pattern that starts with `^`.
* Every repetition in the patterns is a bracket expression followed by a character outside
  it, so the repetition takes the whole run of the class (`run`): a pattern has at most one
  match at a position, and leftmost-longest is leftmost.
* In a POSIX bracket expression the backslash is an ordinary member, so
  `[a-zA-Z0-9\.-]` (`isNameChar`) admits `'\\'`.
* `regexec_append`: the match of `_HEADER_PATTERN` at a position is decided before the first
  newline, so a search that succeeds does not depend on the bytes after the text it ran on.
-/

namespace HttpFileServer.Http

/-- `[a-zA-Z0-9\.-]`: the characters of a URI and of a header key. -/
def isNameChar (c : Char) : Bool :=
  c.isAlphanum || c == '.' || c == '-' || c == '\\'

/-- `[ -~]`: printable ASCII, from the space to the tilde. -/
def isPrintable (c : Char) : Bool :=
  32 ≤ c.toNat && c.toNat ≤ 126

/-- The text a C function sees at a pointer: the bytes before the first NUL. -/
def cstr (s : List Char) : List Char :=
  s.takeWhile (· != '\x00')

/-- A word of `[cls]{1,n}`: one to `n` characters of `cls`. -/
def Token (cls : Char → Bool) (n : Nat) (w : List Char) : Prop :=
  1 ≤ w.length ∧ w.length ≤ n ∧ ∀ c ∈ w, cls c = true

instance (cls : Char → Bool) (n : Nat) (w : List Char) : Decidable (Token cls n w) :=
  inferInstanceAs (Decidable (_ ∧ _ ∧ _))

/-- `[cls]{1,n}` followed by a character outside `cls`: the repetition takes the whole run of
`cls` characters at the head of `s`, which must be one to `n` long. Returns the run and the
text after it. -/
def run (cls : Char → Bool) (n : Nat) (s : List Char) : Option (List Char × List Char) :=
  let w := s.takeWhile cls
  if 1 ≤ w.length ∧ w.length ≤ n then some (w, s.dropWhile cls) else none

/-- A literal: `s` starts with `w`. Returns the text after it. -/
def lit : List Char → List Char → Option (List Char)
  | [], s => some s
  | c :: w, d :: s => if c = d then lit w s else none
  | _ :: _, [] => none

/-- A single character of `cls`. -/
def one (cls : Char → Bool) : List Char → Option (List Char)
  | c :: s => if cls c then some s else none
  | [] => none

/-- `_METHOD_PATTERN` after its `^`: `([a-zA-Z]{1,8}) `. Returns the length of group 1. -/
def methodPattern (s : List Char) : Option Nat := do
  let (m, s) ← run Char.isAlpha 8 s
  let _ ← lit [' '] s
  pure m.length

/-- `_URI_PATTERN` after its `^`: `/([a-zA-Z0-9\.-]{1,63}) `. Returns the length of group 1,
which starts after the slash. -/
def uriPattern (s : List Char) : Option Nat := do
  let s ← lit ['/'] s
  let (u, s) ← run isNameChar 63 s
  let _ ← lit [' '] s
  pure u.length

/-- `_HTTP_VERSION_PATTERN` after its `^`: `HTTP/([0-9])\.([0-9])\r\n`. Its groups are the
characters at offsets 5 and 7. -/
def httpVersionPattern (s : List Char) : Option Unit := do
  let s ← lit ['H', 'T', 'T', 'P', '/'] s
  let s ← one Char.isDigit s
  let s ← lit ['.'] s
  let s ← one Char.isDigit s
  let _ ← lit ['\r', '\n'] s
  pure ()

/-- `_HEADER_PATTERN`: `([a-zA-Z0-9\.-]{1,128}): ([ -~]{1,128})\r\n`. Returns the lengths of
the key (group 1) and of the value (group 2, two characters after the key). -/
def headerPattern (s : List Char) : Option (Nat × Nat) := do
  let (k, s) ← run isNameChar 128 s
  let s ← lit [':', ' '] s
  let (v, s) ← run isPrintable 128 s
  let _ ← lit ['\r', '\n'] s
  pure (k.length, v.length)

/-- The rest of `_HEADERS_PATTERN` from offset `pos` of its match: header lines, then the
blank line. `last` is the span of the last line matched so far, group 1 of the pattern. A
header line starts with a key character, never with the blank line's `'\r'`, so trying the
blank line first loses no match. -/
def headerLines : Nat → List Char → Nat → Option (Nat × Nat) → Option (Nat × Option (Nat × Nat))
  | 0, _, _, _ => none
  | fuel + 1, s, pos, last =>
    match lit ['\r', '\n'] s with
    | some _ => some (pos + 2, last)
    | none =>
      match headerPattern s with
      | some (k, v) =>
        headerLines fuel (s.drop (k + v + 4)) (pos + k + v + 4) (some (pos, pos + k + v + 4))
      | none => none

/-- `_HEADERS_PATTERN` after its `^`: `([a-zA-Z0-9\.-]{1,128}: [ -~]{1,128}\r\n)*\r\n`.
Returns the length of the match and the span of group 1, `none` when it repeats no time
(`regexec` then reports it as `-1`, `-1`). Every line takes at least one character, so the
length of the text bounds the repetitions. -/
def headersPattern (s : List Char) : Option (Nat × Option (Nat × Nat)) :=
  headerLines s.length s 0 none

variable {α : Type}

/-- `regexec` on the text `s`: the leftmost position where `m` matches, with what it found
there. With `bol` (a pattern that starts with `^`) the only positions are the start of `s`
and those after a `'\n'`, as `REG_NEWLINE` makes of `^`. -/
def regexec (bol : Bool) (m : List Char → Option α) (s : List Char) : Option (Nat × α) :=
  go true s
where
  /-- The search from one position on; `atBol` says whether `^` holds there. -/
  go (atBol : Bool) : List Char → Option (Nat × α)
    | [] => if atBol || !bol then (m []).map (0, ·) else none
    | c :: cs =>
      match (if atBol || !bol then m (c :: cs) else none) with
      | some a => some (0, a)
      | none => (go (c == '\n') cs).map fun (p, a) => (p + 1, a)

/-! ## The building blocks -/

section Blocks

variable {cls : Char → Bool} {n : Nat} {s t w r : List Char}

/-- A run that stops inside `s` reads nothing of what follows `s`. -/
theorem while_append : ∀ {s : List Char}, (∃ c ∈ s, cls c = false) →
    (s ++ t).takeWhile cls = s.takeWhile cls ∧ (s ++ t).dropWhile cls = s.dropWhile cls ++ t
  | [], ⟨_, h, _⟩ => absurd h (List.not_mem_nil _)
  | a :: s, ⟨c, hc, hcls⟩ => by
    cases ha : cls a
    · simp [List.takeWhile_cons, List.dropWhile_cons, ha]
    · have hs : ∃ c ∈ s, cls c = false :=
        ⟨c, (List.mem_cons.1 hc).resolve_left (by rintro rfl; simp_all), hcls⟩
      obtain ⟨ih1, ih2⟩ := while_append hs
      simp [List.takeWhile_cons, List.dropWhile_cons, ha, ih1, ih2]

theorem run_eq_some (h : run cls n s = some (w, r)) : Token cls n w ∧ s = w ++ r := by
  simp only [run, Option.ite_none_right_eq_some, Option.some.injEq, Prod.mk.injEq] at h
  obtain ⟨⟨h1, h2⟩, rfl, rfl⟩ := h
  exact ⟨⟨h1, h2, fun c hc => List.mem_takeWhile_imp hc⟩, (List.takeWhile_append_dropWhile _ _).symm⟩

/-- A character outside the class that is in `s` is still there after the run. -/
theorem run_rest_mem {x : Char} (h : run cls n s = some (w, r)) (hx : x ∈ s) (hcls : cls x = false) :
    x ∈ r := by
  obtain ⟨hw, rfl⟩ := run_eq_some h
  exact (List.mem_append.1 hx).resolve_left fun hxw => by simp [hw.2.2 x hxw] at hcls

theorem run_token {c : Char} (hw : Token cls n w) (hc : cls c = false) :
    run cls n (w ++ c :: t) = some (w, c :: t) := by
  have h1 : (w ++ c :: t).takeWhile cls = w := by
    simp [List.takeWhile_append_of_pos hw.2.2, hc]
  have h2 : (w ++ c :: t).dropWhile cls = c :: t := by
    simp [List.dropWhile_append_of_pos hw.2.2, hc]
  simp only [run, h1, h2, hw.1, hw.2.1, and_self, if_true]

theorem run_append (hs : ∃ c ∈ s, cls c = false) :
    run cls n (s ++ t) = (run cls n s).map fun (w, r) => (w, r ++ t) := by
  obtain ⟨h1, h2⟩ := while_append (t := t) hs
  simp only [run, h1, h2]
  split_ifs <;> rfl

theorem lit_eq_some : ∀ {w s r : List Char}, lit w s = some r → s = w ++ r
  | [], _, _, h => (Option.some.inj h).symm ▸ rfl
  | c :: w, d :: s, r, h => by
    simp only [lit] at h
    split_ifs at h with hcd
    rw [hcd, lit_eq_some h]
    rfl

/-- A C string read over more bytes is the same string, or runs on past them. -/
theorem cstr_append : ∀ (s t : List Char), ∃ z, cstr (s ++ t) = cstr s ++ z
  | [], t => ⟨cstr t, rfl⟩
  | c :: s, t => by
    obtain ⟨z, hz⟩ := cstr_append s t
    by_cases hc : c = '\x00'
    · exact ⟨[], by simp [cstr, hc]⟩
    · exact ⟨z, by simpa [cstr, hc] using hz⟩

/-- Bytes with no NUL are read whole. -/
theorem cstr_append_of_not_mem (h : '\x00' ∉ s) : cstr (s ++ t) = s ++ cstr t :=
  List.takeWhile_append_of_pos fun c hc => by
    have : c ≠ '\x00' := fun e => h (e ▸ hc)
    simpa using this

theorem one_eq_some : one cls s = some r ↔ ∃ c, s = c :: r ∧ cls c = true := by
  cases s with
  | nil => simp [one]
  | cons c s => by_cases hc : cls c <;> simp [one, hc, and_assoc]

theorem lit_self : ∀ {w : List Char}, lit w (w ++ t) = some t
  | [] => rfl
  | c :: w => by simp [lit, lit_self]

/-- A character that is in `s` and not in the literal is still there after it. -/
theorem lit_rest_mem {x : Char} (h : lit w s = some r) (hx : x ∈ s) (hw : x ∉ w) : x ∈ r := by
  rw [lit_eq_some h] at hx
  exact (List.mem_append.1 hx).resolve_left hw

/-- A literal with no newline before its last character is decided inside a text that holds
a newline. -/
theorem lit_append : ∀ {w s : List Char}, '\n' ∈ s → '\n' ∉ w.dropLast →
    lit w (s ++ t) = (lit w s).map (· ++ t)
  | [], _, _, _ => rfl
  | _ :: _, [], hs, _ => absurd hs (List.not_mem_nil _)
  | c :: w, d :: s, hs, hw => by
    simp only [List.cons_append, lit]
    split_ifs with hcd
    · cases w with
      | nil => rfl
      | cons e w =>
        have hw' : '\n' ∉ (e :: w).dropLast := fun h => hw (by simp [h])
        refine lit_append ((List.mem_cons.1 hs).resolve_left ?_) hw'
        rintro rfl
        simp [hcd] at hw
    · rfl

end Blocks

/-! ## What each pattern matches -/

section Patterns

variable {s : List Char}

/-- `_METHOD_PATTERN` matches a method of one to eight letters and a space. -/
theorem methodPattern_eq_some_iff {k : Nat} :
    methodPattern s = some k ↔ ∃ m r, s = m ++ ' ' :: r ∧ Token Char.isAlpha 8 m ∧ m.length = k := by
  constructor
  · intro h
    simp only [methodPattern, Option.bind_eq_bind, Option.bind_eq_some, Prod.exists] at h
    obtain ⟨m, r, hr, r', hl, hk⟩ := h
    obtain ⟨hm, rfl⟩ := run_eq_some hr
    exact ⟨m, r', by rw [lit_eq_some hl]; rfl, hm, Option.some.inj hk⟩
  · rintro ⟨m, r, rfl, hm, rfl⟩
    simp [methodPattern, run_token hm (c := ' ') rfl, lit]

/-- `_URI_PATTERN` matches a slash, one to 63 name characters and a space. -/
theorem uriPattern_eq_some_iff {k : Nat} :
    uriPattern s = some k ↔ ∃ u r, s = '/' :: (u ++ ' ' :: r) ∧ Token isNameChar 63 u ∧ u.length = k := by
  constructor
  · intro h
    simp only [uriPattern, Option.bind_eq_bind, Option.bind_eq_some, Prod.exists] at h
    obtain ⟨s', hs, u, r, hr, r', hl, hk⟩ := h
    obtain ⟨hu, rfl⟩ := run_eq_some hr
    exact ⟨u, r', by rw [lit_eq_some hs, lit_eq_some hl]; rfl, hu, Option.some.inj hk⟩
  · rintro ⟨u, r, rfl, hu, rfl⟩
    simp [uriPattern, run_token hu (c := ' ') rfl, lit]

/-- `_HTTP_VERSION_PATTERN` matches `HTTP/`, a digit, a dot, a digit and a CRLF. -/
theorem httpVersionPattern_eq_some_iff :
    httpVersionPattern s = some () ↔ ∃ a b r,
      s = 'H' :: 'T' :: 'T' :: 'P' :: '/' :: a :: '.' :: b :: '\r' :: '\n' :: r ∧
      a.isDigit = true ∧ b.isDigit = true := by
  constructor
  · intro h
    simp only [httpVersionPattern, Option.bind_eq_bind, Option.bind_eq_some, one_eq_some] at h
    obtain ⟨s1, h1, _, ⟨a, rfl, ha⟩, s3, h3, _, ⟨b, rfl, hb⟩, r, h5, -⟩ := h
    rw [lit_eq_some h1, lit_eq_some h3, lit_eq_some h5]
    exact ⟨a, b, r, rfl, ha, hb⟩
  · rintro ⟨a, b, r, rfl, ha, hb⟩
    simp [httpVersionPattern, lit, one, ha, hb]

/-- `_HEADER_PATTERN` matches a key of one to 128 name characters, a colon and a space, a
value of one to 128 printable characters and a CRLF. -/
theorem headerPattern_eq_some_iff {kl vl : Nat} :
    headerPattern s = some (kl, vl) ↔ ∃ k v r,
      s = k ++ ':' :: ' ' :: (v ++ '\r' :: '\n' :: r) ∧ Token isNameChar 128 k ∧
      Token isPrintable 128 v ∧ k.length = kl ∧ v.length = vl := by
  constructor
  · intro h
    simp only [headerPattern, Option.bind_eq_bind, Option.bind_eq_some, Prod.exists] at h
    obtain ⟨k, r1, h1, r2, h2, v, r3, h3, r, h4, hkv⟩ := h
    obtain ⟨hk, rfl⟩ := run_eq_some h1
    obtain ⟨hv, rfl⟩ := run_eq_some h3
    simp only [Option.pure_def, Option.some.injEq, Prod.mk.injEq] at hkv
    rw [lit_eq_some h2, lit_eq_some h4]
    exact ⟨k, v, r, rfl, hk, hv, hkv⟩
  · rintro ⟨k, v, r, rfl, hk, hv, rfl, rfl⟩
    simp [headerPattern, run_token hk (c := ':') rfl, run_token hv (c := '\r') rfl, lit]

/-- The group of `_URI_PATTERN` is a URI of one to 63 name characters. -/
theorem uriPattern_group {k : Nat} (h : uriPattern s = some k) :
    Token isNameChar 63 ((s.drop 1).take k) := by
  obtain ⟨u, r, rfl, hu, rfl⟩ := uriPattern_eq_some_iff.1 h
  simpa using hu

/-- The groups of `_HTTP_VERSION_PATTERN` are digits. -/
theorem httpVersionPattern_groups {d : Char} (h : httpVersionPattern s = some ()) :
    (s.getD 5 d).isDigit = true ∧ (s.getD 7 d).isDigit = true := by
  obtain ⟨a, b, r, rfl, ha, hb⟩ := httpVersionPattern_eq_some_iff.1 h
  exact ⟨ha, hb⟩

/-- The groups of `_HEADER_PATTERN` are a key and a value, inside the text. -/
theorem headerPattern_groups {kl vl : Nat} (h : headerPattern s = some (kl, vl)) :
    Token isNameChar 128 (s.take kl) ∧ Token isPrintable 128 ((s.drop (kl + 2)).take vl) ∧
      kl + vl + 4 ≤ s.length := by
  obtain ⟨k, v, r, rfl, hk, hv, rfl, rfl⟩ := headerPattern_eq_some_iff.1 h
  refine ⟨by simpa using hk, ?_, by simp; omega⟩
  rw [← List.drop_drop, List.drop_left]
  simpa using hv

/-- A match of `_HEADER_PATTERN` ends in a newline. -/
theorem headerPattern_newline {a : Nat × Nat} (h : headerPattern s = some a) : '\n' ∈ s := by
  obtain ⟨k, v, r, rfl, -⟩ := headerPattern_eq_some_iff.1 h
  simp

/-- The match of `_HEADER_PATTERN` at the head of `s` is decided inside `s` when `s` holds a
newline: no character of a match before its final `'\n'` is one. -/
theorem headerPattern_append {t : List Char} (h : '\n' ∈ s) :
    headerPattern (s ++ t) = headerPattern s := by
  simp only [headerPattern, Option.bind_eq_bind, @run_append isNameChar 128 s t ⟨'\n', h, rfl⟩]
  rcases hk : run isNameChar 128 s with _ | ⟨k, r⟩
  · rfl
  have hr := run_rest_mem hk h rfl
  simp only [Option.map_some', Option.some_bind, lit_append (t := t) (w := [':', ' ']) hr (by decide)]
  rcases hl : lit [':', ' '] r with _ | r'
  · rfl
  have hr' := lit_rest_mem hl hr (by decide)
  simp only [Option.map_some', Option.some_bind, @run_append isPrintable 128 r' t ⟨'\n', hr', rfl⟩]
  rcases hv : run isPrintable 128 r' with _ | ⟨v, r''⟩
  · rfl
  have hr'' := run_rest_mem hv hr' rfl
  simp only [Option.map_some', Option.some_bind, lit_append (t := t) (w := ['\r', '\n']) hr'' (by decide)]
  cases lit ['\r', '\n'] r'' <;> rfl

end Patterns

/-! ## The search -/

section Search

variable {bol : Bool} {m : List Char → Option α} {s : List Char} {a : α}

/-- A pattern that matches at the head of the text is found there. -/
theorem regexec_of_head (h : m s = some a) : regexec bol m s = some (0, a) := by
  cases s <;> simp [regexec, regexec.go, h]

/-- What the search finds is a match at the position it reports. -/
theorem regexec_go_sound : ∀ {atBol : Bool} {s : List Char} {p : Nat} {a : α},
    regexec.go bol m atBol s = some (p, a) → m (s.drop p) = some a
  | atBol, [], p, a, h => by
    simp only [regexec.go] at h
    split_ifs at h
    obtain ⟨a', h', he⟩ := Option.map_eq_some'.1 h
    cases he
    exact h'
  | atBol, c :: cs, p, a, h => by
    simp only [regexec.go] at h
    split at h
    · rename_i a' ha
      cases h
      split_ifs at ha
      exact ha
    · obtain ⟨⟨p', a'⟩, h', he⟩ := Option.map_eq_some'.1 h
      simp only [Prod.mk.injEq] at he
      obtain ⟨rfl, rfl⟩ := he
      exact (regexec_go_sound h' :)

theorem regexec_sound {p : Nat} (h : regexec bol m s = some (p, a)) : m (s.drop p) = some a :=
  regexec_go_sound h

/-- For a pattern whose matches hold a newline and are decided before one, a search that
succeeds finds the same match in any longer text. -/
theorem regexec_go_append {t : List Char} (hm : ∀ s t, '\n' ∈ s → m (s ++ t) = m s)
    (hn : ∀ s a, m s = some a → '\n' ∈ s) :
    ∀ {atBol : Bool} {s : List Char} {p : Nat} {a : α},
      regexec.go bol m atBol s = some (p, a) → regexec.go bol m atBol (s ++ t) = some (p, a)
  | _, [], _, _, h => absurd (hn _ _ (regexec_go_sound h)) (by simp)
  | atBol, c :: cs, p, a, h => by
    have hnl : '\n' ∈ c :: cs := List.drop_subset _ _ (hn _ _ (regexec_go_sound h))
    have e : m (c :: (cs ++ t)) = m (c :: cs) := hm (c :: cs) t hnl
    rw [List.cons_append, regexec.go, e]
    rw [regexec.go] at h
    rcases hx : (if atBol || !bol then m (c :: cs) else none) with _ | a'
    · simp only [hx] at h ⊢
      obtain ⟨⟨p', a'⟩, h', he⟩ := Option.map_eq_some'.1 h
      simp only [Prod.mk.injEq] at he
      obtain ⟨rfl, rfl⟩ := he
      rw [regexec_go_append hm hn h']
      rfl
    · simpa only [hx] using h

/-- The search for `_HEADER_PATTERN` that succeeds on a text finds the same match when the
text runs on. -/
theorem regexec_append {t : List Char} {p : Nat} {a : Nat × Nat}
    (h : regexec false headerPattern s = some (p, a)) :
    regexec false headerPattern (s ++ t) = some (p, a) :=
  regexec_go_append (fun _ _ h => headerPattern_append h) (fun _ _ h => headerPattern_newline h) h

end Search

end HttpFileServer.Http

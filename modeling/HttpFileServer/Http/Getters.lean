import HttpFileServer.Http.Request
import Mathlib.Algebra.Group.Int

/-!
# The getters of a parsed request (`seb_http.c`)

The handlers read a parsed request through getters. Two of them compute: the header lookup
and the `Content-Length` value, which `_str_to_long` reads digit by digit into an `ssize_t`.

* `reqGetHeaderValue` is the first header whose key matches, ignoring case.
* `strToLong_digits`: on a string of digits `_str_to_long` computes the number it denotes
  wrapped to 64 bits, so `reqGetContentLength_digits` is exact below `2^63` only.
* `contentLength_wraps`: a `Content-Length` of `2^64 + 5` is read as `5`.
-/

namespace HttpFileServer.Http

/-- `strcasecmp(a, b) == 0`: the same bytes once each is passed through `tolower`. -/
def strcasecmpEq (a b : String) : Bool :=
  a.data.map Char.toLower == b.data.map Char.toLower

/-- `req_get_header_value`: the value of the first header whose key is `key`, ignoring case;
`none` for `NULL`. -/
def reqGetHeaderValue (r : Request) (key : String) : Option String :=
  (r.headers.find? fun h => strcasecmpEq h.key key).map Header.value

/-- Arithmetic on `ssize_t`: 64-bit two's complement, wrapping on overflow. -/
def ssize (x : Int) : Int := x.bmod (2 ^ 64)

/-- The cases of `_str_to_long`'s `switch`: the value of a digit. -/
def digitVal (c : Char) : Option Nat := if c.isDigit then some (c.toNat - '0'.toNat) else none

/-- The loop of `_str_to_long` from the accumulator `res`: `res *= 10`, then add the digit,
or return `-1` at a character that is not one. -/
def strToLongGo : List Char → Int → Int
  | [], res => res
  | c :: cs, res =>
    match digitVal c with
    | some d => strToLongGo cs (ssize (ssize (res * 10) + d))
    | none => -1

/-- `_str_to_long`. -/
def strToLong (s : String) : Int := strToLongGo s.data 0

/-- `req_get_content_length`: `-1` without a `Content-Length` header, `-2` when its value is
not read as a number of at least zero. -/
def reqGetContentLength (r : Request) : Int :=
  match reqGetHeaderValue r "Content-Length" with
  | none => -1
  | some v => if strToLong v < 0 then -2 else strToLong v

/-- The number a string of decimal digits denotes. -/
def decimalValue (s : List Char) : Nat := s.foldl (fun n c => n * 10 + (c.toNat - '0'.toNat)) 0

/-! ## Reading a number -/

/-- The loop of `_str_to_long` over digits only: the decimal value folded into `res`,
wrapped to `ssize_t`. -/
theorem strToLongGo_digits : ∀ {s : List Char} (res : Int), (∀ c ∈ s, c.isDigit = true) →
    strToLongGo s (ssize res) =
      ssize (s.foldl (fun n c => n * 10 + ((c.toNat - '0'.toNat : Nat) : Int)) res)
  | [], _, _ => rfl
  | c :: cs, res, h => by
    have e : ssize (ssize (ssize res * 10) + ((c.toNat - '0'.toNat : Nat) : Int)) =
        ssize (res * 10 + ((c.toNat - '0'.toNat : Nat) : Int)) := by
      simp only [ssize, Int.bmod_add_bmod_congr, Int.bmod_mul_bmod]
    rw [strToLongGo, digitVal, if_pos (h c (List.mem_cons_self _ _))]
    simp only
    rw [e, strToLongGo_digits _ fun x hx => h x (List.mem_cons_of_mem _ hx), List.foldl_cons]

/-- At a character that is no digit the loop returns `-1`, whatever it read before. -/
theorem strToLongGo_not_digit : ∀ {s : List Char} (res : Int), (∃ c ∈ s, c.isDigit = false) →
    strToLongGo s res = -1
  | [], _, ⟨_, hc, _⟩ => absurd hc (List.not_mem_nil _)
  | c :: cs, res, ⟨x, hx, hd⟩ => by
    unfold strToLongGo digitVal
    by_cases hc : c.isDigit
    · rw [if_pos hc]
      refine strToLongGo_not_digit _ ⟨x, ?_, hd⟩
      rcases List.mem_cons.1 hx with rfl | hx
      · simp [hc] at hd
      · exact hx
    · rw [if_neg hc]

theorem foldl_digits_cast (s : List Char) (n : Nat) :
    s.foldl (fun r c => r * 10 + ((c.toNat - '0'.toNat : Nat) : Int)) (n : Int) =
      ((s.foldl (fun n c => n * 10 + (c.toNat - '0'.toNat)) n : Nat) : Int) := by
  induction s generalizing n with
  | nil => rfl
  | cons c cs ih => simp only [List.foldl_cons, ← ih]; push_cast; rfl

/-- On a string of digits `_str_to_long` computes the number it denotes, wrapped to
`ssize_t`. -/
theorem strToLong_digits {v : String} (h : ∀ c ∈ v.data, c.isDigit = true) :
    strToLong v = ssize (decimalValue v.data) := by
  have := strToLongGo_digits (s := v.data) 0 h
  rw [show ssize 0 = 0 from rfl] at this
  rw [strToLong, this]
  exact congrArg ssize (foldl_digits_cast v.data 0)

/-- A `Content-Length` with a character that is no digit is invalid. -/
theorem reqGetContentLength_not_digit {r : Request} {v : String}
    (h : reqGetHeaderValue r "Content-Length" = some v) (hd : ∃ c ∈ v.data, c.isDigit = false) :
    reqGetContentLength r = -2 := by
  simp [reqGetContentLength, h, strToLong, strToLongGo_not_digit 0 hd]

/-! ## A number past `ssize_t` -/

/-- A PUT whose `Content-Length` is `2^64 + 5`. -/
def contentLengthRequest : List Char :=
  "PUT /a HTTP/1.1\r\nRequest-Id: 1\r\nContent-Length: 18446744073709551621\r\n\r\n".toList

/-- `req_parse` accepts `contentLengthRequest`, and `req_get_content_length` reads its
`Content-Length` of `2^64 + 5` as `5`: `res *= 10` wraps. -/
theorem contentLength_wraps (stale : List Char) :
    ∃ r, reqParse stale reqMaxSize (reqCreate contentLengthRequest) = some r ∧
      reqGetHeaderValue r "Content-Length" = some "18446744073709551621" ∧
      reqGetContentLength r = 5 ∧ decimalValue "18446744073709551621".data = 2 ^ 64 + 5 := by
  have hr : reqParse [] reqMaxSize (reqCreate contentLengthRequest) =
      some ⟨contentLengthRequest, 72, [], .put, some "a", '1', '1',
        [⟨"Request-Id", "1"⟩, ⟨"Content-Length", "18446744073709551621"⟩], []⟩ := by
    decide
  have hv : reqGetHeaderValue ⟨contentLengthRequest, 72, [], .put, some "a", '1', '1',
      [⟨"Request-Id", "1"⟩, ⟨"Content-Length", "18446744073709551621"⟩], []⟩ "Content-Length" =
      some "18446744073709551621" := by
    decide
  refine ⟨_, reqParse_stale hr, hv, ?_, by decide⟩
  simp only [reqGetContentLength, hv, strToLong_digits (v := "18446744073709551621") (by decide)]
  decide

end HttpFileServer.Http

/- digest: One header-block parser and two start-line parsers over a resumable scan. -/

import Ramjet.Base.Octets

set_option autoImplicit false
set_option relaxedAutoImplicit false

namespace Ramjet.Engine.Codec.MessageHead

open Ramjet.Base.Octets

inductive Version where
  | http10
  | http11
  deriving DecidableEq, Repr

def Version.asBytes : Version → Bytes
  | .http10 => ascii "HTTP/1.0"
  | .http11 => ascii "HTTP/1.1"

/-- Why a message could not be read. -/
inductive CodecError where
  | malformed (why : String)
  | tooLarge
  | tooManyHeaders
  | unsupported (what : String)
  deriving DecidableEq, Repr

def CodecError.status : CodecError → Nat
  | .malformed _ => 400
  | .tooLarge => 413
  | .tooManyHeaders => 431
  | .unsupported _ => 501

def CodecError.detail : CodecError → String
  | .malformed why => why
  | .tooLarge => "the head exceeded the size limit"
  | .tooManyHeaders => "too many header fields"
  | .unsupported what => what

/-- The bounds a head is read under; `none` lifts one. -/
structure Limits where
  maxHead : Option Nat
  maxHeaders : Option Nat
  deriving DecidableEq, Repr

def MAX_HEAD : Nat := 16 * 1024

def MAX_HEADERS : Nat := 64

def Limits.standard : Limits := ⟨some MAX_HEAD, some MAX_HEADERS⟩

def Limits.unlimited : Limits := ⟨none, none⟩

def Limits.headExceeds (lim : Limits) (n : Nat) : Bool := lim.maxHead.any fun m => m < n

def Limits.headersFull (lim : Limits) (n : Nat) : Bool := lim.maxHeaders == some n

structure Span where
  start : Nat
  len : Nat
  deriving DecidableEq, Repr

def Span.EMPTY : Span := ⟨0, 0⟩

def Span.bytes (s : Span) (buf : Bytes) : Bytes := (buf.drop s.start).take s.len

def Span.isEmpty (s : Span) : Bool := s.len == 0

structure HeaderSpan where
  name : Span
  value : Span
  deriving DecidableEq, Repr

inductive StartLine where
  | request (method target : Span) (version : Version)
  | status (code : Nat) (reason : Span) (version : Version)
  deriving DecidableEq, Repr

/-- A parsed message head and the scan cursor that resumes a partial read. -/
structure Head where
  start : StartLine := .request Span.EMPTY Span.EMPTY .http11
  headers : List HeaderSpan := []
  len : Nat := 0
  scanned : Nat := 0
  deriving DecidableEq, Repr

def Head.reset (h : Head) : Head := { h with headers := [], len := 0, scanned := 0 }

def Head.version (h : Head) : Version :=
  match h.start with
  | .request _ _ version => version
  | .status _ _ version => version

def Head.status (h : Head) : Option Nat :=
  match h.start with
  | .status code _ _ => some code
  | .request _ _ _ => none

def Head.method (h : Head) (buf : Bytes) : Option Bytes :=
  match h.start with
  | .request method _ _ => some (method.bytes buf)
  | .status _ _ _ => none

def Head.target (h : Head) (buf : Bytes) : Option Bytes :=
  match h.start with
  | .request _ target _ => some (target.bytes buf)
  | .status _ _ _ => none

def Head.iter (h : Head) (buf : Bytes) : List (Bytes × Bytes) :=
  h.headers.map fun f => (f.name.bytes buf, f.value.bytes buf)

def named (fields : List (Bytes × Bytes)) (name : Bytes) : List (Bytes × Bytes) :=
  fields.filter fun f => eqIgnoreAsciiCase f.1 name

def Head.headersNamed (h : Head) (buf name : Bytes) : List (Bytes × Bytes) :=
  named (h.iter buf) name

def Head.header (h : Head) (buf name : Bytes) : Option Bytes :=
  ((h.iter buf).find? fun f => eqIgnoreAsciiCase f.1 name).map (·.2)

/-- The HTTP token character set. -/
def isTchar (b : UInt8) : Bool :=
  isAsciiAlphanumeric b ||
    (ascii "!#$%&'*+-.^_|~").contains b || b == 96

def isControl (b : UInt8) : Bool := (b < 0x20 && b != 9) || b == 0x7f

/-- Offset just past the blank line, resuming where the last call left off. -/
def findHeadEnd (lim : Limits) (buf : Bytes) (out : Head) :
    Except CodecError (Option Nat) × Head :=
  -- The terminator may straddle the boundary of the last scan, hence the three bytes.
  let scanFrom := min (out.scanned - 3) buf.length
  match (findSub crlfcrlf (buf.drop scanFrom)).map (fun i => scanFrom + i + 4) with
  | some e => if lim.headExceeds e then (.error .tooLarge, out) else (.ok (some e), out)
  | none =>
      let out := { out with scanned := buf.length }
      if lim.headExceeds buf.length then (.error .tooLarge, out) else (.ok none, out)

/-- The bytes up to the next terminator, and the offset just after it. -/
def splitLine (block : Bytes) (cursor : Nat) : Bytes × Nat :=
  let rest := block.drop cursor
  match findSub crlf rest with
  | some i => (rest.take i, cursor + i + 2)
  | none => (rest, block.length)

def parseVersion (token : Bytes) : Except CodecError Version :=
  if token = ascii "HTTP/1.1" then .ok .http11
  else if token = ascii "HTTP/1.0" then .ok .http10
  else if token = [] then .error (.malformed "version missing")
  else .error (.unsupported "http version")

/-- A request line that starts the buffer: method, target and version. -/
def parseRequestLine (line : Bytes) : Except CodecError StartLine :=
  match splitn (32 : UInt8) 3 line with
  | [method, target, version] =>
      if method.isEmpty || !method.all isTchar then .error (.malformed "malformed method")
      else if target.isEmpty then .error (.malformed "request target missing")
      else if target.any fun b => b ≤ 0x20 || b == 0x7f then
        .error (.malformed "malformed request target")
      else do
        let version ← parseVersion version
        return .request ⟨0, method.length⟩ ⟨method.length + 1, target.length⟩ version
  | _ => .error (.malformed "request line has too few parts")

def versionLen (line : Bytes) : Nat := (line.takeWhile (· != 32)).length

def statusCode : Bytes → Option Nat
  | [a, b, c] =>
      if isAsciiDigit a && isAsciiDigit b && isAsciiDigit c then
        some ((a - 48).toNat * 100 + (b - 48).toNat * 10 + (c - 48).toNat)
      else none
  | _ => none

/-- A status line that starts the buffer; the reason phrase may be missing. -/
def parseStatusLine (line : Bytes) : Except CodecError StartLine :=
  match splitn (32 : UInt8) 3 line with
  | version :: code :: tail => do
      let reason := tail.headD []
      let version ← parseVersion version
      match statusCode code with
      | none => .error (.malformed "status code is not three digits")
      | some code =>
          return .status code
            (if reason.isEmpty then Span.EMPTY
              else ⟨versionLen line + 1 + 3 + 1, reason.length⟩) version
  | _ => .error (.malformed "status line has no code")

def parseFieldLine (base : Nat) (line : Bytes) : Except CodecError HeaderSpan :=
  if line.head? = some 32 ∨ line.head? = some 9 then
    .error (.malformed "obsolete line folding")
  else
    match splitOnce (58 : UInt8) line with
    | none => .error (.malformed "header line has no colon")
    | some (name, rawValue) =>
        if name.isEmpty || !name.all isTchar then .error (.malformed "malformed header name")
        else if rawValue.any isControl then
          .error (.malformed "header value contains a control byte")
        else
          let trimmed := trimOws rawValue
          let valueStart := base + name.length + 1 + (rawValue.takeWhile isOws).length
          .ok ⟨⟨base, name.length⟩, ⟨valueStart, trimmed.length⟩⟩

theorem lt_splitLine_snd {block : Bytes} {cursor : Nat} (h : cursor < block.length) :
    cursor < (splitLine block cursor).2 := by
  simp only [splitLine]
  split <;> simp only <;> omega

/-- The field block from `cursor` on, appended to the spans already read. -/
def parseFields (lim : Limits) (block : Bytes) (cursor : Nat) (headers : List HeaderSpan) :
    Except CodecError Unit × List HeaderSpan :=
  if cursor < block.length then
    let line := (splitLine block cursor).1
    let next := (splitLine block cursor).2
    if line.isEmpty then parseFields lim block next headers
    else
      match parseFieldLine cursor line with
      | .error e => (.error e, headers)
      | .ok span =>
          if lim.headersFull headers.length then (.error .tooManyHeaders, headers)
          else parseFields lim block next (headers ++ [span])
  else (.ok (), headers)
termination_by block.length - cursor
decreasing_by
  all_goals
    have hlt := lt_splitLine_snd ‹cursor < block.length›
    omega

/-- Two `Host` fields are two answers to which site a request is for. -/
def rejectDuplicateHost (buf : Bytes) (out : Head) : Except CodecError Unit :=
  if 1 < (out.headersNamed buf (ascii "host")).length then
    .error (.malformed "more than one Host header")
  else .ok ()

/-- The head behind a found terminator, read with one start-line parser and one check. -/
def parseBlock (lim : Limits) (startLine : Bytes → Except CodecError StartLine)
    (check : Head → Except CodecError Unit) (buf : Bytes) (e : Nat) (out : Head) :
    Except CodecError Bool × Head :=
  let block := buf.take (e - 4)
  let (line, rest) := splitLine block 0
  match startLine line with
  | .error err => (.error err, out)
  | .ok start =>
      let out := { out with start := start }
      match parseFields lim block rest [] with
      | (.error err, headers) => (.error err, { out with headers := headers })
      | (.ok (), headers) =>
          let out := { out with headers := headers }
          match check out with
          | .error err => (.error err, out)
          | .ok () => (.ok true, { out with len := e, scanned := 0 })

/-- Parse a request head out of the front of `buf`; `false` asks for more bytes. -/
def parseRequestHead (lim : Limits) (buf : Bytes) (out : Head) : Except CodecError Bool × Head :=
  match findHeadEnd lim buf out with
  | (.error err, out) => (.error err, out)
  | (.ok none, out) => (.ok false, out)
  | (.ok (some e), out) =>
      parseBlock lim parseRequestLine (rejectDuplicateHost buf) buf e out

/-- Parse a response head out of the front of `buf`; `false` asks for more bytes. -/
def parseResponseHead (lim : Limits) (buf : Bytes) (out : Head) : Except CodecError Bool × Head :=
  match findHeadEnd lim buf out with
  | (.error err, out) => (.error err, out)
  | (.ok none, out) => (.ok false, out)
  | (.ok (some e), out) => parseBlock lim parseStatusLine (fun _ => .ok ()) buf e out

end Ramjet.Engine.Codec.MessageHead

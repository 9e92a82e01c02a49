import SmsTracking.Json.Number
import SmsTracking.Text.Hex
import SmsTracking.Text.Utf8

/-!
Tokens of a JSON text, found by a machine that takes one symbol at a time. A text can be read in
two ways: strictly, for a value that is wanted, or loosely, for one that is passed over. Loose
reading checks only how a text is put together, so a token tells both what strict reading makes of
it and whether it hangs together at all. After a token that cannot be finished nothing is read.
-/

namespace SmsTracking.Json

open Text

/-- How a text fails to be JSON: it ends too early, or something stands where it must not. -/
inductive Break where
  | eof
  | syntaxError
deriving DecidableEq, Repr

inductive Token where
  | openArray
  | closeArray
  | openObject
  | closeObject
  | comma
  | colon
  | null
  | bool (b : Bool)
  /-- `none` is a number beyond every float. -/
  | number (n : Option Number)
  /-- `none` is a string with a lone surrogate or with bytes that are no text. -/
  | string (s : Option String)
  | brokenString (strict loose : Break)
  | broken (strict loose : Break)
deriving DecidableEq

/-- What strict reading found wrong in a string that goes on. -/
inductive Flaw where
  | none
  | badByte
  | loneSurrogate
deriving DecidableEq

/-- A surrogate that waits for its partner in vain is a flaw. -/
def Flaw.worsen (flaw : Flaw) (surrogate : Option Nat) : Flaw :=
  if surrogate.isSome then .loneSurrogate else flaw

inductive NumberPhase where
  | minus
  | zero
  | whole
  | point
  | fraction
  | mark
  | sign
  | exponent
deriving DecidableEq

/-- The phase after one more character, if it belongs to the number. -/
def NumberPhase.next? (p : NumberPhase) (c : Char) : Option NumberPhase :=
  match p with
  | .minus => if c == '0' then some .zero else if c.isDigit then some .whole else none
  | .zero => if c == '.' then some .point else if c == 'e' || c == 'E' then some .mark else none
  | .whole =>
    if c.isDigit then some .whole
    else if c == '.' then some .point
    else if c == 'e' || c == 'E' then some .mark
    else none
  | .point => if c.isDigit then some .fraction else none
  | .fraction =>
    if c.isDigit then some .fraction else if c == 'e' || c == 'E' then some .mark else none
  | .mark =>
    if c.isDigit then some .exponent else if c == '+' || c == '-' then some .sign else none
  | .sign => if c.isDigit then some .exponent else none
  | .exponent => if c.isDigit then some .exponent else none

def NumberPhase.isComplete : NumberPhase → Bool
  | .zero | .whole | .fraction | .exponent => true
  | .minus | .point | .mark | .sign => false

/-- The part of a token that has been read. Characters are kept last first. -/
inductive Scan where
  | between
  | word (rest : List Char) (token : Token)
  | number (phase : NumberPhase) (text : List Char)
  | string (text : List Char) (flaw : Flaw) (surrogate : Option Nat)
  | escape (text : List Char) (flaw : Flaw) (surrogate : Option Nat)
  | unicode (text : List Char) (flaw : Flaw) (surrogate : Option Nat) (count code : Nat)
  /-- Four bytes must follow `\u` before it can be blamed for not being hexadecimal. -/
  | badUnicode (flaw : Flaw) (seen : Nat)
  | stopped

namespace Scan

def isSpace (c : Char) : Bool := c == ' ' || c == '\n' || c == '\t' || c == '\r'

def isControl (c : Char) : Bool := c.toNat < 0x20

def cut : Scan × List Token := (stopped, [.broken .syntaxError .syntaxError])

def cutString : Scan × List Token := (stopped, [.brokenString .syntaxError .syntaxError])

def begin (c : Char) : Scan × List Token :=
  match c with
  | '[' => (between, [.openArray])
  | ']' => (between, [.closeArray])
  | '\x7b' => (between, [.openObject])
  | '\x7d' => (between, [.closeObject])
  | ',' => (between, [.comma])
  | ':' => (between, [.colon])
  | 'n' => (word ['u', 'l', 'l'] .null, [])
  | 't' => (word ['r', 'u', 'e'] (.bool true), [])
  | 'f' => (word ['a', 'l', 's', 'e'] (.bool false), [])
  | '"' => (string [] .none none, [])
  | '-' => (number .minus ['-'], [])
  | '0' => (number .zero ['0'], [])
  | c =>
    if isSpace c then (between, [])
    else if c.isDigit then (number .whole [c], [])
    else cut

def numberToken (text : List Char) : Token := .number (Number.ofChars? text.reverse)

def stringToken (text : List Char) (flaw : Flaw) : Token :=
  .string (if flaw = .none then some (String.ofList text.reverse) else none)

def escaped? (c : Char) : Option Char :=
  match c with
  | '"' => some '"'
  | '\\' => some '\\'
  | '/' => some '/'
  | 'b' => some '\x08'
  | 'f' => some '\x0c'
  | 'n' => some '\n'
  | 'r' => some '\r'
  | 't' => some '\t'
  | _ => none

/-- A code unit after `\u`: a character, or half of a surrogate pair. -/
def addUnit (text : List Char) (flaw : Flaw) (surrogate : Option Nat) (code : Nat) : Scan :=
  match surrogate with
  | some high =>
    if 0xDC00 ≤ code ∧ code ≤ 0xDFFF then
      string (Char.ofNat ((high - 0xD800) * 0x400 + (code - 0xDC00) + 0x10000) :: text) flaw none
    else string text .loneSurrogate none
  | none =>
    if 0xD800 ≤ code ∧ code ≤ 0xDBFF then string text flaw (some code)
    else if 0xDC00 ≤ code ∧ code ≤ 0xDFFF then string text .loneSurrogate none
    else string (Char.ofNat code :: text) flaw none

def step (s : Scan) (x : Symbol) : Scan × List Token :=
  match s, x with
  | between, some c => begin c
  | between, none => cut
  | word [] token, some c => let (next, ts) := begin c; (next, token :: ts)
  | word [] token, none => (stopped, [token, .broken .syntaxError .syntaxError])
  | word (w :: rest) token, x => if x = some w then (word rest token, []) else cut
  | number phase text, some c =>
    match phase.next? c with
    | some next => (number next (c :: text), [])
    | none =>
      if !phase.isComplete || phase = .zero && c.isDigit then cut
      else let (next, ts) := begin c; (next, numberToken text :: ts)
  | number phase text, none =>
    if phase.isComplete then (stopped, [numberToken text, .broken .syntaxError .syntaxError]) else cut
  | string text flaw surrogate, some c =>
    if c = '"' then (between, [stringToken text (flaw.worsen surrogate)])
    else if c = '\\' then (escape text flaw surrogate, [])
    else if isControl c then cutString
    else (string (c :: text) (flaw.worsen surrogate) none, [])
  | string text flaw surrogate, none =>
    let flaw := flaw.worsen surrogate
    (string text (if flaw = .none then .badByte else flaw) none, [])
  | escape text flaw surrogate, some c =>
    if c = 'u' then (unicode text flaw surrogate 0 0, [])
    else match escaped? c with
      | some d => (string (d :: text) (flaw.worsen surrogate) none, [])
      | none => cutString
  | escape _ _ _, none => cutString
  | unicode text flaw surrogate count code, x =>
    match x.bind hexValue? with
    | some d =>
      if count < 3 then (unicode text flaw surrogate (count + 1) (code * 16 + d), [])
      else (addUnit text flaw surrogate (code * 16 + d), [])
    | none => if count + x.size < 4 then (badUnicode flaw (count + x.size), []) else cutString
  | badUnicode flaw seen, x =>
    if seen + x.size < 4 then (badUnicode flaw (seen + x.size), []) else cutString
  | stopped, _ => (stopped, [])

def endString (flaw : Flaw) : List Token :=
  [.brokenString (if flaw = .loneSurrogate then .syntaxError else .eof) .eof]

def finish (s : Scan) : List Token :=
  match s with
  | between | stopped => []
  | word [] token => [token]
  | word _ _ => [.broken .eof .eof]
  | number phase text =>
    if phase.isComplete then [numberToken text] else [.broken .eof .syntaxError]
  | string _ flaw _ | escape _ flaw _ | unicode _ flaw _ _ _ | badUnicode flaw _ => endString flaw

end Scan

end SmsTracking.Json

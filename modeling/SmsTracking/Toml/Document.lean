import SmsTracking.Toml.Scalar

/-!
TOML documents. A document is read line by line: a line sets a key, opens a table with its header,
or is blank. Strings over several lines, arrays and inline tables may run on past the end of a line.
-/

namespace SmsTracking.Toml

open Text

/-- Arrays, inline tables and dotted keys may not be nested deeper. -/
def maxDepth : Nat := 79

def isWs (c : Char) : Bool := c = ' ' || c = '\t'

/-- Characters that may stand in a comment or a literal string. -/
def isPrintable (c : Char) : Bool := c = '\t' || (0x20 ≤ c.toNat && c.toNat ≠ 0x7F)

def skipWs (cs : List Char) : List Char := cs.dropWhile isWs

def newline? (cs : List Char) : Option (List Char) :=
  match cs with
  | '\n' :: rest => some rest
  | '\r' :: '\n' :: rest => some rest
  | _ => none

def skipComment (cs : List Char) : List Char :=
  match cs with
  | '#' :: rest => rest.dropWhile isPrintable
  | cs => cs

/-- What follows the line, if nothing but a comment is left of it. -/
def endLine? (cs : List Char) : Option (List Char) :=
  match skipComment (skipWs cs) with
  | [] => some []
  | cs => newline? cs

/-- Skips blanks, comments and line ends. -/
def skipLines : Nat → List Char → List Char
  | 0, cs => cs
  | fuel + 1, cs =>
    match newline? (skipComment (skipWs cs)) with
    | some rest => skipLines fuel rest
    | none => skipWs cs

/-! Strings -/

/-- A character of `count` hexadecimal digits. -/
def codePoint? (count : Nat) (cs : List Char) : Option (Char × List Char) :=
  let ds := cs.take count
  let n := baseValue 16 ds
  if ds.length = count ∧ (ds.all fun c => (hexValue? c).isSome) ∧ n.isValidChar then
    some (Char.ofNat n, cs.drop count)
  else none

/-- What follows a backslash in a string. -/
def escape? (cs : List Char) : Option (Char × List Char) :=
  match cs with
  | 'b' :: rest => some ('\x08', rest)
  | 't' :: rest => some ('\t', rest)
  | 'n' :: rest => some ('\n', rest)
  | 'f' :: rest => some ('\x0c', rest)
  | 'r' :: rest => some ('\r', rest)
  | '"' :: rest => some ('"', rest)
  | '\\' :: rest => some ('\\', rest)
  | 'u' :: rest => codePoint? 4 rest
  | 'U' :: rest => codePoint? 8 rest
  | _ => none

/-- The rest of a string on one line, with or without escapes. -/
def string? (escapes : Bool) (quote : Char) (text : List Char) : Nat → List Char →
    Option (String × List Char)
  | 0, _ => none
  | _ + 1, [] => none
  | fuel + 1, c :: cs =>
    if c = quote then some (String.ofList text.reverse, cs)
    else if c = '\\' && escapes then do
      let (c, cs) ← escape? cs
      string? escapes quote (c :: text) fuel cs
    else if isPrintable c then string? escapes quote (c :: text) fuel cs
    else none

/-- Skips the line ends and blanks after a backslash at the end of a line. -/
def skipFold : Nat → List Char → List Char
  | 0, cs => cs
  | fuel + 1, cs =>
    match newline? (skipWs cs) with
    | some rest => skipFold fuel rest
    | none => skipWs cs

/-- The rest of a string over several lines. One or two quotes may stand before the closing ones. -/
def longString? (escapes : Bool) (quote : Char) (text : List Char) : Nat → List Char →
    Option (String × List Char)
  | 0, _ => none
  | _ + 1, [] => none
  | fuel + 1, c :: cs =>
    if c = quote then
      let quotes := ((c :: cs).take 5).takeWhile (· = quote)
      let rest := (c :: cs).drop quotes.length
      if quotes.length < 3 then longString? escapes quote (quotes ++ text) fuel rest
      else some (String.ofList (quotes.drop 3 ++ text).reverse, rest)
    else if c = '\\' && escapes then
      match newline? (skipWs cs) with
      | some rest => longString? escapes quote text fuel (skipFold rest.length rest)
      | none => do
        let (c, cs) ← escape? cs
        longString? escapes quote (c :: text) fuel cs
    else match newline? (c :: cs) with
      | some rest => longString? escapes quote ('\n' :: text) fuel rest
      | none => if isPrintable c then longString? escapes quote (c :: text) fuel cs else none

def quotedString? (cs : List Char) : Option (String × List Char) :=
  match cs with
  | '"' :: rest => string? true '"' [] (rest.length + 1) rest
  | '\'' :: rest => string? false '\'' [] (rest.length + 1) rest
  | _ => none

def anyString? (cs : List Char) : Option (String × List Char) :=
  let long (escapes : Bool) (quote : Char) (rest : List Char) : Option (String × List Char) :=
    longString? escapes quote [] (rest.length + 1) ((newline? rest).getD rest)
  match cs with
  | '"' :: '"' :: '"' :: rest => long true '"' rest
  | '\'' :: '\'' :: '\'' :: rest => long false '\'' rest
  | cs => quotedString? cs

/-! Keys -/

def isBareChar (c : Char) : Bool := c.isAlphanum || c = '_' || c = '-'

def simpleKey? (cs : List Char) : Option (String × List Char) :=
  match cs.takeWhile isBareChar with
  | [] => quotedString? cs
  | run => some (String.ofList run, cs.drop run.length)

/-- A dotted key, as the path to its table and its last part. -/
def key? : Nat → List Char → Option ((List String × String) × List Char)
  | 0, _ => none
  | fuel + 1, cs => do
    let (first, cs) ← simpleKey? (skipWs cs)
    match skipWs cs with
    | '.' :: cs => do
      let ((path, last), cs) ← key? fuel cs
      some ((first :: path, last), cs)
    | cs => some (([], first), cs)

/-! Values -/

mutual

/-- A value with at most `depth` brackets inside each other. -/
def value? : Nat → Nat → List Char → Option (Value × List Char)
  | 0, _, _ => none
  | fuel + 1, depth, cs =>
    match cs with
    | '[' :: cs =>
      if depth = 0 then none
      else do
        let (items, cs) ← items? fuel (depth - 1) (skipLines cs.length cs)
        some (.array items, cs)
    | '\x7b' :: cs =>
      if depth = 0 then none
      else do
        let (t, cs) ← members? fuel (depth - 1) .empty true (skipWs cs)
        some (t.toValue, cs)
    | '"' :: _ | '\'' :: _ => do
      let (s, cs) ← anyString? cs
      some (.string s, cs)
    | cs => takeScalar? cs

def items? : Nat → Nat → List Char → Option (List Value × List Char)
  | 0, _, _ => none
  | fuel + 1, depth, cs =>
    match cs with
    | ']' :: cs => some ([], cs)
    | cs => do
      let (item, cs) ← value? fuel depth cs
      match skipLines cs.length cs with
      | ',' :: cs => do
        let (items, cs) ← items? fuel depth (skipLines cs.length cs)
        some (item :: items, cs)
      | ']' :: cs => some ([item], cs)
      | _ => none

def members? : Nat → Nat → Table → Bool → List Char → Option (Table × List Char)
  | 0, _, _, _, _ => none
  | fuel + 1, depth, t, first, cs =>
    match cs, first with
    | '\x7d' :: cs, true => some (t, cs)
    | cs, _ => do
      let ((path, key), cs) ← key? maxDepth cs
      match cs with
      | '=' :: cs => do
        let (v, cs) ← value? fuel depth (skipWs cs)
        let t ← t.put? path key v
        match skipWs cs with
        | ',' :: cs => members? fuel depth t false (skipWs cs)
        | '\x7d' :: cs => some (t, cs)
        | _ => none
      | _ => none

end

/-! Documents -/

/-- A document as far as it has been read: its tables, and the path of the header that is open. -/
structure Progress where
  root : Table
  header : List String

def header? (close : List Char) (cs : List Char) : Option ((List String × String) × List Char) := do
  let (key, cs) ← key? maxDepth cs
  if close.isPrefixOf cs then some (key, cs.drop close.length) else none

def line? (p : Progress) (cs : List Char) : Option (Progress × List Char) :=
  match skipWs cs with
  | '[' :: '[' :: cs => do
    let ((path, key), cs) ← header? [']', ']'] cs
    let root ← p.root.append? path key
    let cs ← endLine? cs
    some (⟨root, path ++ [key]⟩, cs)
  | '[' :: cs => do
    let ((path, key), cs) ← header? [']'] cs
    let root ← p.root.define? path key
    let cs ← endLine? cs
    some (⟨root, path ++ [key]⟩, cs)
  | cs =>
    match endLine? cs with
    | some cs => some (p, cs)
    | none => do
      let ((path, key), cs) ← key? maxDepth cs
      match cs with
      | '=' :: cs => do
        let (v, cs) ← value? (2 * cs.length + 1) maxDepth (skipWs cs)
        let root ← p.root.change? false (·.put? path key v) p.header
        let cs ← endLine? cs
        some (⟨root, p.header⟩, cs)
      | _ => none

def lines? : Nat → Progress → List Char → Option Table
  | _, p, [] => some p.root
  | 0, _, _ => none
  | fuel + 1, p, cs => do
    let (p, cs) ← line? p cs
    lines? fuel p cs

/-- The tables of a document. A byte order mark may stand in front. -/
def parse? (cs : List Char) : Option Table :=
  let cs := match cs with
    | '\uFEFF' :: rest => rest
    | cs => cs
  lines? cs.length ⟨.empty, []⟩ cs

def ofString? (s : String) : Option Value := (parse? s.toList).map Table.toValue

end SmsTracking.Toml

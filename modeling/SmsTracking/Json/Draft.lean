import SmsTracking.Json.Token
import SmsTracking.Json.Value

/-!
A JSON text put together from its tokens, as far as it goes. A draft keeps what a value has lost:
the order of members, repeated keys, and the place where a text breaks off. What follows a break is
not part of the draft. A draft of a whole value can be passed over (`skip`) even if some number or
string in it could not be read strictly.
-/

namespace SmsTracking.Json

/-- What a message calls the thing it found. -/
inductive Found where
  | null
  | bool (b : Bool)
  | number (n : Number)
  | string (s : String)
  | array
  | object
deriving DecidableEq

/-- How an object ends: at its brace, after a member that is not followed by a comma or a brace, or
where a key should stand. In the last case the draft tells what strict and loose reading make of
the key, and what stands there if it is taken for a value. -/
inductive ObjectEnd where
  | closed
  | open (reason : Break)
  | noKey (strict loose : Break) (found : Except Break Found)

inductive Draft where
  | null
  | bool (b : Bool)
  | number (n : Option Number)
  | string (s : Option String)
  /-- `none` is an array that ends at its bracket. -/
  | array (items : List Draft) (stop : Option Break)
  | object (members : List (Option String × Draft)) (finish : ObjectEnd)
  /-- Nothing that could start a value. -/
  | absent (reason : Break)
  | cutString (strict loose : Break)
  /-- A number or word that is not finished. -/
  | cutScalar (strict loose : Break)
deriving Inhabited

namespace Draft

/-! Passing over a draft -/

mutual

def skip : Draft → Except Break Unit
  | .array items stop => do
    skipItems items
    match stop with
    | none => pure ()
    | some b => throw b
  | .object members finish => do
    skipMembers members
    match finish with
    | .closed => pure ()
    | .open reason => throw reason
    | .noKey _ loose _ => throw loose
  | .absent reason => throw reason
  | .cutString _ loose | .cutScalar _ loose => throw loose
  | _ => pure ()

def skipItems : List Draft → Except Break Unit
  | [] => pure ()
  | d :: ds => do skip d; skipItems ds

def skipMembers : List (Option String × Draft) → Except Break Unit
  | [] => pure ()
  | (_, d) :: ds => do skip d; skipMembers ds

end

/-- What stands at the start of the draft. An array or object is recognised by its bracket. -/
def found : Draft → Except Break Found
  | .null => pure .null
  | .bool b => pure (.bool b)
  | .number (some n) => pure (.number n)
  | .string (some s) => pure (.string s)
  | .number none | .string none => throw .syntaxError
  | .array _ _ => pure .array
  | .object _ _ => pure .object
  | .absent reason => throw reason
  | .cutString strict _ | .cutScalar strict _ => throw strict

/-! Drafts of values -/

mutual

def ofValue : Value → Draft
  | .null => .null
  | .bool b => .bool b
  | .number n => .number (some n)
  | .string s => .string (some s)
  | .array items => .array (ofItems items) none
  | .object members => .object (ofMembers members) .closed

def ofItems : List Value → List Draft
  | [] => []
  | v :: vs => ofValue v :: ofItems vs

def ofMembers : List (String × Value) → List (Option String × Draft)
  | [] => []
  | (k, v) :: vs => (some k, ofValue v) :: ofMembers vs

end

/-! Nesting: a scalar has depth 0 -/

mutual

def depth : Draft → Nat
  | .array items _ => depthItems items + 1
  | .object members _ => depthMembers members + 1
  | _ => 0

def depthItems : List Draft → Nat
  | [] => 0
  | d :: ds => max (depth d) (depthItems ds)

def depthMembers : List (Option String × Draft) → Nat
  | [] => 0
  | (_, d) :: ds => max (depth d) (depthMembers ds)

end

/-! Strict reading of a whole draft, with a limit on its nesting -/

mutual

def value (limit : Nat) : Draft → Except Break Value
  | .null => pure .null
  | .bool b => pure (.bool b)
  | .number (some n) => pure (.number n)
  | .string (some s) => pure (.string s)
  | .number none | .string none => throw .syntaxError
  | .absent reason => throw reason
  | .cutString strict _ | .cutScalar strict _ => throw strict
  | .array items stop =>
    match limit with
    | 0 => throw .syntaxError
    | limit + 1 => do
      let items ← valueItems limit items
      match stop with
      | none => pure (.array items)
      | some b => throw b
  | .object members finish =>
    match limit with
    | 0 => throw .syntaxError
    | limit + 1 => do
      let members ← valueMembers limit members
      match finish with
      | .closed => pure (.object (Value.sortMembers members))
      | .open reason => throw reason
      | .noKey strict _ _ => throw strict

def valueItems (limit : Nat) : List Draft → Except Break (List Value)
  | [] => pure []
  | d :: ds => do
    let v ← value limit d
    let vs ← valueItems limit ds
    pure (v :: vs)

def valueMembers (limit : Nat) : List (Option String × Draft) → Except Break (List (String × Value))
  | [] => pure []
  | (none, _) :: _ => throw .syntaxError
  | (some k, d) :: ds => do
    let v ← value limit d
    let vs ← valueMembers limit ds
    pure ((k, v) :: vs)

end

end Draft

/-! Putting tokens together -/

/-- An array or object whose inside is being read. Items and members are kept last first. -/
inductive Frame where
  | array (items : List Draft)
  | object (members : List (Option String × Draft)) (name : Option String)

/-- What must come next, inside which frames. -/
inductive Reading where
  | value (frames : List Frame)
  | firstItem (frames : List Frame)
  | key (members : List (Option String × Draft)) (first : Bool) (frames : List Frame)
  | colon (members : List (Option String × Draft)) (name : Option String) (frames : List Frame)
  | filled (draft : Draft) (frames : List Frame)
  /-- The text is broken, or more follows after its value. -/
  | finished (draft : Draft) (excess : Bool)

namespace Reading

def unwind (d : Draft) : List Frame → Draft
  | [] => d
  | .array items :: frames => unwind (.array (d :: items).reverse (some .eof)) frames
  | .object members name :: frames =>
    unwind (.object ((name, d) :: members).reverse (.open .eof)) frames

def breakOff (d : Draft) (frames : List Frame) : Reading := finished (unwind d frames) false

/-- A token where a value must stand. -/
def startValue (t : Token) (frames : List Frame) : Reading :=
  match t with
  | .openArray => firstItem frames
  | .openObject => key [] true frames
  | .null => filled .null frames
  | .bool b => filled (.bool b) frames
  | .number n => filled (.number n) frames
  | .string s => filled (.string s) frames
  | .brokenString strict loose => breakOff (.cutString strict loose) frames
  | .broken strict loose => breakOff (.cutScalar strict loose) frames
  | .closeArray | .closeObject | .comma | .colon => breakOff (.absent .syntaxError) frames

/-- What a token that is no key looks like to a reader that wants a value. -/
def foundAt (t : Token) : Except Break Found :=
  match t with
  | .openArray => pure .array
  | .openObject => pure .object
  | .null => pure .null
  | .bool b => pure (.bool b)
  | .number (some n) => pure (.number n)
  | .string (some s) => pure (.string s)
  | .brokenString strict _ | .broken strict _ => throw strict
  | _ => throw .syntaxError

/-- An array or object that ends where the token stands. -/
def closeArray (items : List Draft) (stop : Option Break) : Draft := .array items.reverse stop

def closeObject (members : List (Option String × Draft)) (finish : ObjectEnd) : Draft :=
  .object members.reverse finish

def step (r : Reading) (t : Token) : Reading :=
  match r with
  | value frames => startValue t frames
  | firstItem frames =>
    if t = .closeArray then filled (closeArray [] none) frames else startValue t (.array [] :: frames)
  | key members first frames =>
    match t with
    | .string s => colon members s frames
    | .brokenString strict loose =>
      breakOff (closeObject members (.noKey strict loose (throw strict))) frames
    | t =>
      if t = .closeObject ∧ first then filled (closeObject members .closed) frames
      else breakOff (closeObject members (.noKey .syntaxError .syntaxError (foundAt t))) frames
  | colon members name frames =>
    if t = .colon then value (.object members name :: frames)
    else breakOff (.absent .syntaxError) (.object members name :: frames)
  | filled d (.array items :: frames) =>
    match t with
    | .comma => value (.array (d :: items) :: frames)
    | .closeArray => filled (closeArray (d :: items) none) frames
    | _ => breakOff (closeArray (d :: items) (some .syntaxError)) frames
  | filled d (.object members name :: frames) =>
    match t with
    | .comma => key ((name, d) :: members) false frames
    | .closeObject => filled (closeObject ((name, d) :: members) .closed) frames
    | _ => breakOff (closeObject ((name, d) :: members) (.open .syntaxError)) frames
  | filled d [] => finished d true
  | finished d excess => finished d excess

/-- The draft of a text that ends here, and whether something follows its value. -/
def finish (r : Reading) : Draft × Bool :=
  match r with
  | value frames => (unwind (.absent .eof) frames, false)
  | firstItem frames => (unwind (closeArray [] (some .eof)) frames, false)
  | key members _ frames =>
    (unwind (closeObject members (.noKey .eof .eof (throw .eof))) frames, false)
  | colon members name frames =>
    (unwind (.absent .eof) (.object members name :: frames), false)
  | filled d (.array items :: frames) => (unwind (closeArray (d :: items) (some .eof)) frames, false)
  | filled d (.object members name :: frames) =>
    (unwind (closeObject ((name, d) :: members) (.open .eof)) frames, false)
  | filled d [] => (d, false)
  | finished d excess => (d, excess)

end Reading

/-- A text on its way to a draft. -/
structure Scanner where
  scan : Scan := .between
  reading : Reading := .value []

namespace Scanner

open Text

def step (s : Scanner) (x : Symbol) : Scanner :=
  let (scan, tokens) := s.scan.step x
  { scan, reading := tokens.foldl Reading.step s.reading }

def run (s : Scanner) (xs : List Symbol) : Scanner := xs.foldl step s

def finish (s : Scanner) : Draft × Bool := (s.scan.finish.foldl Reading.step s.reading).finish

end Scanner

/-- The draft of a text, and whether something follows its value. -/
def Draft.ofSymbols (xs : List Text.Symbol) : Draft × Bool := (({} : Scanner).run xs).finish

end SmsTracking.Json

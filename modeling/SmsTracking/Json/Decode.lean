import SmsTracking.Json.Draft
import SmsTracking.Text.Quoted
import SmsTracking.Timestamp.Text
import SmsTracking.Uuid

/-!
Decoders of drafts. A draft comes from a value, or from a text with a limit on its nesting; errors
are reported in the order in which the draft is visited. A `Record` lists the fields of a structure
in their declared order: an object is visited member by member and may leave out optional fields,
and an array gives the fields by position.
-/

namespace SmsTracking.Json

inductive DataError where
  | wrongType (found : Found) (expected : String)
  | wrongValue (found : Found) (expected : String)
  | wrongLength (length : Nat) (expected : String)
  | unknownVariant (name : String) (expected : List String)
  | missingField (name : String)
  | duplicateField (name : String)
  | unreadableUuid
  | unreadableTimestamp
deriving DecidableEq

/-- Why a text or value does not decode: its data are wrong, or the text is no JSON. -/
inductive Error where
  | data (e : DataError)
  | text (reason : Break)
deriving DecidableEq

def ticked (s : String) : String := "`" ++ s ++ "`"

def Number.unexpected : Number → String
  | .whole n => "integer " ++ ticked (String.ofList (renderInt n.val))
  | .float x => "floating point " ++ ticked (String.ofList x.shortest.render)

def Found.text : Found → String
  | .null => "null"
  | .bool b => "boolean " ++ ticked (if b then "true" else "false")
  | .number n => n.unexpected
  | .string s => "string " ++ Text.quoted s
  | .array => "sequence"
  | .object => "map"

def alternatives (names : List String) : String :=
  match names.map ticked with
  | [a] => a
  | [a, b] => a ++ " or " ++ b
  | names => "one of " ++ String.intercalate ", " names

def DataError.message : DataError → String
  | wrongType found expected => "invalid type: " ++ found.text ++ ", expected " ++ expected
  | wrongValue found expected => "invalid value: " ++ found.text ++ ", expected " ++ expected
  | wrongLength length expected => "invalid length " ++ toString length ++ ", expected " ++ expected
  | unknownVariant name expected =>
    "unknown variant " ++ ticked name ++ ", expected " ++ alternatives expected
  | missingField name => "missing field " ++ ticked name
  | duplicateField name => "duplicate field " ++ ticked name
  | unreadableUuid => "UUID parsing failed"
  | unreadableTimestamp => "invalid datetime"

def Error.message : Error → String
  | data e => e.message
  | text .eof => "unexpected end of text"
  | text .syntaxError => "malformed text"

/-- Where a draft comes from. A text allows so many further levels of nesting. -/
inductive Source where
  | value
  | text (limit : Nat)
deriving DecidableEq

/-- Levels of nesting that a text may have. -/
def maxDepth : Nat := 127

def Source.enter : Source → Except Error Source
  | value => pure value
  | text 0 => throw (.text .syntaxError)
  | text (limit + 1) => pure (text limit)

abbrev Decoder (α : Type) := Source → Draft → Except Error α

def broken {α : Type} (reason : Break) : Except Error α := throw (.text reason)

def lift {α : Type} : Except Break α → Except Error α
  | .ok a => .ok a
  | .error reason => broken reason

def mismatch {α : Type} (d : Draft) (expected : String) : Except Error α := do
  let found ← lift d.found
  throw (.data (.wrongType found expected))

namespace Decoder

def stringOf (expected : String) : Decoder String := fun _ d =>
  match d with
  | .string (some s) => pure s
  | d => mismatch d expected

def string : Decoder String := stringOf "a string"

def bool : Decoder Bool := fun _ d =>
  match d with
  | .bool b => pure b
  | d => mismatch d "a boolean"

/-- A whole number from `low` up to below `high`. -/
def whole (low high : Int) (expected : String) : Decoder Int := fun _ d =>
  match d with
  | .number (some (.whole n)) =>
    if low ≤ n.val ∧ n.val < high then pure n.val
    else throw (.data (.wrongValue (.number (.whole n)) expected))
  | d => mismatch d expected

def uint64Of (expected : String) : Decoder UInt64 := fun source d => do
  let n ← whole 0 18446744073709551616 expected source d
  pure (.ofNat n.toNat)

def size : Decoder UInt64 := uint64Of "usize"

def uint64 : Decoder UInt64 := uint64Of "u64"

def uint32 : Decoder UInt32 := fun source d => do
  let n ← whole 0 4294967296 "u32" source d
  pure (.ofNat n.toNat)

def int64 : Decoder Int64 := fun source d => do
  let n ← whole (-9223372036854775808) 9223372036854775808 "i64" source d
  pure (.ofInt n)

def uuid : Decoder Uuid := fun source d => do
  let s ← stringOf "a formatted UUID string" source d
  match Uuid.ofString? s with
  | some id => pure id
  | none => throw (.data .unreadableUuid)

def timestamp : Decoder Timestamp := fun source d => do
  let s ← stringOf "an RFC 3339 formatted date and time string" source d
  match Timestamp.ofString? s with
  | some t => pure t
  | none => throw (.data .unreadableTimestamp)

def optional {α : Type} (decode : Decoder α) : Decoder (Option α) := fun source d =>
  match d with
  | .null => pure none
  | d => do
    let a ← decode source d
    pure (some a)

/-- Any value. A value is taken as it is; a text is read strictly. -/
def value : Decoder Value := fun source d =>
  match source with
  | .value => lift (d.value (d.depth))
  | .text limit => lift (d.value limit)

def items {α : Type} (decode : Decoder α) (source : Source) : List Draft → Except Error (List α)
  | [] => pure []
  | d :: ds => do
    let a ← decode source d
    let rest ← items decode source ds
    pure (a :: rest)

def list {α : Type} (decode : Decoder α) : Decoder (List α) := fun source d =>
  match d with
  | .array ds stop => do
    let source ← source.enter
    let as ← items decode source ds
    match stop with
    | none => pure as
    | some reason => broken reason
  | d => mismatch d "a sequence"

/-! One of several names -/

def pick {α : Type} (names : List (String × α)) (name : String) : Except Error α :=
  match names.lookup name with
  | some a => pure a
  | none => throw (.data (.unknownVariant name (names.map (·.1))))

def unit : Decoder Unit := fun _ d =>
  match d with
  | .null => pure ()
  | d => mismatch d "unit"

/-- A name, or an object with the name as its only key and nothing under it. -/
def oneOf {α : Type} (names : List (String × α)) : Decoder α := fun source d =>
  match source, d with
  | _, .string (some s) => pick names s
  | .value, .object [(some name, d)] _ => do
    let a ← pick names name
    unit .value d
    pure a
  | .value, .object _ _ => throw (.data (.wrongValue .object "map with a single key"))
  | .value, d => mismatch d "string or map"
  | .text 0, .object _ _ => broken .syntaxError
  | .text _, .object ((some name, d) :: members) finish => do
    let a ← pick names name
    unit source d
    match members, finish with
    | [], .closed => pure a
    | [], .open reason => broken reason
    | _, _ => broken .syntaxError
  | .text _, .object [] (.noKey _ _ found) => do
    let found ← lift found
    throw (.data (.wrongType found "variant identifier"))
  | .text _, .absent reason => broken reason
  | .text _, .cutString strict _ => broken strict
  | .text _, _ => broken .syntaxError

end Decoder

/-! Structures -/

/-- The fields that are given, and what it means for one to be absent. -/
structure Given where
  source : Source
  get : String → Option Draft
  absent : String → Error
  byPosition : Bool

structure Field where
  name : String
  check : Source → Draft → Except Error Unit

structure Record (α : Type) where
  fields : List Field
  build : Given → Except Error α

namespace Record

def field {α : Type} (name : String) (decode : Decoder α) (absent : Given → Except Error α) :
    Record α where
  fields := [⟨name, fun source d => do let _ ← decode source d⟩]
  build g :=
    match g.get name with
    | some d => decode g.source d
    | none => absent g

def required {α : Type} (name : String) (decode : Decoder α) : Record α :=
  field name decode fun g => throw (g.absent name)

/-- May be left out of an object, and may be `null`. -/
def optional {α : Type} (name : String) (decode : Decoder α) : Record (Option α) :=
  field name decode.optional fun g => if g.byPosition then throw (g.absent name) else pure none

/-- May be left out, also at the end of an array. -/
def withDefault {α : Type} (name : String) (decode : Decoder α) (a : α) : Record α :=
  field name decode fun _ => pure a

instance : Applicative Record where
  pure a := ⟨[], fun _ => pure a⟩
  seq f a :=
    { fields := f.fields ++ (a ()).fields
      build := fun g => do
        let f ← f.build g
        let a ← (a ()).build g
        pure (f a) }

/-- The given members, each checked as it comes; of the others only the form is checked. -/
def visit (fields : List Field) (source : Source) (given : List (String × Draft)) :
    List (Option String × Draft) → Except Error (List (String × Draft))
  | [] => pure given
  | (none, _) :: _ => broken .syntaxError
  | (some key, d) :: members =>
    match fields.find? (·.name = key) with
    | none => do
      lift d.skip
      visit fields source given members
    | some field =>
      if (given.lookup key).isSome then throw (.data (.duplicateField key))
      else do
        field.check source d
        visit fields source ((key, d) :: given) members

def visitEnd : ObjectEnd → Except Error Unit
  | .closed => pure ()
  | .open reason => broken reason
  | .noKey strict _ _ => broken strict

/-- Items by position. Where the items end early, so does the array, unless its text breaks off. -/
def visitItems (source : Source) (stop : Option Break) :
    List Field → List Draft → Except Error (List (String × Draft))
  | [], _ => pure []
  | _ :: _, [] =>
    match stop with
    | none => pure []
    | some reason => broken reason
  | field :: fields, d :: items => do
    field.check source d
    let given ← visitItems source stop fields items
    pure ((field.name, d) :: given)

/-- Nothing may follow the last field. -/
def surplus (source : Source) (length given : Nat) (stop : Option Break) : Except Error Unit :=
  if length < given then
    match source with
    | .value => throw (.data (.wrongLength given "fewer elements in array"))
    | .text _ => broken .syntaxError
  else match stop with
    | none => pure ()
    | some reason => broken reason

/-- A structure, given as an object or as an array. -/
def decode {α : Type} (name : String) (r : Record α) : Decoder α := fun source d =>
  match d with
  | .object members finish => do
    let source ← source.enter
    let given ← visit r.fields source [] members
    visitEnd finish
    r.build
      { source, get := fun f => given.lookup f, absent := fun f => .data (.missingField f), byPosition := false }
  | .array items stop => do
    let source ← source.enter
    let given ← visitItems source stop r.fields items
    let expected := "struct " ++ name ++ " with " ++ toString r.fields.length ++ " elements"
    let a ← r.build
      { source, get := fun f => given.lookup f, byPosition := true
        absent := fun _ => .data (.wrongLength items.length expected) }
    surplus source r.fields.length items.length stop
    pure a
  | d => mismatch d ("struct " ++ name)

/-- The members of an object apart from the named fields, in order. -/
def visitRest (fields : List Field) (source : Source) (given rest : List (String × Draft)) :
    List (Option String × Draft) → Except Error (List (String × Draft) × List (String × Draft))
  | [] => pure (given, rest.reverse)
  | (none, _) :: _ => broken .syntaxError
  | (some key, d) :: members =>
    match fields.find? (·.name = key) with
    | none => do
      let _ ← Decoder.value source d
      visitRest fields source given ((key, d) :: rest) members
    | some field =>
      if (given.lookup key).isSome then throw (.data (.duplicateField key))
      else do
        field.check source d
        visitRest fields source ((key, d) :: given) rest members

/-- A structure that holds the fields of another one beside its own. Only an object will do. -/
def decodeFlat {α β : Type} (name : String) (outer : Record (β → α)) (inner : Record β) :
    Decoder α := fun source d =>
  match d with
  | .object members finish => do
    let source ← source.enter
    let (given, rest) ← visitRest outer.fields source [] [] members
    visitEnd finish
    let absent (f : String) : Error := .data (.missingField f)
    let f ← outer.build { source, get := fun f => given.lookup f, absent, byPosition := false }
    let known := rest.filter fun m => inner.fields.any (·.name = m.1)
    let given ← visit inner.fields .value [] (known.map fun m => (some m.1, m.2))
    let a ← inner.build { source := .value, get := fun f => given.lookup f, absent, byPosition := false }
    pure (f a)
  | d => mismatch d ("struct " ++ name)

end Record

/-! Entry points -/

def decodeValue {α : Type} (decode : Decoder α) (v : Value) : Except Error α :=
  decode .value (.ofValue v)

def decodeSymbols {α : Type} (decode : Decoder α) (xs : List Text.Symbol) : Except Error α := do
  let (draft, excess) := Draft.ofSymbols xs
  let a ← decode (.text maxDepth) draft
  if excess then broken .syntaxError else pure a

def decodeBytes {α : Type} (decode : Decoder α) (bytes : ByteArray) : Except Error α :=
  decodeSymbols decode (Text.symbols bytes)

def decodeText {α : Type} (decode : Decoder α) (s : String) : Except Error α :=
  decodeSymbols decode (s.toList.map some)

def Value.parse (s : String) : Except Error Value := decodeText Decoder.value s

end SmsTracking.Json

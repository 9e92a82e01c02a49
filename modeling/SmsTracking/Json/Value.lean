import SmsTracking.Json.Number

/-!
JSON values and their compact text. An object keeps its members in the order in which they are
listed; objects that were read from a text have their keys sorted, each once.
-/

namespace SmsTracking.Json

inductive Value where
  | null
  | bool (b : Bool)
  | number (n : Number)
  | string (s : String)
  | array (items : List Value)
  | object (members : List (String × Value))
deriving Inhabited

namespace Value

def ofUInt64 (n : UInt64) : Value := .number (.ofUInt64 n)

def ofUInt32 (n : UInt32) : Value := .number (.ofUInt64 n.toUInt64)

def ofInt64 (n : Int64) : Value := .number (.ofInt64 n)

def ofNat (n : Nat) : Value := ofUInt64 (.ofNat n)

/-- `null` stands for a value that is not there. -/
def ofOption {α : Type} (encode : α → Value) : Option α → Value
  | none => .null
  | some a => encode a

/-! Parts of a value -/

def get? (v : Value) (key : String) : Option Value :=
  match v with
  | object members => members.lookup key
  | _ => none

def string? : Value → Option String
  | string s => some s
  | _ => none

def nat? : Value → Option Nat
  | number (.whole n) => if 0 ≤ n.val then some n.val.toNat else none
  | _ => none

def items : Value → List Value
  | array items => items
  | _ => []

/-! Changing all strings; keys stay -/

mutual

def mapStrings (f : String → String) : Value → Value
  | string s => string (f s)
  | array xs => array (mapItems f xs)
  | object ms => object (mapMembers f ms)
  | v => v

def mapItems (f : String → String) : List Value → List Value
  | [] => []
  | x :: xs => mapStrings f x :: mapItems f xs

def mapMembers (f : String → String) : List (String × Value) → List (String × Value)
  | [] => []
  | (k, x) :: ms => (k, mapStrings f x) :: mapMembers f ms

end

/-! Equality of values, in which minus zero equals zero -/

mutual

def same : Value → Value → Bool
  | .null, .null => true
  | .bool a, .bool b => a == b
  | .number m, .number n => m.same n
  | .string s, .string t => s == t
  | .array xs, .array ys => sameItems xs ys
  | .object xs, .object ys => sameMembers xs ys
  | _, _ => false

def sameItems : List Value → List Value → Bool
  | [], [] => true
  | x :: xs, y :: ys => same x y && sameItems xs ys
  | _, _ => false

def sameMembers : List (String × Value) → List (String × Value) → Bool
  | [], [] => true
  | (k, x) :: xs, (l, y) :: ys => k == l && same x y && sameMembers xs ys
  | _, _ => false

end

/-! Nesting: a scalar has depth 0 -/

mutual

def depth : Value → Nat
  | .array xs => depthItems xs + 1
  | .object ms => depthMembers ms + 1
  | _ => 0

def depthItems : List Value → Nat
  | [] => 0
  | x :: xs => max (depth x) (depthItems xs)

def depthMembers : List (String × Value) → Nat
  | [] => 0
  | (_, x) :: ms => max (depth x) (depthMembers ms)

end

/-- Members sorted by key, with a new one put in; a member with the same key is replaced. -/
def putMember (key : String) (v : Value) : List (String × Value) → List (String × Value)
  | [] => [(key, v)]
  | (k, w) :: ms =>
    if key < k then (key, v) :: (k, w) :: ms
    else if key = k then (key, v) :: ms
    else (k, w) :: putMember key v ms

/-- Members sorted by key; of two with the same key the later one stays. -/
def sortMembers (ms : List (String × Value)) : List (String × Value) :=
  ms.foldl (fun sorted m => putMember m.1 m.2 sorted) []

/-! The compact text -/

def hexPair (n : Nat) : List Char := [Nat.digitChar (n / 16), Nat.digitChar (n % 16)]

def escapeChar (c : Char) : List Char :=
  match c with
  | '"' => ['\\', '"']
  | '\\' => ['\\', '\\']
  | '\x08' => ['\\', 'b']
  | '\x0c' => ['\\', 'f']
  | '\n' => ['\\', 'n']
  | '\r' => ['\\', 'r']
  | '\t' => ['\\', 't']
  | c => if c.toNat < 0x20 then ['\\', 'u', '0', '0'] ++ hexPair c.toNat else [c]

def renderString (s : String) : List Char := '"' :: s.toList.flatMap escapeChar ++ ['"']

mutual

def render : Value → List Char
  | .null => ['n', 'u', 'l', 'l']
  | .bool true => ['t', 'r', 'u', 'e']
  | .bool false => ['f', 'a', 'l', 's', 'e']
  | .number n => n.render
  | .string s => renderString s
  | .array xs => '[' :: renderItems xs ++ [']']
  | .object ms => '\x7b' :: renderMembers ms ++ ['\x7d']

def renderItems : List Value → List Char
  | [] => []
  | [x] => render x
  | x :: xs => render x ++ ',' :: renderItems xs

def renderMembers : List (String × Value) → List Char
  | [] => []
  | [(k, x)] => renderString k ++ ':' :: render x
  | (k, x) :: ms => renderString k ++ ':' :: render x ++ ',' :: renderMembers ms

end

instance : ToString Value := ⟨fun v => String.ofList v.render⟩

/-- The bytes that travel. -/
def toBytes (v : Value) : ByteArray := (String.ofList v.render).toUTF8

end Value

end SmsTracking.Json

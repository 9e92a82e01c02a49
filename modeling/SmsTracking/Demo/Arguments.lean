import SmsTracking.Decimal.Digits
import SmsTracking.Text.Hex

/-!
The arguments of the demonstration. An option takes its value from the next argument, or from its own
argument after `=`; the short form takes it also without `=`. Each option may be given once, and there
are no other arguments.
-/

namespace SmsTracking.Demo

inductive Setting where
  | config
  | messages
  | owner
  | contact
deriving DecidableEq, Repr

structure Arguments where
  config : Option String := none
  messages : UInt64 := 3
  owner : String := "+1000"
  contact : String := "+2000"
deriving DecidableEq

inductive Invocation where
  | run (a : Arguments)
  | help
  | version
  | invalid (reason : String)
deriving DecidableEq

namespace Setting

def all : List Setting := [config, messages, owner, contact]

def name : Setting → String
  | config => "config"
  | messages => "messages"
  | owner => "owner"
  | contact => "contact"

def ofName? (s : String) : Option Setting := all.find? (·.name = s)

def ofLetter? : Char → Option Setting
  | 'c' => some config
  | 'm' => some messages
  | _ => none

end Setting

/-- A whole number of 64 bits, perhaps after a plus sign. -/
def count? (s : String) : Option UInt64 :=
  let ds := match s.toList with
    | '+' :: ds => ds
    | ds => ds
  if ds ≠ [] ∧ ds.all Char.isDigit ∧ Text.baseValue 10 ds < UInt64.size then
    some (.ofNat (Text.baseValue 10 ds))
  else none

/-- Arguments with the settings that were given. -/
structure Given where
  values : Arguments := {}
  settings : List Setting := []

/-- Puts in a value. A path may not be empty. -/
def Given.put (g : Given) (o : Setting) (value : String) : Except String Given :=
  let put (values : Arguments) : Except String Given :=
    .ok { values, settings := o :: g.settings }
  if o ∈ g.settings then .error ("the argument '--" ++ o.name ++ "' cannot be used multiple times")
  else match o with
    | .config =>
      if value = "" then .error "a value is required for '--config' but none was supplied"
      else put { g.values with config := some value }
    | .messages =>
      match count? value with
      | some n => put { g.values with messages := n }
      | none => .error ("invalid value '" ++ value ++ "' for '--messages'")
    | .owner => put { g.values with owner := value }
    | .contact => put { g.values with contact := value }

/-- A single hyphen is a value; all else that begins with one is not. -/
def isValue (s : String) : Bool :=
  match s.toList with
  | '-' :: _ :: _ => false
  | _ => true

/-- How an argument begins. -/
inductive Head where
  | option (o : Setting) (attached : Option String)
  | help
  | version
  /-- Only other arguments may follow. -/
  | stop
  | invalid

/-- The name of a long option and what stands after `=`. -/
def Head.ofLong (cs : List Char) : Head :=
  let name := String.ofList (cs.takeWhile (· ≠ '='))
  let attached := match cs.dropWhile (· ≠ '=') with
    | [] => none
    | _ :: value => some (String.ofList value)
  match name, attached with
  | "help", none => .help
  | "version", none => .version
  | name, attached =>
    match Setting.ofName? name with
    | some o => .option o attached
    | none => .invalid

def Head.ofShort (c : Char) (cs : List Char) : Head :=
  match c with
  | 'h' => .help
  | 'V' => .version
  | c =>
    match Setting.ofLetter? c, cs with
    | some o, [] => .option o none
    | some o, '=' :: value => .option o (some (String.ofList value))
    | some o, value => .option o (some (String.ofList value))
    | none, _ => .invalid

def Head.of (s : String) : Head :=
  match s.toList with
  | ['-', '-'] => .stop
  | '-' :: '-' :: cs => ofLong cs
  | '-' :: c :: cs => ofShort c cs
  | _ => .invalid

def unexpected (s : String) : Invocation := .invalid ("unexpected argument '" ++ s ++ "' found")

/-- Takes the arguments one after the other, and the first that settles the matter is the answer. -/
def Given.take (g : Given) : List String → Invocation
  | [] => .run g.values
  | arg :: rest =>
    match Head.of arg with
    | .help => .help
    | .version => .version
    | .stop =>
      match rest with
      | [] => .run g.values
      | next :: _ => unexpected next
    | .invalid => unexpected arg
    | .option o (some value) =>
      match g.put o value with
      | .ok g => g.take rest
      | .error reason => .invalid reason
    | .option o none =>
      match rest with
      | [] => .invalid ("a value is required for '--" ++ o.name ++ "' but none was supplied")
      | value :: rest =>
        if isValue value then
          match g.put o value with
          | .ok g => g.take rest
          | .error reason => .invalid reason
        else .invalid ("a value is required for '--" ++ o.name ++ "' but none was supplied")

def Invocation.ofList (args : List String) : Invocation := ({} : Given).take args

end SmsTracking.Demo

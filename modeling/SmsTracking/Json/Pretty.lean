import SmsTracking.Json.Value

/-!
JSON text for reading: each item and each member on a line of its own, indented by two spaces for
each level.
-/

namespace SmsTracking.Json.Value

def indent (level : Nat) : List Char := '\n' :: List.replicate (2 * level) ' '

mutual

def renderIndented (level : Nat) : Value → List Char
  | .array (x :: xs) =>
    '[' :: indent (level + 1) ++ renderIndented (level + 1) x ++ indentedItems (level + 1) xs ++
      indent level ++ [']']
  | .object ((k, x) :: ms) =>
    '\x7b' :: indent (level + 1) ++ renderString k ++ ':' :: ' ' :: renderIndented (level + 1) x ++
      indentedMembers (level + 1) ms ++ indent level ++ ['\x7d']
  | v => v.render

def indentedItems (level : Nat) : List Value → List Char
  | [] => []
  | x :: xs => ',' :: indent level ++ renderIndented level x ++ indentedItems level xs

def indentedMembers (level : Nat) : List (String × Value) → List Char
  | [] => []
  | (k, x) :: ms =>
    ',' :: indent level ++ renderString k ++ ':' :: ' ' :: renderIndented level x ++
      indentedMembers level ms

end

def pretty (v : Value) : String := String.ofList (v.renderIndented 0)

end SmsTracking.Json.Value

/-!
A byte string seen as text: every byte that takes part in a well-formed UTF-8 sequence belongs to
a character, every other byte stands for itself as `none`. Text that is well-formed comes back
character by character.
-/

namespace SmsTracking.Text

/-- A character, or a byte that is no part of one. -/
abbrev Symbol := Option Char

/-- The number of bytes a symbol was read from. -/
def Symbol.size : Symbol → Nat
  | some c => c.utf8Size
  | none => 1

def symbolsFrom (bytes : ByteArray) (i : Nat) : Nat → List Symbol
  | 0 => []
  | fuel + 1 =>
    if i < bytes.size then
      match bytes.utf8DecodeChar? i with
      | some c => some c :: symbolsFrom bytes (i + c.utf8Size) fuel
      | none => none :: symbolsFrom bytes (i + 1) fuel
    else []

def symbols (bytes : ByteArray) : List Symbol :=
  match bytes.utf8Decode? with
  | some cs => cs.toList.map some
  | none => symbolsFrom bytes 0 bytes.size

theorem symbols_utf8Encode (cs : List Char) : symbols cs.utf8Encode = cs.map some := by
  simp [symbols, List.utf8Decode?_utf8Encode]

theorem symbols_toUTF8 (s : String) : symbols s.toUTF8 = s.toList.map some := by
  rw [← symbols_utf8Encode]
  congr 1
  simp

end SmsTracking.Text

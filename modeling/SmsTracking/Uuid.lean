import SmsTracking.Text.Hex

/-!
Universally unique identifiers: 128 bits, written as 32 lower-case hexadecimal digits in groups of
8, 4, 4, 4 and 12. The reader takes the digits of either case with or without the hyphens, and the
hyphenated form also in braces or after `urn:uuid:`.
-/

namespace SmsTracking

structure Uuid where
  bits : BitVec 128
deriving DecidableEq, Repr, Inhabited

namespace Uuid

def hexDigits (n : Nat) : List Char :=
  let ds := Nat.toDigits 16 n
  List.replicate (32 - ds.length) '0' ++ ds

/-- Hyphens after the 8th, 12th, 16th and 20th digit. -/
def hyphenate (ds : List Char) : List Char :=
  ds.take 8 ++ '-' :: (ds.drop 8).take 4 ++ '-' :: (ds.drop 12).take 4 ++
    '-' :: (ds.drop 16).take 4 ++ '-' :: ds.drop 20

def render (id : Uuid) : List Char := hyphenate (hexDigits id.bits.toNat)

instance : ToString Uuid := ⟨fun id => String.ofList id.render⟩

def ofDigits? (ds : List Char) : Option Uuid :=
  if ds.length = 32 ∧ ds.all fun c => (Text.hexValue? c).isSome then
    some ⟨BitVec.ofNat 128 (Text.baseValue 16 ds)⟩
  else none

def ofHyphenated? (cs : List Char) : Option Uuid :=
  if [8, 13, 18, 23].all fun i => cs[i]? = some '-' then
    ofDigits? (cs.take 8 ++ (cs.drop 9).take 4 ++ (cs.drop 14).take 4 ++ (cs.drop 19).take 4 ++
      cs.drop 24)
  else none

def urn : List Char := "urn:uuid:".toList

def parse? (cs : List Char) : Option Uuid :=
  if cs.length = 32 then ofDigits? cs
  else if cs.length = 36 then ofHyphenated? cs
  else if cs.length = 38 then
    if cs.head? = some '\x7b' ∧ cs.getLast? = some '\x7d' then ofHyphenated? (cs.drop 1).dropLast
    else none
  else if (cs.take 9).map Char.toLower = urn then ofHyphenated? (cs.drop 9)
  else none

def ofString? (s : String) : Option Uuid := parse? s.toList

end Uuid

end SmsTracking

import SmsTracking.Message.Codec

/-!
Pages of a list of messages.
-/

namespace SmsTracking

open Json Record

/-- A page of a list, perhaps of those messages only whose content holds a text. -/
structure Page where
  skip : UInt64 := 0
  limit : UInt64 := 20
  query : Option String := none
deriving DecidableEq

namespace Page

def members (p : Page) : List (String × Value) :=
  [("skip", .ofUInt64 p.skip), ("limit", .ofUInt64 p.limit), ("query", .ofOption .string p.query)]

def encode (p : Page) : Value := .object p.members

def record : Record Page :=
  let defaults : Page := {}
  Page.mk <$> withDefault "skip" Decoder.size defaults.skip
    <*> withDefault "limit" Decoder.size defaults.limit
    <*> withDefault "query" Decoder.string.optional defaults.query

def decode : Decoder Page := record.decode "IndexParams"

end Page

end SmsTracking

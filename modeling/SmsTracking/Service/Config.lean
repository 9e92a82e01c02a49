import SmsTracking.Message.Codec
import SmsTracking.Span
import SmsTracking.Toml.Document

/-!
Configuration of the service. Every setting has a default, and a document or a JSON object names
those that differ from it.
-/

namespace SmsTracking

structure ServiceConfig where
  /-- How many messages of a batch are handed out at the same time. -/
  outstandingConcurrency : UInt64 := 8
  /-- How many outstanding messages one poll gets at most. -/
  outstandingLimit : UInt64 := 100
  /-- How often a message that is not yet visible is loaded again. -/
  reloadAttempts : UInt32 := 3
  reloadIntervalMs : UInt64 := 50
  /-- How often a transition is tried again after the message has changed. -/
  updateRetries : UInt32 := 3
  /-- How long an unfinished claim keeps others away. -/
  claimTtlMs : UInt64 := 30000
deriving DecidableEq

namespace ServiceConfig

open Json

def reloadInterval (c : ServiceConfig) : Span := .ofMilliseconds c.reloadIntervalMs.toNat

def claimTtl (c : ServiceConfig) : Span := .ofMilliseconds c.claimTtlMs.toNat

def encode (c : ServiceConfig) : Value :=
  .object [("outstanding_concurrency", .ofUInt64 c.outstandingConcurrency),
    ("outstanding_limit", .ofUInt64 c.outstandingLimit),
    ("reload_attempts", .ofUInt32 c.reloadAttempts),
    ("reload_interval_ms", .ofUInt64 c.reloadIntervalMs),
    ("update_retries", .ofUInt32 c.updateRetries), ("claim_ttl_ms", .ofUInt64 c.claimTtlMs)]

def record : Record ServiceConfig :=
  let defaults : ServiceConfig := {}
  ServiceConfig.mk
    <$> .withDefault "outstanding_concurrency" Decoder.size defaults.outstandingConcurrency
    <*> .withDefault "outstanding_limit" Decoder.size defaults.outstandingLimit
    <*> .withDefault "reload_attempts" Decoder.uint32 defaults.reloadAttempts
    <*> .withDefault "reload_interval_ms" Decoder.uint64 defaults.reloadIntervalMs
    <*> .withDefault "update_retries" Decoder.uint32 defaults.updateRetries
    <*> .withDefault "claim_ttl_ms" Decoder.uint64 defaults.claimTtlMs

def decode : Decoder ServiceConfig := record.decode "MessageServiceConfig"

/-! Settings of a document -/

/-- A whole number below the limit, or the default where the setting is missing. -/
def setting? (v : Option Toml.Value) (limit default : Nat) : Option Nat :=
  match v with
  | none => some default
  | some (.integer n) => if 0 ≤ n ∧ n < limit then some n.toNat else none
  | some _ => none

def ofSettings? (get : String → Nat → Option Toml.Value) : Option ServiceConfig := do
  let defaults : ServiceConfig := {}
  let concurrency ←
    setting? (get "outstanding_concurrency" 0) UInt64.size defaults.outstandingConcurrency.toNat
  let limit ← setting? (get "outstanding_limit" 1) UInt64.size defaults.outstandingLimit.toNat
  let attempts ← setting? (get "reload_attempts" 2) UInt32.size defaults.reloadAttempts.toNat
  let interval ← setting? (get "reload_interval_ms" 3) UInt64.size defaults.reloadIntervalMs.toNat
  let retries ← setting? (get "update_retries" 4) UInt32.size defaults.updateRetries.toNat
  let ttl ← setting? (get "claim_ttl_ms" 5) UInt64.size defaults.claimTtlMs.toNat
  some
    { outstandingConcurrency := .ofNat concurrency, outstandingLimit := .ofNat limit
      reloadAttempts := .ofNat attempts, reloadIntervalMs := .ofNat interval
      updateRetries := .ofNat retries, claimTtlMs := .ofNat ttl }

/-- Settings by name, or by position in an array. A date has no settings. -/
def ofToml? : Toml.Value → Option ServiceConfig
  | .table members => ofSettings? fun name _ => members.lookup name
  | .array items => ofSettings? fun _ i => items[i]?
  | .datetime _ => some {}
  | _ => none

/-- The configuration of a document whose top level holds the settings. -/
def ofDocument (s : String) : Except AppError ServiceConfig :=
  match (Toml.ofString? s).bind ofToml? with
  | some c => .ok c
  | none => .error (.validation "invalid service configuration: malformed document or setting")

/-- The configuration of a document whose table `service` holds the settings. -/
def ofFile? (s : String) : Option ServiceConfig :=
  match Toml.ofString? s with
  | some (.table members) =>
    match members.lookup "service" with
    | none => some {}
    | some v => ofToml? v
  | _ => none

end ServiceConfig

end SmsTracking

import OnceCache.Config.Basic
import OnceCache.Json.Value

namespace OnceCache

namespace Duration

structure Parts where
  secs : Option Nat := none
  nanos : Option Nat := none

-- A length of time from its two parts. Both are needed, and their sum must be one.
def Parts.toDuration (p : Parts) : Except Json.Fault Duration := do
  match p.secs, p.nanos with
  | some secs, some nanos =>
    match ofParts? secs nanos with
    | some d => .ok d
    | none => .error .mismatched
  | _, _ => .error .mismatched

def nameSecs : Bytes := .ofText "secs"

def nameNanos : Bytes := .ofText "nanos"

def readSecs : Json.Reader Nat := Json.readNat UInt64.size

def readNanos : Json.Reader Nat := Json.readNat UInt32.size

-- The two parts have names, and nothing else is known or taken twice.
def members : Json.Members Parts := fun name p =>
  if name = nameSecs then
    if p.secs.isSome then .error .mismatched
    else .ok fun s => do
      let (n, s) ← readSecs s
      return ({ p with secs := some n }, s)
  else if name = nameNanos then
    if p.nanos.isSome then .error .mismatched
    else .ok fun s => do
      let (n, s) ← readNanos s
      return ({ p with nanos := some n }, s)
  else .error .mismatched

def readObject : Json.Reader Duration := fun s => do
  let (p, s) ← Json.readObject members {} s
  return (← p.toDuration, s)

def readList : Json.Reader Duration := fun s => do
  let (some secs, s) ← Json.readElement readSecs true s | .error .mismatched
  let (nanos, s) ← Json.readElement readNanos false s
  let d ← Parts.toDuration { secs, nanos }
  return (d, ← Json.closeList s)

def read : Json.Reader Duration := Json.readRecord readObject readList

def toJson (d : Duration) : String :=
  "\x7b\"secs\":" ++ toString d.secs ++ ",\"nanos\":" ++ toString d.subsecNanos ++ "\x7d"

end Duration

namespace Config

inductive Field
  | maxEntries
  | maxMemoryBytes
  | maxEntryBytes
  | defaultTtl
  | autoCleanup
  | cleanupInterval
  deriving DecidableEq

namespace Field

def name : Field → String
  | maxEntries => "max_entries"
  | maxMemoryBytes => "max_memory_bytes"
  | maxEntryBytes => "max_entry_bytes"
  | defaultTtl => "default_ttl"
  | autoCleanup => "auto_cleanup"
  | cleanupInterval => "cleanup_interval"

-- The fields in the order in which they are written.
def all : List Field :=
  [maxEntries, maxMemoryBytes, maxEntryBytes, defaultTtl, autoCleanup, cleanupInterval]

def ofName? (name : Bytes) : Option Field := all.find? fun f => Bytes.ofText f.name = name

def readWord : Json.Reader UInt64 := fun s => do
  let (n, s) ← Json.readNat UInt64.size s
  return (n.toUInt64, s)

def read (f : Field) (c : Config) : Json.Reader Config := fun s => do
  match f with
  | maxEntries =>
    let (n, s) ← readWord s
    return ({ c with maxEntries := n }, s)
  | maxMemoryBytes =>
    let (n, s) ← readWord s
    return ({ c with maxMemoryBytes := n }, s)
  | maxEntryBytes =>
    let (n, s) ← readWord s
    return ({ c with maxEntryBytes := n }, s)
  | defaultTtl =>
    let (d, s) ← Duration.read s
    return ({ c with defaultTtl := d }, s)
  | autoCleanup =>
    let (b, s) ← Json.readBool s
    return ({ c with autoCleanup := b }, s)
  | cleanupInterval =>
    let (d, s) ← Duration.read s
    return ({ c with cleanupInterval := d }, s)

def write (f : Field) (c : Config) : String :=
  match f with
  | maxEntries => toString c.maxEntries
  | maxMemoryBytes => toString c.maxMemoryBytes
  | maxEntryBytes => toString c.maxEntryBytes
  | defaultTtl => c.defaultTtl.toJson
  | autoCleanup => if c.autoCleanup then "true" else "false"
  | cleanupInterval => c.cleanupInterval.toJson

end Field

-- A configuration that is being read, and the fields that have been met.
structure Draft where
  config : Config := .standard
  met : List Field := []

-- A known field is taken once, a field of any other name is skipped.
def members : Json.Members Draft := fun name draft =>
  match Field.ofName? name with
  | some f =>
    if f ∈ draft.met then .error .mismatched
    else .ok fun s => do
      let (config, s) ← f.read draft.config s
      return (⟨config, f :: draft.met⟩, s)
  | none => .ok fun s => do return (draft, ← Json.skip s)

def readObject : Json.Reader Config := fun s => do
  let (draft, s) ← Json.readObject members {} s
  return (draft.config, s)

-- Reads the values of some fields from a list that can end before each of them.
def readElements : List Field → Bool → Config → Json.Reader Config
  | [], _, c, s => .ok (c, s)
  | f :: fields, isFirst, c, s => do
    let (next, s) ← Json.readElement (f.read c) isFirst s
    match next with
    | some c => readElements fields false c s
    | none => .ok (c, s)

def readList : Json.Reader Config := fun s => do
  let (c, s) ← readElements Field.all true .standard s
  return (c, ← Json.closeList s)

def ofJson (text : String) : Except Json.Fault Config :=
  Json.readAll (Json.readRecord readObject readList) (.ofText text)

def toJson (c : Config) : String :=
  "\x7b" ++ ",".intercalate (Field.all.map fun f => "\"" ++ f.name ++ "\":" ++ f.write c) ++ "\x7d"

end Config

end OnceCache

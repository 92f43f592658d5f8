import OnceCache.Event
import OnceCache.Generation.Basic
import OnceCache.Key.Derivation

namespace OnceCache

structure Responder where
  derivation : Key.Derivation := Key.Derivation.byTarget
  contentType : Http.HeaderValue := .ofText "application/json"
  -- How long a generation can take. The wait for the lock does not count.
  generateTimeout : Option Duration := none
  cacheStatusHeader : Bool := true

namespace Responder

-- Takes over a content type. A text that is no header value is refused, and the log says so.
def withContentType (r : Responder) (value : String) : Responder × List Event :=
  match Http.HeaderValue.parse? (.ofText value) with
  | some contentType => ({ r with contentType }, [])
  | none => (r, [.contentTypeRefused value])

def withGenerateTimeout (r : Responder) (limit : Duration) : Responder :=
  { r with generateTimeout := some limit }

def withDerivation (r : Responder) (derivation : Key.Derivation) : Responder :=
  { r with derivation }

def withCacheStatusHeader (r : Responder) (isShown : Bool) : Responder :=
  { r with cacheStatusHeader := isShown }

def key (r : Responder) (q : Http.Request) : Key := r.derivation q.method q.target q.headers

def bound (r : Responder) (now : Instant) (g : Generation Failure) : Generation Failure :=
  g.within r.generateTimeout now

-- A responder with its settings. `manager` is what its manager shows of itself.
def debug (r : Responder) (manager : String) : String :=
  Quoted.record "CachedResponder" [
    ("manager", manager),
    ("content_type", Quoted.bytes r.contentType.bytes),
    ("generate_timeout", Quoted.option (r.generateTimeout.map (·.text))),
    ("cache_status_header", Quoted.bool r.cacheStatusHeader)] true

end Responder

end OnceCache

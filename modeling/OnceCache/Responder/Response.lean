import OnceCache.Manager.Request
import OnceCache.Responder.Basic

namespace OnceCache

structure Response where
  status : Nat
  -- The header lines, in the order of their names.
  headers : Http.Headers
  body : Body

namespace Responder

def success (r : Responder) (served : Served) : Response where
  status := 200
  headers :=
    ⟨.contentType, r.contentType⟩ ::
      if r.cacheStatusHeader then [⟨.xCache, .ofText served.status.text⟩] else []
  body := served.body

def failure (f : Failure) : Response where
  status := f.status
  headers := [⟨.contentType, .ofText "application/json"⟩]
  body := f.body.toUTF8

def failureEvent (target : Http.Target) (f : Failure) : Event :=
  if f.isServerError then .responseFailed target.text f.status f.text
  else .requestRejected target.text f.status f.text

-- The response to a request with this outcome, and what the log learns.
def render (r : Responder) (target : Http.Target) :
    Except Failure Served → Response × List Event
  | .ok served => (r.success served, [])
  | .error f => (failure f, [failureEvent target f])

end Responder

end OnceCache

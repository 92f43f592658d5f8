import OnceCache.Http.Header
import OnceCache.Http.Target

namespace OnceCache

namespace Http

structure Request where
  method : Method
  target : Target
  headers : Headers
  deriving DecidableEq, Repr

inductive BadRequest
  | method
  | target
  | headerName
  | headerValue
  deriving DecidableEq, Repr

-- A request head as it arrives.
structure RawRequest where
  method : String := "GET"
  target : Bytes
  headers : List (String × Bytes) := []

namespace Request

def parseHeader (line : String × Bytes) : Except BadRequest Header := do
  let some name := HeaderName.parse? line.1 | .error .headerName
  let some value := HeaderValue.parse? line.2 | .error .headerValue
  return ⟨name, value⟩

-- Reads the method, then the target, then the header lines in order.
def parse (raw : RawRequest) : Except BadRequest Request := do
  let some method := Method.parse? raw.method | .error .method
  let some target := Target.parse? raw.target | .error .target
  return ⟨method, target, ← raw.headers.mapM parseHeader⟩

end Request

end Http

end OnceCache

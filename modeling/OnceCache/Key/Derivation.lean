import OnceCache.Http.Form
import OnceCache.Http.Request
import OnceCache.Key

namespace OnceCache

namespace Key

abbrev Derivation := Http.Method → Http.Target → Http.Headers → Key

-- The path and the query as they were asked for. An authority alone has the empty key.
def ofTarget (t : Http.Target) : Key :=
  match t.resource? with
  | some r => ⟨r.text⟩
  | none => ⟨t.path⟩

-- The method, the path, and the form parameters of the query in the order of their names. An empty
-- query is the same as none.
def normalized (method : Http.Method) (t : Http.Target) : Key :=
  match t.query.filter (· ≠ "") with
  | none => ⟨method.text ++ " " ++ t.path⟩
  | some query =>
    ⟨method.text ++ " " ++ t.path ++ "?" ++ Http.Form.write (Http.Form.sort (Http.Form.read query))⟩

def acceptOf (headers : Http.Headers) : String :=
  ((headers.all .accept).head?.bind (·.text?)).getD "*/*"

namespace Derivation

def byTarget : Derivation := fun _ t _ => ofTarget t

def byParameters : Derivation := fun method t _ => normalized method t

def byAccept : Derivation := fun method t headers =>
  ⟨method.text ++ " " ++ t.text ++ " " ++ acceptOf headers⟩

end Derivation

end Key

end OnceCache

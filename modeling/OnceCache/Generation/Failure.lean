import OnceCache.Json.Text
import OnceCache.Text.Quoted
import OnceCache.Time.Duration

namespace OnceCache

inductive Failure
  | missingParameter (name : String)
  | invalidParameter (message : String)
  | limitExceeded (message : String)
  | unsupportedQuery (message : String)
  | timeout (limit : Duration)
  | internal (message : String)
  -- Any other failure, with remarks that were added to it, the last one on top.
  | other (message : String) (remarks : List String)
  deriving DecidableEq

namespace Failure

def text : Failure → String
  | missingParameter name => "missing required parameter: " ++ name
  | invalidParameter message => "invalid parameter: " ++ message
  | limitExceeded message => "resource limit exceeded: " ++ message
  | unsupportedQuery message => "unsupported query: " ++ message
  | timeout limit => "generation timed out after " ++ limit.text
  | internal message => "internal error: " ++ message
  | other message remarks => remarks.getLast?.getD message

def name : Failure → String
  | missingParameter _ => "MissingParameter"
  | invalidParameter _ => "InvalidParameter"
  | limitExceeded _ => "LimitExceeded"
  | unsupportedQuery _ => "UnsupportedQuery"
  | timeout _ => "Timeout"
  | internal _ => "Internal"
  | other .. => "Other"

-- A failure with what it holds. The inside of other failures is not shown.
def debug? (f : Failure) : Option String :=
  match f with
  | missingParameter s | invalidParameter s | limitExceeded s | unsupportedQuery s | internal s =>
    some (Quoted.wrapped f.name (Quoted.text s))
  | timeout limit => some (Quoted.wrapped f.name limit.text)
  | other .. => none

def status : Failure → Nat
  | missingParameter _ | invalidParameter _ => 400
  | limitExceeded _ => 403
  | unsupportedQuery _ => 404
  | timeout _ | internal _ | other .. => 500

def isServerError (f : Failure) : Bool := 500 ≤ f.status && f.status < 600

def publicText (f : Failure) : String :=
  if f.isServerError then "internal server error" else f.text

def body (f : Failure) : String := "\x7b\"error\":" ++ Json.Text.write f.publicText ++ "\x7d"

end Failure

end OnceCache

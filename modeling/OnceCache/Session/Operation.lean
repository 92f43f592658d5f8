import OnceCache.Session.Basic

namespace OnceCache

namespace Session

inductive Operation
  | allocate (handle : String) (key : Key)
  | free (handle : String)
  | sameLock (a b : String)
  | lock (handle : String)
  | pollLock (handle : String)
  | unlock (handle : String)
  | guardGet (handle : String)
  | guardSet (handle : String) (body : Body)
  | abandon (handle : String)
  | refCount (key : Key)
  | containsKey (key : Key)
  | registry
  | debugManager
  | debugResponder
  | start (request : String) (key : Key) (directive : Directive)
    (script : Generation.Script Failure)
  | fetch (request : String) (raw : Http.RawRequest) (script : Generation.Script Failure)
    (responder : Option Responder := none)
  | respond (request : String) (raw : Http.RawRequest) (script : Generation.Script Failure)
    (responder : Option Responder := none)
  | poll (request : String)
  -- Gives the generation of a request its outcome and polls the request.
  | finish (request : String) (outcome : Except Failure Body)
  | pollAll
  | cancel (request : String)
  | cacheKey (raw : Http.RawRequest)
  | advance (length : Duration)
  | get (key : Key)
  | set (key : Key) (body : Body)

inductive Refusal
  | misuse (misuse : Misuse)
  | alreadyLocking
  | noSuchRequest
  | storeHidden
  deriving DecidableEq

def Refusal.text : Refusal → String
  | misuse m => m.text
  | alreadyLocking => "already locking"
  | noSuchRequest => "no such request"
  | storeHidden => "store is hidden"

-- What polling a request shows. Whatever is done tells whether its generation ran.
inductive RequestAnswer
  | pending (generating : Bool)
  | served (served : Served) (generated : Bool)
  -- The failure of a request to the manager.
  | directFailure (failure : Failure) (generated : Bool)
  | fetchFailure (failure : Failure) (generated : Bool)
  | response (response : Response) (generated : Bool)
  | broken

inductive Answer
  | refused (refusal : Refusal)
  | badRequest (part : Http.BadRequest)
  | error (error : Error)
  | handle (key : Key)
  | released
  | unlocked
  | ok
  | locked (isHolder : Bool)
  | bool (b : Bool)
  | body (body : Body)
  | count (n : Option Nat)
  | registry (size : Nat) (isEmpty : Bool)
  | text (s : String)
  | rates (manager : Float) (store : Option Float)
  | request (answer : RequestAnswer)
  | requests (answers : List (String × RequestAnswer))

def Answer.ofRead : Except Error Body → Answer
  | .ok b => .body b
  | .error e => .error e

def Answer.ofWrite : Except Error Unit → Answer
  | .ok () => .ok
  | .error e => .error e

end Session

end OnceCache

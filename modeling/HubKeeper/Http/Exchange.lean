import HubKeeper.Error
import HubKeeper.Http.Status
import HubKeeper.Http.Url
import HubKeeper.Json.Reader

/-!
Requests, responses, and exchanges made of them.

An exchange sends one request after the other and goes on with what comes back: a
response, or the fault for which there is none.  A transport delivers requests.
-/

namespace HubKeeper.Http

inductive Method
  | get
  | post
deriving DecidableEq, Inhabited

structure Request where
  method : Method
  url : Url
  accept : String
  authorization : Option String
  body : Option Json
deriving DecidableEq, Inhabited

structure Response where
  status : Nat
  body : String
deriving DecidableEq, Inhabited

inductive Fault
  | malformed
  | undelivered (url : Url)
deriving DecidableEq, Inhabited

namespace Fault

def message : Fault → String
  | malformed => "builder error"
  | undelivered url => "error sending request for url (" ++ url.text ++ ")"

end Fault

namespace Request

def isHeaderChar (c : Char) : Bool :=
  c == '\t' || (0x20 ≤ c.toNat && c.toNat != 0x7f)

/-- Whether a request can be sent at all. -/
def isWellFormed (request : Request) : Bool :=
  request.authorization.all fun header => header.toList.all isHeaderChar

def get (url : Url) : Request := ⟨.get, url, "*/*", none, none⟩

def post (url : Url) (body : Json) : Request := ⟨.post, url, "*/*", none, some body⟩

def bearing (request : Request) (token : String) : Request :=
  { request with authorization := some ("Bearer " ++ token) }

end Request

namespace Response

/-- The body as JSON, its fields in the order sent. -/
def json? (response : Response) : Option Json :=
  Json.parseChars? response.body.toList

def undecodable : String := "error decoding response body"

end Response

inductive Exchange (α : Type)
  | done (result : Except Error α)
  | send (request : Request) (next : Except Fault Response → Exchange α)

namespace Exchange

def ok (a : α) : Exchange α := .done (.ok a)

def error (e : Error) : Exchange α := .done (.error e)

protected def bind : Exchange α → (α → Exchange β) → Exchange β
  | .done (.ok a), next => next a
  | .done (.error e), _ => .error e
  | .send request answered, next => .send request fun answer => (answered answer).bind next

instance : Monad Exchange where
  pure := ok
  bind := Exchange.bind

instance : MonadLift (Except Error) Exchange where
  monadLift := .done

/-- Sends a request; a fault ends the exchange with an error. -/
def request (request : Request) (onFault : Fault → Error) : Exchange Response :=
  .send request fun
    | .ok response => .ok response
    | .error fault => .error (onFault fault)

end Exchange

/-- Delivers requests, changing the state of who answers them. -/
abbrev Transport (σ : Type) := Request → σ → Except Fault Response × σ

namespace Transport

def unreachable : Transport σ := fun request state => (.error (.undelivered request.url), state)

def deliver (transport : Transport σ) (request : Request) (state : σ) :
    Except Fault Response × σ :=
  if request.isWellFormed then transport request state else (.error .malformed, state)

end Transport

namespace Exchange

def run (transport : Transport σ) : Exchange α → σ → Except Error α × σ
  | .done result, state => (result, state)
  | .send request next, state =>
      let (answer, state) := transport.deliver request state
      (next answer).run transport state

end Exchange

end HubKeeper.Http

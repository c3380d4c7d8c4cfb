import HubKeeper.Dns.Record
import HubKeeper.Error

/-!
Calls to the outside, and dialogues made of them.

A dialogue asks one call after the other and goes on with the answer; a call that
fails ends it with the error of the call.  A service answers calls and keeps a
state.  Running a dialogue with a service tells the result and the calls made.
-/

namespace HubKeeper.Dns

inductive Call
  | listZones
  | listRecords (zone : Zone) (name : String)
  | apply (zone : Zone) (batch : Batch)
  | resolve (name : String)
  | publicAddress
deriving DecidableEq

namespace Call

def Answer : Call → Type
  | listZones => List Zone
  | listRecords .. => List Record
  | apply .. => Unit
  | resolve _ => List Ipv4
  | publicAddress => Ipv4

end Call

inductive Dialogue (α : Type)
  | done (result : Except Error α)
  | ask (call : Call) (next : call.Answer → Dialogue α)

namespace Dialogue

def ok (a : α) : Dialogue α := .done (.ok a)

def error (e : Error) : Dialogue α := .done (.error e)

protected def bind : Dialogue α → (α → Dialogue β) → Dialogue β
  | .done (.ok a), next => next a
  | .done (.error e), _ => .error e
  | .ask call answered, next => .ask call fun answer => (answered answer).bind next

instance : Monad Dialogue where
  pure := ok
  bind := Dialogue.bind

instance : MonadLift (Except Error) Dialogue where
  monadLift := .done

def call (call : Call) : Dialogue call.Answer :=
  .ask call .ok

end Dialogue

abbrev Service (σ : Type) :=
  (call : Call) → σ → Except Error call.Answer × σ

/-- The end of a run: the result, the calls in order and the last state. -/
structure Run (σ α : Type) where
  result : Except Error α
  calls : List Call
  state : σ

namespace Dialogue

def run (service : Service σ) : Dialogue α → σ → Run σ α
  | .done result, state => ⟨result, [], state⟩
  | .ask call next, state =>
      match service call state with
      | (.error e, state) => ⟨.error e, [call], state⟩
      | (.ok answer, state) =>
          let rest := (next answer).run service state
          { rest with calls := call :: rest.calls }

end Dialogue

end HubKeeper.Dns

import HubKeeper.Http.Exchange

/-!
Runs of composed exchanges over a transport.

Whether an exchange sends reading requests only is read off its tree, for all answers at once.
What these do not change, at whoever answers, the whole exchange leaves as it is.
-/

namespace HubKeeper.Http

/-- Requests that ask for something without handing anything over. -/
def Request.isReading (request : Request) : Bool :=
  request.method == .get

namespace Exchange

variable {transport : Transport σ} {state : σ}

theorem run_bind (first : Exchange α) (next : α → Exchange β) :
    (first >>= next).run transport state =
      match first.run transport state with
      | (.error e, later) => (.error e, later)
      | (.ok a, later) => (next a).run transport later := by
  induction first generalizing state with
  | done result => cases result <;> rfl
  | send request answered ih => exact ih _

theorem run_bind_ok {first : Exchange α} {next : α → Exchange β} {b : β} {later : σ}
    (ran : (first >>= next).run transport state = (.ok b, later)) :
    ∃ a middle, first.run transport state = (.ok a, middle) ∧
      (next a).run transport middle = (.ok b, later) := by
  rw [run_bind] at ran
  split at ran
  · cases ran
  · rename_i a middle done
    exact ⟨a, middle, done, ran⟩

theorem run_lift_bind_ok {checked : Except Error α} {next : α → Exchange β} {b : β} {later : σ}
    (ran : (liftM checked >>= next).run transport state = (.ok b, later)) :
    ∃ a, checked = .ok a ∧ (next a).run transport state = (.ok b, later) := by
  cases checked with
  | error e => cases ran
  | ok a => exact ⟨a, rfl, ran⟩

theorem run_bind_pure (first : Exchange α) (f : α → β) :
    (first >>= fun a => pure (f a)).run transport state =
      ((first.run transport state).1.map f, (first.run transport state).2) := by
  rw [run_bind]
  rcases first.run transport state with ⟨_ | _, _⟩ <;> rfl

theorem run_request (request : Request) (onFault : Fault → Error) :
    (Exchange.request request onFault).run transport state =
      match transport.deliver request state with
      | (.error fault, later) => (.error (onFault fault), later)
      | (.ok response, later) => (.ok response, later) := by
  simp only [Exchange.request, run]
  cases transport.deliver request state with
  | mk answer later => cases answer <;> rfl

theorem run_request_ok {request : Request} {onFault : Fault → Error} {response : Response}
    {later : σ} (ran : (Exchange.request request onFault).run transport state =
      (.ok response, later)) : transport.deliver request state = (.ok response, later) := by
  rw [run_request] at ran
  split at ran
  · cases ran
  · rename_i delivered
    cases ran
    exact delivered

def sent (transport : Transport σ) : Exchange α → σ → List (Request × Except Fault Response)
  | .done _, _ => []
  | .send request next, state =>
      let (answer, later) := transport.deliver request state
      (request, answer) :: (next answer).sent transport later

theorem sent_bind (first : Exchange α) (next : α → Exchange β) :
    (first >>= next).sent transport state = first.sent transport state ++
      match first.run transport state with
      | (.error _, _) => []
      | (.ok a, later) => (next a).sent transport later := by
  induction first generalizing state with
  | done result => cases result <;> rfl
  | send request answered ih =>
      simp only [sent, run, List.cons_append]
      exact congrArg _ (ih _)

theorem sent_bind_pure (first : Exchange α) (f : α → β) :
    (first >>= fun a => pure (f a)).sent transport state = first.sent transport state := by
  rw [sent_bind]
  rcases first.run transport state with ⟨_ | _, _⟩ <;> exact List.append_nil _

theorem sent_lift (result : Except Error α) : (liftM result : Exchange α).sent transport state = [] :=
  rfl

theorem sent_request (request : Request) (onFault : Fault → Error) :
    (Exchange.request request onFault).sent transport state =
      [(request, (transport.deliver request state).1)] := by
  simp only [Exchange.request, sent]
  cases (transport.deliver request state).1 <;> rfl

/-- Whether an exchange can send reading requests only. -/
def Reads : Exchange α → Prop
  | .done _ => True
  | .send request next => request.isReading = true ∧ ∀ answer, (next answer).Reads

theorem reads_lift (result : Except Error α) : (liftM result : Exchange α).Reads := trivial

theorem reads_request {request : Request} (reading : request.isReading = true)
    (onFault : Fault → Error) : (Exchange.request request onFault).Reads := by
  refine ⟨reading, fun answer => ?_⟩
  cases answer <;> trivial

theorem Reads.bind {first : Exchange α} {next : α → Exchange β} (firstReads : first.Reads)
    (nextReads : ∀ a, (next a).Reads) : (first >>= next).Reads := by
  induction first with
  | done result =>
      cases result with
      | error e => trivial
      | ok a => exact nextReads a
  | send request answered ih =>
      exact ⟨firstReads.1, fun answer => ih answer (firstReads.2 answer)⟩

/-- What reading requests leave alone is left alone by exchanges made of them. -/
theorem Reads.run_view (view : σ → τ)
    (still : ∀ request state, request.isReading = true →
      view (transport.deliver request state).2 = view state)
    {exchange : Exchange α} (reads : exchange.Reads) (state : σ) :
    view (exchange.run transport state).2 = view state := by
  induction exchange generalizing state with
  | done result => rfl
  | send request next ih =>
      simp only [run]
      exact (ih _ (reads.2 _) _).trans (still request state reads.1)

end Exchange

end HubKeeper.Http

import HubKeeper.Dns.Dialogue

/-!
Runs of composed dialogues.

A composed dialogue runs its first part, and the second part from the state and with
the result of the first.  Which calls a dialogue can make is read off its tree, for
all answers at once; what holds of every such call then holds of every run.
-/

namespace HubKeeper.Dns

namespace Call

/-- Calls that ask for something without changing it. -/
def isReading : Call → Bool
  | apply .. => false
  | _ => true

end Call

namespace Run

def followedBy (run : Run σ α) (next : α → σ → Run σ β) : Run σ β :=
  match run.result with
  | .error e => ⟨.error e, run.calls, run.state⟩
  | .ok a => { next a run.state with calls := run.calls ++ (next a run.state).calls }

theorem followedBy_result_ok_iff {run : Run σ α} {next : α → σ → Run σ β} :
    (run.followedBy next).result = .ok b ↔
      ∃ a, run.result = .ok a ∧ (next a run.state).result = .ok b := by
  unfold followedBy
  cases run.result with
  | error e => simp
  | ok a => simp

theorem followedBy_of_ok {run : Run σ α} {next : α → σ → Run σ β} (result : run.result = .ok a) :
    run.followedBy next =
      { next a run.state with calls := run.calls ++ (next a run.state).calls } := by
  simp only [followedBy, result]

theorem followedBy_of_error {run : Run σ α} {next : α → σ → Run σ β}
    (result : run.result = .error e) :
    run.followedBy next = ⟨.error e, run.calls, run.state⟩ := by
  simp only [followedBy, result]

end Run

namespace Dialogue

@[simp] theorem pure_eq (a : α) : (pure a : Dialogue α) = .done (.ok a) := rfl

@[simp] theorem lift_eq (result : Except Error α) : (liftM result : Dialogue α) = .done result := rfl

@[simp] theorem done_ok_bind (a : α) (next : α → Dialogue β) :
    (Dialogue.done (.ok a) >>= next) = next a := rfl

@[simp] theorem done_error_bind (e : Error) (next : α → Dialogue β) :
    (Dialogue.done (.error e) >>= next) = .done (.error e) := rfl

@[simp] theorem ask_bind (call : Call) (answered : call.Answer → Dialogue α)
    (next : α → Dialogue β) :
    (Dialogue.ask call answered >>= next) = .ask call fun answer => answered answer >>= next := rfl

@[simp] theorem run_done (service : Service σ) (result : Except Error α) (state : σ) :
    (Dialogue.done result).run service state = ⟨result, [], state⟩ := rfl

@[simp] theorem run_call (service : Service σ) (call : Call) (state : σ) :
    (Dialogue.call call).run service state =
      ⟨(service call state).1, [call], (service call state).2⟩ := by
  simp only [Dialogue.call, run]
  split <;> rename_i answered <;> simp [answered, Dialogue.ok]

theorem run_bind (service : Service σ) (first : Dialogue α) (next : α → Dialogue β) (state : σ) :
    (first >>= next).run service state =
      (first.run service state).followedBy fun a later => (next a).run service later := by
  induction first generalizing state with
  | done result => cases result <;> rfl
  | ask call answered ih =>
      rw [ask_bind]
      simp only [run]
      split
      · rfl
      · rename_i answer later _
        rw [ih answer later]
        cases result : ((answered answer).run service later).result <;>
          simp [Run.followedBy, result]

theorem bind_result_of_ok {service : Service σ} {first : Dialogue α} {next : α → Dialogue β}
    {state : σ} (done : (first.run service state).result = .ok a) :
    ((first >>= next).run service state).result =
      ((next a).run service (first.run service state).state).result := by
  rw [run_bind, Run.followedBy_of_ok done]

theorem lift_bind_result_ok_iff {service : Service σ} {checked : Except Error α}
    {next : α → Dialogue β} {state : σ} :
    ((liftM checked >>= next).run service state).result = .ok b ↔
      ∃ a, checked = .ok a ∧ ((next a).run service state).result = .ok b := by
  cases checked with
  | error e => simp
  | ok a => simp

/-- Whether every call that a dialogue can make is allowed. -/
def CallsOnly (allowed : Call → Prop) : Dialogue α → Prop
  | .done _ => True
  | .ask call next => allowed call ∧ ∀ answer, (next answer).CallsOnly allowed

@[simp] theorem callsOnly_done (allowed : Call → Prop) (result : Except Error α) :
    (Dialogue.done result).CallsOnly allowed := trivial

theorem callsOnly_lift (allowed : Call → Prop) (checked : Except Error α) :
    (liftM checked : Dialogue α).CallsOnly allowed := trivial

@[simp] theorem callsOnly_call {allowed : Call → Prop} {call : Call} :
    (Dialogue.call call).CallsOnly allowed ↔ allowed call := by
  simp [Dialogue.call, CallsOnly, Dialogue.ok]

theorem CallsOnly.bind {allowed : Call → Prop} {first : Dialogue α} {next : α → Dialogue β}
    (firstAllowed : first.CallsOnly allowed) (nextAllowed : ∀ a, (next a).CallsOnly allowed) :
    (first >>= next).CallsOnly allowed := by
  induction first with
  | done result =>
      cases result with
      | error e => trivial
      | ok a => exact nextAllowed a
  | ask call answered ih =>
      exact ⟨firstAllowed.1, fun answer => ih answer (firstAllowed.2 answer)⟩

/-- Calls that leave a view of the state of a service alone make runs that do. -/
theorem CallsOnly.run_view {allowed : Call → Prop} {service : Service σ} (view : σ → τ)
    (still : ∀ call state, allowed call → view (service call state).2 = view state)
    {dialogue : Dialogue α} (callsOnly : dialogue.CallsOnly allowed) (state : σ) :
    view (dialogue.run service state).state = view state := by
  induction dialogue generalizing state with
  | done result => rfl
  | ask call answered ih =>
      have unmoved := still call state callsOnly.1
      simp only [run]
      split
      · rename_i answer
        simpa [answer] using unmoved
      · rename_i answer later answerEq
        have same : view later = view state := by simpa [answerEq] using unmoved
        exact (ih answer (callsOnly.2 answer) later).trans same

theorem CallsOnly.run_state {allowed : Call → Prop} {service : Service σ}
    (still : ∀ call state, allowed call → (service call state).2 = state) {dialogue : Dialogue α}
    (callsOnly : dialogue.CallsOnly allowed) (state : σ) :
    (dialogue.run service state).state = state :=
  callsOnly.run_view id still state

end Dialogue

end HubKeeper.Dns

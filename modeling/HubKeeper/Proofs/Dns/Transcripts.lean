import HubKeeper.Proofs.Dns.Dialogues

/-!
What is said in a dialogue: its calls together with their answers.

A transcript is told without a service.  What holds of all transcripts of a dialogue
therefore holds whatever an account contains and wherever calls fail; every run with a
service has one.
-/

namespace HubKeeper.Dns

structure Exchange where
  call : Call
  answer : Except Error call.Answer

namespace Dialogue

/-- The exchanges in which a dialogue comes to a result. -/
inductive Transcript : Dialogue α → List Exchange → Except Error α → Prop
  | done (result : Except Error α) : Transcript (.done result) [] result
  | refused (call : Call) {next : call.Answer → Dialogue α} (e : Error) :
      Transcript (.ask call next) [⟨call, .error e⟩] (.error e)
  | answered (call : Call) {next : call.Answer → Dialogue α} (answer : call.Answer)
      (rest : Transcript (next answer) heard result) :
      Transcript (.ask call next) (⟨call, .ok answer⟩ :: heard) result

def exchanges (service : Service σ) : Dialogue α → σ → List Exchange
  | .done _, _ => []
  | .ask call next, state =>
      match service call state with
      | (.error e, _) => [⟨call, .error e⟩]
      | (.ok answer, state) => ⟨call, .ok answer⟩ :: (next answer).exchanges service state

theorem transcript_run (dialogue : Dialogue α) (service : Service σ) (state : σ) :
    dialogue.Transcript (dialogue.exchanges service state)
      (dialogue.run service state).result := by
  induction dialogue generalizing state with
  | done result => exact .done result
  | ask call next ih =>
      simp only [exchanges, run]
      cases answered : service call state with
      | mk answer later =>
          cases answer with
          | error e => exact .refused call e
          | ok answer => exact .answered call answer (ih answer later)

theorem run_calls (dialogue : Dialogue α) (service : Service σ) (state : σ) :
    (dialogue.run service state).calls =
      (dialogue.exchanges service state).map (·.call) := by
  induction dialogue generalizing state with
  | done result => rfl
  | ask call next ih =>
      simp only [exchanges, run]
      cases answered : service call state with
      | mk answer later =>
          cases answer with
          | error e => rfl
          | ok answer => simp only [ih answer later, List.map_cons]

/-! ### Parts of a transcript -/

variable {heard : List Exchange} {result : Except Error α} {dialogue first : Dialogue α}
variable {next : α → Dialogue β}

theorem Transcript.of_done (said : (Dialogue.done result).Transcript heard outcome) :
    heard = [] ∧ outcome = result := by
  cases said
  exact ⟨rfl, rfl⟩

theorem Transcript.of_call {call : Call} {answer : call.Answer}
    (said : (Dialogue.call call).Transcript heard (.ok answer)) :
    heard = [⟨call, .ok answer⟩] := by
  cases said with
  | answered _ _ rest =>
      obtain ⟨rfl, same⟩ := Transcript.of_done rest
      cases same
      rfl

theorem Transcript.of_bind {outcome : Except Error β}
    (said : (first >>= next).Transcript heard outcome) :
    (∃ e, first.Transcript heard (.error e) ∧ outcome = .error e) ∨
      ∃ a before after, heard = before ++ after ∧ first.Transcript before (.ok a) ∧
        (next a).Transcript after outcome := by
  induction first generalizing heard with
  | done result =>
      cases result with
      | error e =>
          obtain ⟨rfl, rfl⟩ := Transcript.of_done said
          exact .inl ⟨e, .done _, rfl⟩
      | ok a => exact .inr ⟨a, [], heard, rfl, .done _, said⟩
  | ask call answered ih =>
      rw [ask_bind] at said
      cases said with
      | refused _ e => exact .inl ⟨e, .refused call e, rfl⟩
      | answered _ answer rest =>
          rcases ih answer rest with ⟨e, failed, rfl⟩ | ⟨a, before, after, rfl, done, later⟩
          · exact .inl ⟨e, .answered call answer failed, rfl⟩
          · exact .inr ⟨a, _, after, rfl, .answered call answer done, later⟩

theorem Transcript.of_bind_ok {b : β} (said : (first >>= next).Transcript heard (.ok b)) :
    ∃ a before after, heard = before ++ after ∧ first.Transcript before (.ok a) ∧
      (next a).Transcript after (.ok b) := by
  rcases said.of_bind with ⟨e, _, failed⟩ | found
  · cases failed
  · exact found

theorem Transcript.of_lift_bind_ok {checked : Except Error α} {b : β}
    (said : ((liftM checked : Dialogue α) >>= next).Transcript heard (.ok b)) :
    ∃ a, checked = .ok a ∧ (next a).Transcript heard (.ok b) := by
  cases checked with
  | error e =>
      obtain ⟨_, failed⟩ := Transcript.of_done said
      cases failed
  | ok a => exact ⟨a, rfl, said⟩

/-! ### What holds of every transcript -/

theorem CallsOnly.transcript {allowed : Call → Prop} (callsOnly : dialogue.CallsOnly allowed)
    (said : dialogue.Transcript heard result) : ∀ exchange ∈ heard, allowed exchange.call := by
  induction said with
  | done result => exact List.forall_mem_nil _
  | refused call e => simpa using callsOnly.1
  | answered call answer _ ih => simpa using ⟨callsOnly.1, ih (callsOnly.2 answer)⟩

/-- Every call is answered in a state that looks like the first one, if none changes how the
state looks. -/
theorem CallsOnly.exchanges_answered {allowed : Call → Prop} {service : Service σ} (view : σ → τ)
    (still : ∀ call state, allowed call → view (service call state).2 = view state)
    (callsOnly : dialogue.CallsOnly allowed) (state : σ) :
    ∀ exchange ∈ dialogue.exchanges service state,
      ∃ present, view present = view state ∧ exchange.answer = (service exchange.call present).1 := by
  induction dialogue generalizing state with
  | done result => exact List.forall_mem_nil _
  | ask call next ih =>
      have unmoved := still call state callsOnly.1
      simp only [exchanges]
      split
      · rename_i e later answered
        simp only [List.forall_mem_cons, List.not_mem_nil, false_implies, implies_true, and_true]
        exact ⟨state, rfl, by rw [answered]⟩
      · rename_i answer later answered
        have same : view later = view state := by simpa [answered] using unmoved
        refine List.forall_mem_cons.mpr ⟨⟨state, rfl, by rw [answered]⟩, fun exchange member => ?_⟩
        obtain ⟨present, looks, answer⟩ := ih _ (callsOnly.2 _) later exchange member
        exact ⟨present, looks.trans same, answer⟩

/-- A call that fails is the last one, and its error is the result. -/
theorem Transcript.of_refused {call : Call} {e : Error}
    (said : dialogue.Transcript heard result) (refused : ⟨call, .error e⟩ ∈ heard) :
    result = .error e ∧ ∃ before, heard = before ++ [⟨call, .error e⟩] := by
  induction said with
  | done result => cases refused
  | refused other failure =>
      cases List.mem_singleton.mp refused
      exact ⟨rfl, [], rfl⟩
  | answered other answer _ ih =>
      rcases List.mem_cons.mp refused with here | later
      · cases here
      · obtain ⟨failed, before, split⟩ := ih later
        exact ⟨failed, _ :: before, by rw [split, List.cons_append]⟩

/-- Whether a dialogue ends with an error at once when it hears what is fatal. -/
def StopsAt (fatal : Exchange → Option Error) : Dialogue α → Prop
  | .done _ => True
  | .ask call next => ∀ answer,
      (∀ e, fatal ⟨call, .ok answer⟩ = some e → next answer = .done (.error e)) ∧
        (next answer).StopsAt fatal

variable {fatal : Exchange → Option Error}

theorem stopsAt_lift (fatal : Exchange → Option Error) (checked : Except Error α) :
    (liftM checked : Dialogue α).StopsAt fatal := trivial

theorem CallsOnly.stopsAt
    (callsOnly : dialogue.CallsOnly fun call => ∀ answer, fatal ⟨call, .ok answer⟩ = none) :
    dialogue.StopsAt fatal := by
  induction dialogue with
  | done result => trivial
  | ask call next ih =>
      intro answer
      refine ⟨fun e stops => ?_, ih answer (callsOnly.2 answer)⟩
      rw [callsOnly.1 answer] at stops
      cases stops

theorem StopsAt.bind (firstStops : first.StopsAt fatal) (nextStops : ∀ a, (next a).StopsAt fatal) :
    (first >>= next).StopsAt fatal := by
  induction first with
  | done result =>
      cases result with
      | error e => trivial
      | ok a => exact nextStops a
  | ask call answered ih =>
      intro answer
      obtain ⟨stops, later⟩ := firstStops answer
      refine ⟨fun e isFatal => ?_, ih answer later⟩
      show answered answer >>= next = _
      rw [stops e isFatal, done_error_bind]

theorem StopsAt.transcript (stopsAt : dialogue.StopsAt fatal)
    (said : dialogue.Transcript heard result) {exchange : Exchange} (member : exchange ∈ heard)
    {e : Error} (isFatal : fatal exchange = some e) (answered : exchange.answer.isOk = true) :
    result = .error e ∧ ∃ before, heard = before ++ [exchange] := by
  induction said with
  | done result => cases member
  | refused call failure =>
      cases List.mem_singleton.mp member
      cases answered
  | answered call answer rest ih =>
      obtain ⟨stops, later⟩ := stopsAt answer
      rcases List.mem_cons.mp member with rfl | member
      · rw [stops e isFatal] at rest
        obtain ⟨rfl, rfl⟩ := Transcript.of_done rest
        exact ⟨rfl, [], rfl⟩
      · obtain ⟨failed, before, split⟩ := ih later member
        exact ⟨failed, _ :: before, by rw [split, List.cons_append]⟩

end Dialogue

end HubKeeper.Dns

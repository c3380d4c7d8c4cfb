import HubKeeper.Proofs.Store.Memory

/-!
For which overrides a remembered snapshot was resolved.

The text of overrides tells them apart, so no snapshot takes the place of one for other overrides.
Whatever is done to the store and the files beside the provider, a snapshot that is got was resolved
for the very overrides that it is got for: by this get, or by a get or a refresh before it.
-/

namespace HubKeeper.Provider

/-- A call of the provider, or any change of its store and of the files by others. -/
inductive Act
  | call (event : Event)
  | beside (store : Store.State)

def act (provider : Provider) (state : State) : Act → State
  | .call event => provider.step state event
  | .beside store => { state with store := store }

def acted (provider : Provider) (start : State) (acts : List Act) : State :=
  acts.foldl provider.act start

/-- An act resolves overrides anew, to a snapshot. -/
inductive Resolves (provider : Provider) (state : State) (overrides : Overrides)
    (snapshot : Snapshot) : Act → Prop
  | got (forgotten : remembered? state overrides = none)
      (resolved : (provider.refresh state overrides.values).2.result = .ok snapshot) :
      Resolves provider state overrides snapshot (.call (.get overrides))
  | refreshed (resolved : (provider.refresh state overrides.values).2.result = .ok snapshot) :
      Resolves provider state overrides snapshot (.call (.refresh overrides))

/-- In a run, some act resolved the overrides to the snapshot. -/
def ResolvedIn (provider : Provider) (start : State) (acts : List Act) (overrides : Overrides)
    (snapshot : Snapshot) : Prop :=
  ∃ before act after, acts = before ++ act :: after ∧
    provider.Resolves (provider.acted start before) overrides snapshot act

variable {provider : Provider} {start state : State} {overrides other : Overrides}
variable {snapshot : Snapshot} {acts : List Act}

theorem memoryKey_eq_iff :
    memoryKey overrides.values = memoryKey other.values ↔ overrides = other :=
  ⟨memoryKey_injective, fun same => by rw [same]⟩

theorem acted_concat (acts : List Act) (act : Act) :
    provider.acted start (acts ++ [act]) = provider.act (provider.acted start acts) act :=
  List.foldl_concat ..

/-! ### What an act remembers -/

theorem remembered_of_refresh
    (found : remembered? (provider.refresh state other.values).1 overrides = some snapshot) :
    other = overrides ∧ (provider.refresh state overrides.values).2.result = .ok snapshot ∨
      remembered? state overrides = some snapshot := by
  rw [remembered?_refresh] at found
  split at found
  · exact .inr found
  · rename_i fresh resolved
    split at found
    · rename_i same
      subst same
      cases found
      exact .inl ⟨rfl, resolved⟩
    · exact .inr found

/-- An act remembers what it resolves, and nothing else that was not remembered before. -/
theorem remembered_of_act (act : Act)
    (found : remembered? (provider.act state act) overrides = some snapshot) :
    provider.Resolves state overrides snapshot act ∨
      remembered? state overrides = some snapshot := by
  cases act with
  | beside store => exact .inr found
  | call event =>
      cases event with
      | get other =>
          simp only [Provider.act, step] at found
          cases known : remembered? state other with
          | some earlier =>
              rw [get_of_remembered provider known] at found
              exact .inr found
          | none =>
              rw [get_of_forgotten provider known] at found
              rcases remembered_of_refresh found with ⟨rfl, resolved⟩ | before
              · exact .inl (.got known resolved)
              · exact .inr before
      | refresh other =>
          rcases remembered_of_refresh found with ⟨rfl, resolved⟩ | before
          · exact .inl (.refreshed resolved)
          · exact .inr before
      | clear =>
          have none : remembered? state.clear overrides = none := Dict.get?_empty
          cases none.symm.trans found
      | set path value =>
          simp only [Provider.act, step] at found
          cases done : (provider.set state path value).2 with
          | error e =>
              rw [remembered?, (set_error done).1] at found
              exact .inr found
          | ok _ =>
              rw [remembered?, forgotten_of_set done, Dict.get?_empty] at found
              cases found
      | elsewhere files => exact .inr found

/-! ### Runs -/

theorem ResolvedIn.later (resolved : provider.ResolvedIn start acts overrides snapshot)
    (act : Act) : provider.ResolvedIn start (acts ++ [act]) overrides snapshot := by
  obtain ⟨before, source, after, rfl, resolves⟩ := resolved
  exact ⟨before, source, after ++ [act], by simp, resolves⟩

theorem Resolves.last {act : Act}
    (resolves : provider.Resolves (provider.acted start acts) overrides snapshot act) :
    provider.ResolvedIn start (acts ++ [act]) overrides snapshot :=
  ⟨acts, act, [], rfl, resolves⟩

theorem resolvedIn_of_remembered (empty : start.memory = .empty)
    (found : remembered? (provider.acted start acts) overrides = some snapshot) :
    provider.ResolvedIn start acts overrides snapshot := by
  induction acts using List.reverseRecOn with
  | nil =>
      rw [acted, List.foldl_nil, remembered?, empty, Dict.get?_empty] at found
      cases found
  | append_singleton acts act ih =>
      rw [acted_concat] at found
      rcases remembered_of_act act found with resolves | before
      · exact resolves.last
      · exact (ih before).later act

/-- Overrides have one text only if they are the same, and in any run from an empty memory a
snapshot that is got was resolved for the overrides it is got for. -/
theorem got_of_same_overrides (provider : Provider) (start : State) (acts : List Act)
    (empty : start.memory = .empty) :
    (∀ overrides other : Overrides,
      memoryKey overrides.values = memoryKey other.values ↔ overrides = other) ∧
    ∀ overrides snapshot,
      (provider.get (provider.acted start acts) overrides.values).2.result = .ok snapshot →
        provider.ResolvedIn start (acts ++ [.call (.get overrides)]) overrides snapshot := by
  constructor
  case left =>
    intro overrides other
    exact memoryKey_eq_iff
  case right =>
    intro overrides snapshot found
    cases known : remembered? (provider.acted start acts) overrides with
    | some earlier =>
        rw [get_of_remembered provider known] at found
        cases found
        exact (resolvedIn_of_remembered empty known).later _
    | none =>
        rw [get_of_forgotten provider known] at found
        exact (Resolves.got known found).last

/-! ### Two overrides -/

def namedOverrides : Overrides := ⟨.insert .empty "a" (.str "own"), rfl⟩

def readState : State := ⟨⟨.empty, some ⟨oldDocument, .loaded⟩⟩, .empty⟩

def bothGot : List Act := [.call (.get noOverrides), .call (.get namedOverrides)]

section Refreshing

variable (present : state.store.copy = some ⟨oldDocument, .loaded⟩)

include present

theorem refresh_noOverrides :
    (longNamed.refresh state noOverrides.values).2.result = .ok (snapshotOf "old") := by
  have resolved := oldDocument_resolved longName ("settings document " ++ longName)
  rw [(refresh_of_copy _ present noOverrides).2, resolution, longNamed, soleSetting_readLayers]
  simp only [List.cons_append, List.nil_append, soleSetting_path, resolved]
  rfl

theorem refresh_namedOverrides :
    (longNamed.refresh state namedOverrides.values).2.result = .ok (snapshotOf "own") := by
  have layers : longNamed.readLayers state.store.files namedOverrides.values =
      .ok [⟨"call-time overrides", namedOverrides.values⟩, ⟨"environment", .empty⟩] := rfl
  have resolved : ∀ path name, (soleSetting path).store.schema.resolve (soleSetting path).probe
      [⟨"call-time overrides", namedOverrides.values⟩, ⟨"environment", .empty⟩,
        ⟨name, oldDocument.entries⟩] = .ok (snapshotOf "own") := by
    intro path name
    cbv
  rw [(refresh_of_copy _ present namedOverrides).2, resolution, layers]
  simp only [List.cons_append, List.nil_append, longNamed, resolved]
  rfl

end Refreshing

theorem namedOverrides_ne : namedOverrides ≠ noOverrides := by
  decide

theorem readState_present : readState.store.copy = some ⟨oldDocument, .loaded⟩ := rfl

theorem readState_forgotten (overrides : Overrides) : remembered? readState overrides = none :=
  Dict.get?_empty

theorem bothGot_remembered :
    remembered? (longNamed.acted readState bothGot) noOverrides = some (snapshotOf "old") ∧
      remembered? (longNamed.acted readState bothGot) namedOverrides =
        some (snapshotOf "own") := by
  have fresh := refresh_noOverrides readState_present
  have present := congrArg Store.State.copy
    (refresh_of_copy longNamed readState_present noOverrides).1
  have known := remembered?_refresh longNamed readState noOverrides noOverrides
  have unknown := remembered?_refresh longNamed readState noOverrides namedOverrides
  have run : longNamed.acted readState bothGot =
      longNamed.act (longNamed.refresh readState noOverrides.values).1
        (.call (.get namedOverrides)) := by
    simp only [bothGot, acted, List.foldl_cons, List.foldl_nil, Provider.act, step,
      get_of_forgotten longNamed (readState_forgotten noOverrides)]
  rw [run]
  -- All that counts of the first get is what it remembers and that the document stays.
  generalize (longNamed.refresh readState noOverrides.values).1 = first at *
  simp only [fresh, if_true, if_neg namedOverrides_ne.symm, readState_forgotten] at known unknown
  have own := refresh_namedOverrides (present.trans readState_present)
  simp only [Provider.act, step, get_of_forgotten longNamed unknown, remembered?_refresh, own,
    if_neg namedOverrides_ne, if_true, known, and_self]

/-- Each snapshot is got for its own overrides. -/
theorem bothGot_resolved :
    readState.memory = .empty ∧
      (longNamed.get (longNamed.acted readState bothGot) noOverrides.values).2.result =
        .ok (snapshotOf "old") ∧
      (longNamed.get (longNamed.acted readState bothGot) namedOverrides.values).2.result =
        .ok (snapshotOf "own") ∧
      longNamed.ResolvedIn readState (bothGot ++ [.call (.get noOverrides)]) noOverrides
        (snapshotOf "old") ∧
      longNamed.ResolvedIn readState (bothGot ++ [.call (.get namedOverrides)]) namedOverrides
        (snapshotOf "own") := by
  obtain ⟨old, own⟩ := bothGot_remembered
  have oldGot : (longNamed.get (longNamed.acted readState bothGot) noOverrides.values).2.result =
      .ok (snapshotOf "old") := by
    rw [get_of_remembered longNamed old]
    rfl
  have ownGot : (longNamed.get (longNamed.acted readState bothGot)
      namedOverrides.values).2.result = .ok (snapshotOf "own") := by
    rw [get_of_remembered longNamed own]
    rfl
  exact ⟨rfl, oldGot, ownGot, (got_of_same_overrides longNamed readState bothGot rfl).2 _ _ oldGot,
    (got_of_same_overrides longNamed readState bothGot rfl).2 _ _ ownGot⟩

end HubKeeper.Provider

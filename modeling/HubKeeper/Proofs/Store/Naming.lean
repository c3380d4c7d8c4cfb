import HubKeeper.Proofs.Settings.Completeness
import HubKeeper.Proofs.Settings.Refusal
import HubKeeper.Proofs.Store.Storing
import HubKeeper.Store.Provider

/-!
Only overrides can name a setting that is not declared.

A store reads, seeds, edits and saves documents with settings of its schema only, so all
that it writes and the layer that it supplies name declared settings.  The other sources
pass over unknown names.  What is refused for its name is therefore an override.
-/

namespace HubKeeper

namespace SettingsDocument

variable {document : SettingsDocument} {schema : Schema}

/-- A document has settings of the schema only, and so has what is read for its text where
the text keeps the values. -/
structure NamesDeclared (schema : Schema) (document : SettingsDocument) : Prop where
  entries : schema.Declares document.entries
  again : document.KeepsValues →
    ∃ again : SettingsDocument, Toml.Document.parse? document.text = some again ∧
      schema.Declares again.entries

theorem namesDeclared (known : document.unknownKeys schema = []) :
    NamesDeclared schema document := by
  have entries : schema.Declares document.entries :=
    Schema.declares_iff.mpr (unknownKeys_eq_nil_iff_entries.mp known)
  refine ⟨entries, ?_⟩
  rintro ⟨again, parsed, same⟩
  exact ⟨again, parsed, (entries_of_values same).symm ▸ entries⟩

end SettingsDocument

namespace Store

open SettingsDocument (NamesDeclared)

variable {store : Store} {state : State} {files : FileTree}

/-- What a store makes of the files: it leaves them alone, or puts a document with declared
settings at its path. -/
inductive Rewrites (store : Store) (files : FileTree) : FileTree → Prop
  | nothing : Rewrites store files files
  | document (declared : NamesDeclared store.schema document) :
      Rewrites store files (files.replaceText store.path document.text).1

theorem flush_rewrites (declared : store.Declared state) :
    store.Rewrites state.files (store.flush state).1.files := by
  unfold flush
  split
  · rename_i document present
    have written :
        store.Rewrites state.files (state.files.replaceText store.path document.text).1 :=
      .document (SettingsDocument.namesDeclared (declared _ present))
    split <;> (rename_i replaced; rwa [replaced] at written)
  · exact .nothing

theorem save_rewrites (document : SettingsDocument) :
    store.Rewrites state.files (store.save state document).1.files := by
  unfold save
  split
  · exact .nothing
  · rename_i known
    have written :
        store.Rewrites state.files (state.files.replaceText store.path document.text).1 :=
      .document (SettingsDocument.namesDeclared (checkNames_ok.mp known))
    split <;> (rename_i replaced; rwa [replaced] at written)

section

variable (seeded : SeedsDeclared store.schema)

include seeded

theorem readOrSeed_rewrites : store.Rewrites files (store.readOrSeed files).1 := by
  unfold readOrSeed
  split
  · exact .nothing
  · unfold seed
    split
    · exact .nothing
    · rename_i generated
      have written : store.Rewrites files (files.replaceText store.path _).1 :=
        .document (SettingsDocument.namesDeclared (seeded _ generated))
      split <;> (rename_i replaced; rwa [replaced] at written)
  · exact .nothing

theorem access_rewrites : store.Rewrites state.files (store.access state).1.files := by
  unfold access
  split
  · exact .nothing
  · have written : store.Rewrites state.files _ := readOrSeed_rewrites seeded
    split <;> (rename_i read; rwa [read] at written)

theorem set_rewrites (text : String) (raw : Json) :
    store.Rewrites state.files (store.set state text raw).1.files := by
  have accessed : store.Rewrites state.files (store.access state).1.files := access_rewrites seeded
  cases result : store.set state text raw with
  | mk after outcome =>
      cases outcome with
      | error e =>
          rcases set_failed result with rfl | rfl
          · exact .nothing
          · exact accessed
      | ok _ =>
          obtain ⟨_, _, _, _, _, _, found, _, rfl⟩ := set_ok result
          rwa [found] at accessed

/-- Whatever is asked of a store, it writes declared settings only. -/
theorem perform_rewrites (operation : Operation) (declared : store.Declared state) :
    store.Rewrites state.files (store.perform state operation).1.files := by
  have observed {α : Type} (view : SettingsDocument → α) :
      store.Rewrites state.files (store.observe state view).1.files :=
    (observe_state view).symm ▸ access_rewrites seeded
  cases operation with
  | load => exact observed id
  | layer => exact observed fun document => Layer.mk _ document.entries
  | get text =>
      simp only [perform, get]
      cases SettingPath.parse store.schema text with
      | error e => exact .nothing
      | ok path => exact observed fun document => document.get? path
  | set text raw => exact set_rewrites seeded text raw
  | flush => exact flush_rewrites declared
  | save document => exact save_rewrites document
  | clear | reopen => exact .nothing

theorem layer_declares {layer : Layer} (declared : store.Declared state)
    (read : (store.layer state).2 = .ok layer) : store.schema.Declares layer.values := by
  have accessed := access_declared seeded declared
  unfold Store.layer observe at read
  split at read
  · cases read
  · rename_i found
    cases read
    rw [found] at accessed
    exact (SettingsDocument.namesDeclared (accessed _ (access_ok found))).entries

end

end Store

namespace Provider

variable {provider : Provider} {state after : State} {overrides : Dict Json} {layers : List Layer}

/-- The layer of a file or directory, if the provider has one. -/
def optionalLayer (source : Option String) (read : String → Except Error Layer) :
    Except Error (List Layer) :=
  match source with
  | some path => (read path).map fun layer => [layer]
  | none => .ok []

theorem readLayers_eq (provider : Provider) (files : FileTree) (overrides : Dict Json) :
    provider.readLayers files overrides = do
      let schema := provider.store.schema
      let dotenv ← optionalLayer provider.dotenvFile fun path =>
        FileSources.dotenv files provider.surrounding path provider.dotenvLead schema
      let secrets ← optionalLayer provider.secretsDir fun path =>
        FileSources.secrets files path schema
      return ⟨"call-time overrides", overrides⟩ ::
        Environment.layer schema provider.lead provider.vars :: dotenv ++ secrets := by
  unfold readLayers
  cases provider.dotenvFile <;> cases provider.secretsDir <;> rfl

theorem optionalLayer_declares {schema : Schema} {source : Option String}
    {read : String → Except Error Layer}
    (declares : ∀ path layer, read path = .ok layer → schema.Declares layer.values)
    (given : optionalLayer source read = .ok layers) :
    ∀ layer ∈ layers, schema.Declares layer.values := by
  cases source with
  | none =>
      cases given
      exact List.forall_mem_nil _
  | some path =>
      unfold optionalLayer at given
      cases found : read path with
      | error e => simp [found, Except.map] at given
      | ok layer =>
          simp only [found, Except.map, Except.ok.injEq] at given
          subst given
          exact List.forall_mem_singleton.mpr (declares path layer found)

/-- Below the overrides there are only sources that pass over unknown names. -/
theorem readLayers_declares {files : FileTree}
    (read : provider.readLayers files overrides = .ok layers) :
    ∃ sources, layers = ⟨"call-time overrides", overrides⟩ :: sources ∧
      ∀ layer ∈ sources, provider.store.schema.Declares layer.values := by
  rw [readLayers_eq] at read
  simp only [bind, Except.bind] at read
  split at read
  · cases read
  · rename_i dotenv fromDotenv
    split at read
    · cases read
    · rename_i secrets fromSecrets
      cases read
      have environment :=
        Environment.values_declares provider.store.schema provider.lead provider.vars
      have fromFiles := List.forall_mem_append.mpr
        ⟨optionalLayer_declares (fun _ _ => FileSources.dotenv_declares) fromDotenv,
          optionalLayer_declares (fun _ _ => FileSources.secrets_declares) fromSecrets⟩
      exact ⟨_, rfl, List.forall_mem_cons.mpr ⟨environment, fromFiles⟩⟩

theorem layers_declares (seeded : Store.SeedsDeclared provider.store.schema)
    (declared : provider.store.Declared state.store)
    (read : provider.layers state overrides = (after, .ok layers)) :
    ∃ sources, layers = ⟨"call-time overrides", overrides⟩ :: sources ∧
      ∀ layer ∈ sources, provider.store.schema.Declares layer.values := by
  unfold Provider.layers at read
  split at read
  · cases read
  · rename_i first
    split at read
    · cases read
    · rename_i document last
      cases read
      obtain ⟨sources, rfl, named⟩ := readLayers_declares first
      refine ⟨sources ++ [document], rfl, List.forall_mem_append.mpr ⟨named, ?_⟩⟩
      exact List.forall_mem_singleton.mpr
        (Store.layer_declares seeded declared (congrArg Prod.snd last))

/-- Whatever has been done to a store whose settings have bare keys for names, it writes
declared settings only.  All layers below the overrides name declared settings only.  So
resolution refuses the first override that is not declared, even if it is null, and fails
on an unknown name otherwise only if the rule or the normalizer of a setting does.
Constants are integers of 64 bits, or of another kind. -/
theorem only_overrides_undeclared {settings : List Setting} (provider : Provider)
    (accepted : Schema.build settings = .ok provider.store.schema)
    (bare : ∀ setting ∈ settings, Toml.IsBareKey setting.name)
    (fits : ∀ setting ∈ settings, ∀ value, setting.rule = .constant value → value.Fits)
    (files : FileTree) (past : List Store.Event) :
    let schema := provider.store.schema
    let before := provider.store.after (.fresh files) past
    (∀ operation, provider.store.Rewrites before.files
      (provider.store.perform before operation).1.files) ∧
    ∀ memory overrides after layers,
      provider.layers ⟨before, memory⟩ overrides = (after, .ok layers) →
        ∃ sources, layers = ⟨"call-time overrides", overrides⟩ :: sources ∧
          (∀ layer ∈ sources, schema.Declares layer.values) ∧
          (∀ name, overrides.keys.find? (fun name => !schema.contains name) = some name →
            schema.resolve provider.probe layers = .error (.unknownSetting name
              "supplied by call-time overrides but not a known setting")) ∧
          ((∃ name hint, (schema.resolve provider.probe layers).result =
              .error (.unknownSetting name hint)) ↔
            (∃ name ∈ overrides.keys, schema.contains name = false) ∨
              ∃ name hint, schema.Raises provider.probe layers (.unknownSetting name hint)) ∧
          ((∀ setting ∈ settings, setting.Quiet provider.probe) →
            ((∃ name hint, (schema.resolve provider.probe layers).result =
                .error (.unknownSetting name hint)) ↔
              ∃ name ∈ overrides.keys, schema.contains name = false)) := by
  have wellOrdered := Schema.build_wellOrdered accepted
  have same := Schema.build_settings accepted
  have seeded : Store.SeedsDeclared provider.store.schema :=
    Store.seedsDeclared_of_bare (same ▸ bare) (same ▸ fits) wellOrdered.distinct
  have fresh : provider.store.Declared (.fresh files) := nofun
  have declared := Store.after_declared seeded past fresh
  refine ⟨fun operation => Store.perform_rewrites seeded operation declared, ?_⟩
  intro memory overrides after layers read
  obtain ⟨sources, rfl, named⟩ := layers_declares seeded declared read
  refine ⟨sources, rfl, named, fun name found => Schema.resolve_undeclared named found,
    Schema.resolve_unknown_iff named, fun quiet => ?_⟩
  refine Schema.resolve_unknown_iff_of_quiet named fun setting member => quiet setting ?_
  exact same ▸ wellOrdered.complete.mem_iff.mp member

/-- A provider of the hub's settings, in an environment with a misspelled name. -/
def hubProvider (schema : Schema) : Provider where
  store := ⟨"hub", schema⟩
  probe := .fixed none none
  vars := [("HUB_DNS_TTL", "60"), ("HUB_DNS_TLL", "60")]
  lead := "HUB_"
  dotenvFile := none
  dotenvLead := "HUB_"
  secretsDir := none
  surrounding := .empty

def misspelled : Dict Json :=
  ⟨[("dns_tll", .null)], by decide⟩

theorem hubProvider_layers (schema : Schema) :
    ∃ after layers, (hubProvider schema).layers
      ⟨(hubProvider schema).store.after (.fresh .empty) [.operation (.save ⟨[], []⟩)], .empty⟩
        misspelled = (after, .ok layers) := by
  have known : (hubProvider schema).store.checkNames ⟨[], []⟩ = .ok () := rfl
  have replaced : ∀ text, FileTree.empty.replaceText "hub" text =
      (FileTree.empty.put ["hub"] (.file text.toUTF8 FileTree.ownerOnly), .ok ()) :=
    fun _ => rfl
  have path : (hubProvider schema).store.path = "hub" := rfl
  simp only [Store.after, Store.step, Store.perform, Store.save, known, Store.State.fresh, path,
    replaced]
  exact ⟨_, _, rfl⟩

theorem integers_fit : ∀ setting ∈ Hub.settings, (match setting.rule with
    | .constant (.integer n) => Number.fitsInt64 n
    | _ => true) = true := by
  decide

/-- The misspelled variable is passed over, the misspelled override is refused. -/
theorem hubProvider_refuses :
    ∃ schema after layers, Hub.schema = .ok schema ∧
      (hubProvider schema).layers
        ⟨(hubProvider schema).store.after (.fresh .empty) [.operation (.save ⟨[], []⟩)], .empty⟩
          misspelled = (after, .ok layers) ∧
      ∃ name hint, (schema.resolve (hubProvider schema).probe layers).result =
        .error (.unknownSetting name hint) := by
  obtain ⟨schema, accepted⟩ := Hub.exists_schema
  obtain ⟨after, layers, read⟩ := hubProvider_layers schema
  have bare : ∀ setting ∈ Hub.settings, Toml.IsBareKey setting.name := by decide
  have fits : ∀ setting ∈ Hub.settings, ∀ value, setting.rule = .constant value → value.Fits := by
    intro setting member value rule n same
    have inRange := integers_fit setting member
    simpa only [rule, same] using inRange
  have undeclared : schema.contains "dns_tll" = false := by
    rw [Bool.eq_false_iff, ne_eq, Schema.contains_iff, Schema.names, Schema.build_settings accepted]
    decide
  obtain ⟨sources, _, _, _, _, refused⟩ := (only_overrides_undeclared (hubProvider schema) accepted
    bare fits .empty [.operation (.save ⟨[], []⟩)]).2 .empty misspelled after layers read
  have quiet := Hub.settings_quiet (HostProbe.namesKnown_fixed none none)
  exact ⟨schema, after, layers, accepted, read, (refused quiet).mpr
    ⟨"dns_tll", List.mem_singleton_self _, undeclared⟩⟩

end Provider

end HubKeeper

import HubKeeper.Proofs.Document.Editing
import HubKeeper.Proofs.Document.Legibility
import HubKeeper.Proofs.Document.Seeding
import HubKeeper.Proofs.Settings.Coercion
import HubKeeper.Proofs.Store.Lasting
import HubKeeper.Proofs.Store.Simulation

/-!
What is stored is what is resolved.

A raw value is stored as the typed value that it is coerced to.  The entry of the
setting is coerced to that value again, in the working copy and in the file that it was
written to, whatever stood there before and whatever had been done to the store.
-/

namespace HubKeeper.Store

open SettingsDocument (canonical nodeOf)

variable {store : Store} {state after accessed : State} {files : FileTree}

/-! ### Declared settings -/

/-- The working copy holds settings of the schema only. -/
def Declared (store : Store) (state : State) : Prop :=
  ∀ copy, state.copy = some copy → copy.document.unknownKeys store.schema = []

/-- The document that is generated for the schema, if there is one, holds settings of the
schema only. -/
def SeedsDeclared (schema : Schema) : Prop :=
  ∀ document, canonical schema = .ok document → document.unknownKeys schema = []

/-- Reading, generating and editing a document bring in no setting that is not declared. -/
theorem lasts_declared (seeded : SeedsDeclared store.schema) :
    store.Lasts fun document => document.unknownKeys store.schema = [] where
  seeded := seeded
  read _ _ read := (readDocument_ok.mp read).2
  edited _ _ _ _ _ _ checked edited known := by
    obtain ⟨_, setting, found, _⟩ := checked_ok checked
    exact SettingsDocument.unknownKeys_set edited (by rw [Schema.contains, found]; rfl) known

theorem access_declared (seeded : SeedsDeclared store.schema) (declared : store.Declared state) :
    store.Declared (store.access state).1 :=
  (lasts_declared seeded).access declared

theorem after_declared (seeded : SeedsDeclared store.schema) (events : List Event)
    (declared : store.Declared state) : store.Declared (store.after state events) :=
  (lasts_declared seeded).after events (fun _ _ known => checkNames_ok.mp known) declared

/-- A document that is generated for names that are bare keys holds settings of the schema
only, whatever the descriptions say. -/
theorem seedsDeclared_of_bare {schema : Schema}
    (bare : ∀ setting ∈ schema.settings, Toml.IsBareKey setting.name)
    (fits : ∀ setting ∈ schema.settings, ∀ value, setting.rule = .constant value → value.Fits)
    (distinct : schema.names.Nodup) : SeedsDeclared schema := by
  intro document generated
  have legible := SettingsDocument.legible_of_canonical generated bare fits
  obtain ⟨made, same, entries⟩ := SettingsDocument.canonical_of_legible schema legible distinct
  obtain rfl : made = document := Except.ok.inj (same.symm.trans generated)
  rw [SettingsDocument.unknownKeys_eq_nil_iff_entries, entries]
  intro name present
  obtain ⟨json, found⟩ := Option.isSome_iff_exists.mp present
  exact SettingsDocument.contains_of_written distinct found

theorem seedsDeclared {schema : Schema}
    (documentable : ∀ setting ∈ schema.settings, SettingsDocument.Documentable setting)
    (distinct : schema.names.Nodup) : SeedsDeclared schema :=
  seedsDeclared_of_bare (fun setting member => (documentable setting member).name)
    (fun setting member => (documentable setting member).fits) distinct

/-! ### Stored values -/

/-- A document has at a path what a raw value stands for: the typed value it is coerced to,
or at a key of a map its text. -/
def Represents (document : SettingsDocument) (setting : Setting) (path : SettingPath)
    (raw : Json) : Prop :=
  match path.key with
  | none => ∃ found value, document.entries.get? path.setting = some found ∧
      setting.kind.coerce? raw = some value ∧ setting.kind.coerce? found = some value
  | some _ => ∃ content, raw.scalarText? = some content ∧ document.get? path = some (.str content)

/-- What is read from a store at a path is what a raw value stands for. -/
def Resolves (store : Store) (state : State) (text : String) (raw : Json) : Prop :=
  ∃ path setting, SettingPath.parse store.schema text = .ok path ∧
    store.schema.get? path.setting = some setting ∧
    match path.key with
    | none => ∃ layer found value, (store.layer state).2 = .ok layer ∧
        layer.values.get? path.setting = some found ∧
        setting.kind.coerce? raw = some value ∧ setting.kind.coerce? found = some value
    | some _ => ∃ content, raw.scalarText? = some content ∧
        (store.get state text).2 = .ok (some (.str content))

/-- The raw value is not a float without a JSON form. -/
def StoresFinite (store : Store) (text : String) (raw : Json) : Prop :=
  ∀ path setting value, SettingPath.parse store.schema text = .ok path →
    store.schema.get? path.setting = some setting → setting.kind.coerce? raw = some value →
      value.IsFinite

theorem stored_ok {setting : Setting} {path : SettingPath} {raw : Json} {typed : Option Value}
    (present : raw.isNull = false) (typedFor : stored setting path raw = .ok typed) :
    match path.key with
    | none => ∃ value, setting.kind.coerce? raw = some value ∧ typed = some value
    | some _ => ∃ content, raw.scalarText? = some content ∧ typed = some (.text content) := by
  unfold stored at typedFor
  rw [present, if_neg Bool.false_ne_true] at typedFor
  cases key : path.key with
  | none =>
      rw [key] at typedFor
      simp only [Option.isSome_none, if_neg Bool.false_ne_true, Kind.coerce] at typedFor
      cases coerced : setting.kind.coerce? raw with
      | none =>
          rw [coerced] at typedFor
          cases typedFor
      | some value =>
          rw [coerced] at typedFor
          cases typedFor
          exact ⟨value, rfl, rfl⟩
  | some key =>
      rw [key] at typedFor
      simp only [Option.isSome_some, if_true] at typedFor
      cases text : raw.scalarText? with
      | none =>
          rw [text] at typedFor
          cases typedFor
      | some content =>
          rw [text] at typedFor
          cases typedFor
          exact ⟨content, rfl, rfl⟩

theorem represents_set {setting : Setting} {path : SettingPath} {raw : Json} {typed : Option Value}
    {document changed : SettingsDocument} (present : raw.isNull = false)
    (finite : ∀ value, setting.kind.coerce? raw = some value → value.IsFinite)
    (typedFor : stored setting path raw = .ok typed)
    (edited : document.set path (typed.map nodeOf) = .ok changed) :
    Represents changed setting path raw := by
  have typedFor := stored_ok present typedFor
  obtain ⟨name, key⟩ := path
  cases key with
  | none =>
      obtain ⟨value, coerced, rfl⟩ := typedFor
      have found := SettingsDocument.entries_set edited
      rw [SettingsDocument.toJson_nodeOf] at found
      have again := Kind.coerce?_toJson (Kind.fits_of_coerce? coerced) (finite value coerced)
      rw [Kind.kind_of_coerce? coerced] at again
      exact ⟨value.toJson, value, found, coerced, again⟩
  | some key =>
      obtain ⟨content, text, rfl⟩ := typedFor
      have found := SettingsDocument.get?_set edited
      rw [SettingsDocument.toJson_nodeOf] at found
      exact ⟨content, text, found⟩

theorem Represents.resolves {text : String} {raw : Json} {path : SettingPath} {setting : Setting}
    (parsed : SettingPath.parse store.schema text = .ok path)
    (known : store.schema.get? path.setting = some setting)
    (found : store.access state = (accessed, .ok copy))
    (represents : Represents copy.document setting path raw) : store.Resolves state text raw := by
  refine ⟨path, setting, parsed, known, ?_⟩
  unfold Represents at represents
  cases key : path.key with
  | none =>
      rw [key] at represents
      obtain ⟨json, value, held, same⟩ := represents
      exact ⟨_, json, value, by rw [layer, observe, found], held, same⟩
  | some key =>
      rw [key] at represents
      obtain ⟨content, scalar, held⟩ := represents
      refine ⟨content, scalar, ?_⟩
      simp only [get, parsed, observe, found, held]

/-- A document with the same values has the same at every path. -/
theorem Represents.of_values {document again : SettingsDocument} {setting : Setting}
    {path : SettingPath} {raw : Json} (represents : Represents document setting path raw)
    (same : ∀ names, again.value? names = document.value? names) :
    Represents again setting path raw := by
  unfold Represents at represents ⊢
  rwa [SettingsDocument.entries_of_values same, SettingsDocument.get?_of_values same]

/-- A document that was written is read again. -/
theorem access_written {document again : SettingsDocument}
    (written : files.readText store.path = .ok document.text)
    (parsed : Toml.Document.parse? document.text = some again)
    (known : again.unknownKeys store.schema = []) :
    store.access (.fresh files) = (⟨files, some ⟨again, .loaded⟩⟩, .ok ⟨again, .loaded⟩) := by
  simp only [access, State.fresh, readOrSeed, written, readDocument_ok.mpr ⟨parsed, known⟩]

/-- The document in use holds settings of the schema only. -/
def InUseDeclared (store : Store) (state : State) : Prop :=
  ∀ copy, (store.access state).2 = .ok copy → copy.document.unknownKeys store.schema = []

/-- A raw value that was set is read from the store as what it stands for, by then and
after the document has been written and opened again.  The document can be opened again
unless it was generated with a setting that the schema does not declare. -/
theorem stored_resolves (store : Store) (files : FileTree) (past : List Event) (text : String)
    (raw : Json) (after : State) (present : raw.isNull = false)
    (finite : store.StoresFinite text raw)
    (accepted : store.set (store.after (.fresh files) past) text raw = (after, .ok ())) :
    store.Resolves after text raw ∧
      (SeedsDeclared store.schema ∨ store.InUseDeclared (store.after (.fresh files) past) →
        (∀ copy, after.copy = some copy → copy.document.KeepsValues) →
          ∀ flushed, store.flush after = (flushed, .ok true) →
            store.Resolves (.fresh flushed.files) text raw) := by
  obtain ⟨path, typed, accessed, copy, changed, checked, found, edited, rfl⟩ := set_ok accepted
  obtain ⟨parsed, setting, known, typedFor⟩ := checked_ok checked
  have represents := represents_set present
    (fun value => finite path setting value parsed known) typedFor edited
  refine ⟨represents.resolves parsed known rfl, ?_⟩
  intro declared keeps flushed wrote
  have before : copy.document.unknownKeys store.schema = [] := by
    rcases declared with seeded | inUse
    · have fresh : store.Declared (.fresh files) := nofun
      have reached := access_declared seeded (after_declared seeded past fresh)
      rw [found] at reached
      exact reached copy (access_ok found)
    · exact inUse copy (by rw [found])
  have stays := SettingsDocument.unknownKeys_set edited (by rw [Schema.contains, known]; rfl) before
  obtain ⟨again, reparsed, same⟩ := keeps ⟨changed, .dirty⟩ rfl
  simp only [flush] at wrote
  split at wrote
  · cases wrote
  · rename_i replaced
    cases wrote
    exact (represents.of_values same).resolves parsed known
      (access_written (FileTree.replaceText_ok replaced) reparsed
        (SettingsDocument.unknownKeys_of_values same stays))

def urlDocument (text : String) (spelling : Option Toml.Raw) : SettingsDocument where
  root :=
    [(⟨"hub", some "hub".toList, .tight, .tight⟩,
      .table
        [(⟨"url", some "url".toList, ⟨some [], some [' ']⟩, .tight⟩,
          .scalar (.text text) spelling ⟨some [' '], some []⟩)]
        ⟨false, false, some 1, .tight⟩)]
  trailing := []

theorem urlDocument_keepsValues : (urlDocument "b" none).KeepsValues := by
  refine ⟨urlDocument "b" (some "\"b\"".toList), by cbv, ?_⟩
  refine Toml.Node.value?_table (.cons ⟨rfl, ?_⟩ .nil)
  refine Toml.Node.value?_table (.cons ⟨rfl, fun path => ?_⟩ .nil)
  cases path <;> rfl

theorem urlStore_loaded : urlStore.after (.fresh urlFiles) [.operation .load] =
    ⟨urlFiles, some ⟨urlDocument "a" (some "\"a\"".toList), .loaded⟩⟩ := by
  have read : urlStore.readDocument "[hub]\nurl = \"a\"\n" =
      .ok (urlDocument "a" (some "\"a\"".toList)) := by
    cbv
  simp only [Store.after, step, perform, load, observe, access, State.fresh, readOrSeed,
    urlFiles_readText, read]
  rfl

theorem urlStore_storesFinite : urlStore.StoresFinite "url" (.str "b") := by
  intro path setting value _ known coerced
  rw [Schema.get?, Schema.find?] at known
  obtain rfl := List.mem_singleton.mp (List.mem_of_find?_eq_some known)
  cases coerced
  exact Value.isFinite_text

theorem urlStore_seedsDeclared : SeedsDeclared urlStore.schema := by
  have documentable : SettingsDocument.Documentable (.declare "url" .text) := by
    refine ⟨by decide, ?_, ?_, ?_⟩ <;> simp [Setting.declare]
  exact seedsDeclared (by simpa [urlStore] using documentable) (List.nodup_singleton _)

theorem urlStore_resolves :
    let before := urlStore.after (.fresh urlFiles) [.operation .load]
    let after := (urlStore.set before "url" (.str "b")).1
    urlStore.Resolves after "url" (.str "b") ∧
      urlStore.Resolves (.fresh (urlStore.flush after).1.files) "url" (.str "b") := by
  have set : urlStore.set (urlStore.after (.fresh urlFiles) [.operation .load]) "url" (.str "b") =
      (⟨urlFiles, some ⟨urlDocument "b" none, .dirty⟩⟩, .ok ()) := by
    rw [urlStore_loaded]
    cbv
  have flushed : (urlStore.flush ⟨urlFiles, some ⟨urlDocument "b" none, .dirty⟩⟩).2 = .ok true := by
    cbv
  obtain ⟨now, later⟩ := stored_resolves urlStore urlFiles [.operation .load] "url" (.str "b") _ rfl
    urlStore_storesFinite set
  dsimp only
  rw [set]
  refine ⟨now, later (.inl urlStore_seedsDeclared) ?_ _ ?_⟩
  · rintro copy present
    cases present
    exact urlDocument_keepsValues
  · exact Prod.ext rfl flushed

/-- The name of one setting is a dotted key. -/
def dottedStore : Store :=
  let settings : List Setting :=
    [(Setting.declare "a.b" .text).default (.text "x"), .declare "s" .text]
  ⟨"hub", ⟨settings, settings⟩⟩

/-- The document that is generated, with entries behind the one of the dotted key. -/
def dottedDocument (lead : Toml.Raw) (more : Toml.Entries) : SettingsDocument where
  root :=
    [(⟨"version", some "version".toList, ⟨some lead, some [' ']⟩, .tight⟩,
        .scalar (.text "1.0") (some "\"1.0\"".toList) ⟨some [' '], some []⟩),
      (⟨"hub", some "hub".toList, .tight, .tight⟩,
        .table
          ((⟨"a", some ['a'], .default, .tight⟩, Toml.wayside true
            [(⟨"b", some ['b'], ⟨some "\n# (string)\n".toList, some [' ']⟩, .tight⟩,
              .scalar (.text "x") (some "\"x\"".toList) ⟨some [' '], some []⟩)]) :: more)
          ⟨false, false, some 1, ⟨some ['\n'], some []⟩⟩)]
  trailing := "\n# (string)\n# s = <string>\n".toList

def dottedText (more : String) : List Char :=
  ("ersion = \"1.0\"\n\n[hub]\n\n# (string)\na.b = \"x\"\n" ++ more ++
    "\n# (string)\n# s = <string>\n").toList

abbrev openingLines : List (List Char) :=
  (SettingsDocument.introduction.take 5).map String.toList

theorem parse?_dotted {more : String} {entries : Toml.Entries}
    (read : ∀ lead fuel, (do
      let (statement, rest) ← Toml.Statement.read? lead ('v' :: dottedText more)
      let (statements, trailing) ← Toml.Statement.readAll? (fuel + 5) rest
      let last ← (statement :: statements).foldlM Toml.Assembly.step .start
      return ⟨← last.close, trailing⟩) = some (dottedDocument (lead ++ []) entries)) :
    Toml.Document.parse? (.ofList (Toml.linesChars openingLines ++ 'v' :: dottedText more)) =
      some (dottedDocument (Toml.linesChars openingLines) entries) := by
  obtain ⟨fuel, enough⟩ : ∃ fuel,
      (Toml.linesChars openingLines ++ 'v' :: dottedText more).length = fuel + 5 := by
    refine ⟨(Toml.linesChars openingLines ++ 'v' :: dottedText more).length - 5, ?_⟩
    simp [dottedText]
    omega
  rw [Toml.Document.parse?_quiet SettingsDocument.quietLine_introduction (by decide) rfl, enough,
    read, List.append_nil]

theorem canonical_dotted : canonical dottedStore.schema =
    .ok (dottedDocument (Toml.linesChars openingLines) []) := by
  have text : SettingsDocument.canonicalText dottedStore.schema =
      .ofList (Toml.linesChars openingLines ++ 'v' :: dottedText "") := by
    have lines : dottedStore.schema.settings.flatMap SettingsDocument.settingLines =
        ["", "# (string)", "a.b = \"x\"", "", "# (string)", "# s = <string>"] := by
      cbv
    rw [SettingsDocument.canonicalText, lines]
    decide +kernel
  have read := @parse?_dotted "" [] fun lead fuel => by cbv
  rw [canonical, text, read]

abbrev changedDocument : SettingsDocument :=
  dottedDocument (Toml.linesChars openingLines) [(.plain "s", .ofText "v")]

abbrev reopenedDocument : SettingsDocument :=
  dottedDocument (Toml.linesChars openingLines)
    [(⟨"s", some ['s'], ⟨some [], some [' ']⟩, .tight⟩,
      .scalar (.text "v") (some "\"v\"".toList) ⟨some [' '], some []⟩)]

theorem changedDocument_text :
    changedDocument.text =
      .ofList (Toml.linesChars openingLines ++ 'v' :: dottedText "s = \"v\"\n") := by
  have printed : ∀ lead, (dottedDocument lead [(.plain "s", .ofText "v")]).chars =
      Toml.rawChars lead ++ "version ".toList ++ "= \"1.0\"".toList ++ ['\n'] ++ [] ++
        "\n[hub]\n\n# (string)\na.b = \"x\"\ns = \"v\"\n".toList ++
          "\n# (string)\n# s = <string>\n".toList := by
    intro lead
    cbv
  have kept : Toml.rawChars (Toml.linesChars openingLines) = Toml.linesChars openingLines := by
    decide +kernel
  rw [Toml.Document.text, printed, kept]
  simp [dottedText]

theorem changedDocument_parse? :
    Toml.Document.parse? changedDocument.text = some reopenedDocument := by
  rw [changedDocument_text]
  exact parse?_dotted fun lead fuel => by cbv

theorem changedDocument_keepsValues : changedDocument.KeepsValues := by
  refine ⟨reopenedDocument, changedDocument_parse?, ?_⟩
  refine Toml.Node.value?_table (.cons ⟨rfl, fun _ => rfl⟩ (.cons ⟨rfl, ?_⟩ .nil))
  refine Toml.Node.value?_table (.cons ⟨rfl, fun _ => rfl⟩ (.cons ⟨rfl, ?_⟩ .nil))
  intro path
  cases path <;> rfl

theorem dottedStore_set : ∃ files, dottedStore.set (.fresh .empty) "s" (.str "v") =
    (⟨.put .empty ["hub"] (.file files FileTree.ownerOnly), some ⟨changedDocument, .dirty⟩⟩,
      .ok ()) := by
  have missing : FileTree.empty.readText dottedStore.path = .error .notFound := rfl
  have seeded : ∀ text, FileTree.empty.replaceText dottedStore.path text =
      (FileTree.empty.put ["hub"] (.file text.toUTF8 FileTree.ownerOnly), .ok ()) :=
    fun _ => rfl
  have checked : dottedStore.checked "s" (.str "v") = .ok (⟨"s", none⟩, some (.text "v")) := by
    cbv
  have edited : ∀ lead, (dottedDocument lead []).set ⟨"s", none⟩ (some (nodeOf (.text "v"))) =
      .ok (dottedDocument lead [(.plain "s", .ofText "v")]) := by
    intro lead
    cbv
  refine ⟨(dottedDocument (Toml.linesChars openingLines) []).text.toUTF8, ?_⟩
  simp only [set, checked, access, State.fresh, readOrSeed, missing, seed, canonical_dotted, seeded,
    Option.map_some, edited]

abbrev writtenFiles (bytes : ByteArray) : FileTree :=
  .put .empty ["hub"] (.file bytes FileTree.ownerOnly)

theorem writtenFiles_replaceText (bytes : ByteArray) (text : String) :
    ((writtenFiles bytes).replaceText dottedStore.path text).2 = .ok () := by
  cbv

theorem dottedStore_flush (bytes : ByteArray) :
    ∃ files, dottedStore.flush ⟨writtenFiles bytes, some ⟨changedDocument, .dirty⟩⟩ =
        (⟨files, some ⟨changedDocument, .persisted⟩⟩, .ok true) ∧
      files.readText dottedStore.path = .ok changedDocument.text := by
  have replaced := writtenFiles_replaceText bytes changedDocument.text
  generalize changedDocument = document at replaced ⊢
  cases result : (writtenFiles bytes).replaceText dottedStore.path document.text with
  | mk files outcome =>
      rw [result] at replaced
      cases replaced
      refine ⟨files, ?_, FileTree.replaceText_ok result⟩
      simp only [flush, result]

/-- Where the document is opened again, the key of the generated setting is refused. -/
def dottedError : Error :=
  .unknownSetting "a" "found in hub but not part of the settings schema"

theorem dottedStore_checkNames : dottedStore.checkNames reopenedDocument = .error dottedError := by
  have names : ∀ lead, dottedStore.checkNames (dottedDocument lead
      [(⟨"s", some ['s'], ⟨some [], some [' ']⟩, .tight⟩,
        .scalar (.text "v") (some "\"v\"".toList) ⟨some [' '], some []⟩)]) =
      .error dottedError := by
    intro lead
    cbv
  exact names _

theorem dottedStore_parse : SettingPath.parse dottedStore.schema "s" = .ok ⟨"s", none⟩ := by
  cbv

theorem dottedStore_storesFinite : dottedStore.StoresFinite "s" (.str "v") := by
  intro path setting value named known coerced
  obtain rfl := Except.ok.inj (dottedStore_parse.symm.trans named)
  have declared : dottedStore.schema.get? "s" = some (.declare "s" .text) := by
    cbv
  obtain rfl := Option.some.inj (declared.symm.trans known)
  cases coerced
  exact Value.isFinite_text

/-- With a name that is a dotted key, the generated document holds a setting that is not
declared.  The document is in use until it is opened again, and what was stored in it is
lost then. -/
theorem dottedStore_unresolved :
    let after := (dottedStore.set (.fresh .empty) "s" (.str "v")).1
    let flushed := (dottedStore.flush after).1
    dottedStore.set (.fresh .empty) "s" (.str "v") = (after, .ok ()) ∧
      dottedStore.StoresFinite "s" (.str "v") ∧
      (∀ copy, after.copy = some copy → copy.document.KeepsValues) ∧
      dottedStore.flush after = (flushed, .ok true) ∧
      (dottedStore.layer (.fresh flushed.files)).2 = .error dottedError ∧
      ¬ dottedStore.Resolves (.fresh flushed.files) "s" (.str "v") := by
  obtain ⟨bytes, set⟩ := dottedStore_set
  obtain ⟨files, flushed, read⟩ := dottedStore_flush bytes
  have unread : (dottedStore.layer (.fresh files)).2 = .error dottedError := by
    simp only [layer, observe, access, State.fresh, readOrSeed, read, readDocument,
      changedDocument_parse?, dottedStore_checkNames]
  dsimp only
  rw [set]
  dsimp only
  rw [flushed]
  refine ⟨rfl, dottedStore_storesFinite, ?_, rfl, unread, ?_⟩
  · rintro copy present
    cases present
    exact changedDocument_keepsValues
  · rintro ⟨path, setting, named, _, resolved⟩
    obtain rfl := Except.ok.inj (dottedStore_parse.symm.trans named)
    obtain ⟨layer, _, _, there, _⟩ := resolved
    cases unread.symm.trans there

end HubKeeper.Store

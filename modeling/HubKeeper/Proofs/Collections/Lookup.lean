import HubKeeper.Collections.Dict

/-!
Dictionaries as partial functions.  A dictionary is determined by `get?`, and each
operation on dictionaries is described by what it does to `get?`.
-/

namespace HubKeeper

variable {α β : Type} {key other : String} {value : α} {entries : List (String × α)}

theorem mapM_eq_some_iff {f : α → Option β} {as : List α} {bs : List β} :
    as.mapM f = some bs ↔ (∀ a ∈ as, (f a).isSome = true) ∧ bs = as.filterMap f := by
  induction as generalizing bs with
  | nil =>
      refine ⟨fun done => ⟨List.forall_mem_nil _, (Option.some.inj done).symm⟩, ?_⟩
      rintro ⟨_, rfl⟩
      rfl
  | cons a rest ih =>
      rw [List.mapM_cons, List.forall_mem_cons]
      cases here : f a with
      | none => simp
      | some b =>
          rw [List.filterMap_cons_some here]
          constructor
          · intro done
            obtain ⟨_, ⟨⟩, done⟩ := Option.bind_eq_some_iff.mp done
            obtain ⟨others, further, done⟩ := Option.bind_eq_some_iff.mp done
            obtain ⟨each, rfl⟩ := ih.mp further
            exact ⟨⟨rfl, each⟩, (Option.some.inj done).symm⟩
          · rintro ⟨⟨_, each⟩, rfl⟩
            rw [ih.mpr ⟨each, rfl⟩]
            rfl

theorem lookupEntry_insertEntry :
    lookupEntry other (insertEntry key value entries) =
      if other = key then some value else lookupEntry other entries := by
  induction entries with
  | nil => simp [insertEntry, lookupEntry]
  | cons entry rest ih =>
      obtain ⟨k, v⟩ := entry
      simp only [insertEntry]
      split
      · simp [lookupEntry]
      · split
        · rename_i same
          subst same
          by_cases here : other = key <;> simp [lookupEntry, here]
        · rename_i different
          by_cases here : other = k
          · subst here
            simp [lookupEntry, Ne.symm different]
          · simp [lookupEntry, here, ih]

theorem mem_of_lookupEntry (found : lookupEntry key entries = some value) :
    (key, value) ∈ entries := by
  induction entries with
  | nil => simp [lookupEntry] at found
  | cons entry rest ih =>
      obtain ⟨k, v⟩ := entry
      by_cases here : key = k
      · subst here
        simp_all [lookupEntry]
      · simp only [lookupEntry, here, ↓reduceIte] at found
        exact List.mem_cons_of_mem _ (ih found)

theorem lookupEntry_of_mem (ascending : AscendingKeys entries) (member : (key, value) ∈ entries) :
    lookupEntry key entries = some value := by
  induction entries with
  | nil => simp at member
  | cons entry rest ih =>
      obtain ⟨k, v⟩ := entry
      have parts := List.pairwise_cons.mp ascending
      rcases List.mem_cons.mp member with here | there
      · cases here
        simp [lookupEntry]
      · have different : key ≠ k := by
          rintro rfl
          exact absurd (parts.1 _ there) (String.lt_irrefl _)
        simp [lookupEntry, different, ih parts.2 there]

theorem lookupEntry_filter (ascending : AscendingKeys entries) (keep : String → α → Bool) :
    lookupEntry key (entries.filter fun entry => keep entry.1 entry.2) =
      (lookupEntry key entries).filter (keep key) := by
  induction entries with
  | nil => rfl
  | cons entry rest ih =>
      obtain ⟨k, v⟩ := entry
      have parts := List.pairwise_cons.mp ascending
      have absent : lookupEntry k rest = none := by
        cases found : lookupEntry k rest with
        | none => rfl
        | some other => exact absurd (parts.1 _ (mem_of_lookupEntry found)) (String.lt_irrefl _)
      by_cases here : key = k
      · subst here
        cases kept : keep key v with
        | true => simp [kept, lookupEntry, Option.filter]
        | false => simp [kept, lookupEntry, Option.filter, ih parts.2, absent]
      · cases kept : keep k v <;> simp [kept, lookupEntry, here, ih parts.2]

theorem AscendingKeys.nodup (ascending : AscendingKeys entries) : entries.Nodup := by
  refine List.Pairwise.imp ?_ ascending
  intro a b less same
  subst same
  exact String.lt_irrefl _ less

theorem AscendingKeys.nodup_keys (ascending : AscendingKeys entries) :
    (entries.map (·.1)).Nodup := by
  refine (List.pairwise_map.mpr ascending).imp ?_
  rintro a _ less rfl
  exact String.lt_irrefl _ less

/-- Entries in ascending order are determined by what is found among them. -/
theorem entries_ext {left right : List (String × α)} (leftAscending : AscendingKeys left)
    (rightAscending : AscendingKeys right)
    (same : ∀ key, lookupEntry key left = lookupEntry key right) : left = right := by
  have subset : ∀ {first second : List (String × α)}, AscendingKeys first →
      (∀ key, lookupEntry key first = lookupEntry key second) → first ⊆ second := by
    intro first second ascending agree entry member
    exact mem_of_lookupEntry ((agree entry.1).symm.trans (lookupEntry_of_mem ascending member))
  have permutation : left.Perm right :=
    (List.perm_ext_iff_of_nodup leftAscending.nodup rightAscending.nodup).mpr fun _ =>
      ⟨fun member => subset leftAscending same member,
        fun member => subset rightAscending (fun key => (same key).symm) member⟩
  have antisymmetric : ∀ a b : String × α, a ∈ left → b ∈ right → a.1 < b.1 → b.1 < a.1 →
      a = b := by
    intro a b _ _ before after
    exact absurd (String.lt_trans before after) (String.lt_irrefl _)
  exact permutation.eq_of_pairwise antisymmetric leftAscending rightAscending

theorem insertEntry_last (last : ∀ entry ∈ entries, entry.1 < key) :
    insertEntry key value entries = entries ++ [(key, value)] := by
  induction entries with
  | nil => rfl
  | cons entry rest ih =>
      obtain ⟨k, v⟩ := entry
      have less := last (k, v) List.mem_cons_self
      have notLess : ¬ key < k := fun more => String.lt_irrefl _ (String.lt_trans less more)
      have different : key ≠ k := by
        rintro rfl
        exact String.lt_irrefl _ less
      rw [insertEntry, if_neg notLess, if_neg different,
        ih fun entry member => last entry (List.mem_cons_of_mem _ member), List.cons_append]

theorem foldl_insertEntry {sorted : List (String × α)} (ascending : AscendingKeys (sorted ++ entries)) :
    entries.foldl (fun sorted entry => insertEntry entry.1 entry.2 sorted) sorted =
      sorted ++ entries := by
  induction entries generalizing sorted with
  | nil => simp
  | cons entry rest ih =>
      have last : ∀ before ∈ sorted, before.1 < entry.1 := fun before member =>
        (List.pairwise_append.mp ascending).2.2 before member entry List.mem_cons_self
      rw [List.foldl_cons, insertEntry_last last, ih (by simpa using ascending), List.append_assoc,
        List.singleton_append]

namespace Dict

variable {dict : Dict α}

theorem entries_foldl_insert (entries : List (String × α)) (dict : Dict α) :
    (entries.foldl (fun dict entry => dict.insert entry.1 entry.2) dict).entries =
      entries.foldl (fun sorted entry => insertEntry entry.1 entry.2 sorted) dict.entries := by
  induction entries generalizing dict with
  | nil => rfl
  | cons entry rest ih => exact ih _

theorem entries_ofList (entries : List (String × α)) :
    (ofList entries).entries =
      entries.foldl (fun sorted entry => insertEntry entry.1 entry.2 sorted) [] :=
  entries_foldl_insert entries empty

theorem ofList_of_ascending {entries : List (String × α)} (ascending : AscendingKeys entries) :
    ofList entries = ⟨entries, ascending⟩ :=
  ext (by rw [entries_ofList, foldl_insertEntry (by simpa using ascending), List.nil_append])

@[simp] theorem get?_empty : (empty : Dict α).get? key = none := rfl

theorem get?_insert :
    (dict.insert key value).get? other = if other = key then some value else dict.get? other :=
  lookupEntry_insertEntry

@[simp] theorem get?_insert_self : (dict.insert key value).get? key = some value := by
  simp [get?_insert]

theorem get?_insert_of_ne (different : other ≠ key) :
    (dict.insert key value).get? other = dict.get? other := by
  simp [get?_insert, different]

theorem get?_filter (keep : String → α → Bool) :
    (dict.filter keep).get? key = (dict.get? key).filter (keep key) :=
  lookupEntry_filter dict.ascending keep

theorem get?_filter_key (keep : String → Bool) :
    (dict.filter fun name _ => keep name).get? key = if keep key then dict.get? key else none := by
  rw [get?_filter]
  cases dict.get? key <;> cases keep key <;> simp [Option.filter]

theorem entries_map (f : String → α → β) :
    (dict.map f).entries = dict.entries.map fun entry => (entry.1, f entry.1 entry.2) := rfl

theorem get?_map (f : String → α → β) : (dict.map f).get? key = (dict.get? key).map (f key) := by
  obtain ⟨entries, ascending⟩ := dict
  simp only [get?, map]
  clear ascending
  induction entries with
  | nil => rfl
  | cons entry rest ih =>
      simp only [List.map_cons, lookupEntry]
      split
      · rename_i same
        rw [same, Option.map_some]
      · exact ih

theorem get?_foldl_insert {entries : List (String × α)} (distinct : (entries.map (·.1)).Nodup) :
    (entries.foldl (fun dict entry => dict.insert entry.1 entry.2) dict).get? key = some value ↔
      (key, value) ∈ entries ∨ key ∉ entries.map (·.1) ∧ dict.get? key = some value := by
  induction entries generalizing dict with
  | nil => simp
  | cons entry rest ih =>
      obtain ⟨k, v⟩ := entry
      obtain ⟨fresh, further⟩ := List.nodup_cons.mp distinct
      rw [List.foldl_cons, ih further, get?_insert]
      by_cases here : key = k
      · subst here
        have absent : (key, value) ∉ rest := fun member =>
          fresh (List.mem_map.mpr ⟨_, member, rfl⟩)
        simp [fresh, absent, eq_comm]
      · simp [here]

theorem get?_ofList {entries : List (String × α)} (distinct : (entries.map (·.1)).Nodup) :
    (ofList entries).get? key = some value ↔ (key, value) ∈ entries := by
  simp [ofList, get?_foldl_insert distinct]

theorem ext_get? {left right : Dict α} (same : ∀ key, left.get? key = right.get? key) :
    left = right :=
  ext (entries_ext left.ascending right.ascending same)

/-- Entries may repeat a key, as long as they agree on its value. -/
theorem get?_foldl_insert_of_agree {entries : List (String × α)}
    (agree : ∀ v, (key, v) ∈ entries → v = value)
    (present : key ∈ entries.map (·.1) ∨ dict.get? key = some value) :
    (entries.foldl (fun dict entry => dict.insert entry.1 entry.2) dict).get? key = some value := by
  induction entries generalizing dict with
  | nil => simpa using present
  | cons entry rest ih =>
      obtain ⟨k, v⟩ := entry
      refine ih (fun v member => agree v (List.mem_cons_of_mem _ member)) ?_
      rw [get?_insert]
      by_cases here : key = k
      · subst here
        exact .inr (by rw [if_pos rfl, agree v List.mem_cons_self])
      · rw [if_neg here]
        simpa [here] using present

theorem get?_ofList_of_agree {entries : List (String × α)}
    (agree : ∀ v, (key, v) ∈ entries → v = value) (present : key ∈ entries.map (·.1)) :
    (ofList entries).get? key = some value :=
  get?_foldl_insert_of_agree agree (.inl present)

theorem isSome_get?_ofList {entries : List (String × α)} :
    ((ofList entries).get? key).isSome = true ↔ key ∈ entries.map (·.1) := by
  have fold : ∀ dict : Dict α,
      ((entries.foldl (fun dict entry => dict.insert entry.1 entry.2) dict).get? key).isSome ↔
        (dict.get? key).isSome ∨ key ∈ entries.map (·.1) := by
    induction entries with
    | nil => simp
    | cons entry rest ih =>
        intro dict
        rw [List.foldl_cons, ih, get?_insert]
        by_cases here : key = entry.1 <;> simp [here]
  exact (fold empty).trans (by simp)

theorem mem_entries : (key, value) ∈ dict.entries ↔ dict.get? key = some value :=
  ⟨lookupEntry_of_mem dict.ascending, mem_of_lookupEntry⟩

theorem get?_foldl_entries (added : Dict α) :
    (added.entries.foldl (fun dict entry => dict.insert entry.1 entry.2) dict).get? key =
      (added.get? key).or (dict.get? key) := by
  refine Option.ext fun value => ?_
  rw [get?_foldl_insert added.ascending.nodup_keys, mem_entries]
  cases found : added.get? key with
  | none =>
      have absent : key ∉ added.entries.map (·.1) := by
        intro listed
        obtain ⟨entry, member, rfl⟩ := List.mem_map.mp listed
        cases found.symm.trans (mem_entries.mp member)
      simp [absent]
  | some other =>
      have present : key ∈ added.entries.map (·.1) :=
        List.mem_map.mpr ⟨(key, other), mem_entries.mpr found, rfl⟩
      simp [present]

theorem get?_erase : (dict.erase key).get? other = if other = key then none else dict.get? other := by
  rw [erase, get?_filter_key]
  by_cases same : other = key <;> simp [same]

theorem erase_of_get?_eq_none (absent : dict.get? key = none) : dict.erase key = dict := by
  apply ext_get?
  intro other
  rw [get?_erase]
  split
  · rename_i same
    rw [same, absent]
  · rfl

theorem erase_insert_self : (dict.insert key value).erase key = dict.erase key := by
  apply ext_get?
  intro other
  rw [get?_erase, get?_erase]
  split
  · rfl
  · rename_i different
    exact get?_insert_of_ne different

theorem erase_insert_of_ne (different : other ≠ key) :
    (dict.insert other value).erase key = (dict.erase key).insert other value := by
  apply ext_get?
  intro name
  rw [get?_erase, get?_insert, get?_insert, get?_erase]
  split
  · rename_i same
    rw [same, if_neg (Ne.symm different)]
  · rfl

/-- An entry that is found may be listed before the others. -/
theorem perm_of_get? (found : dict.get? key = some value) :
    dict.entries.Perm ((key, value) :: (dict.erase key).entries) := by
  have apart : (key, value) ∉ (dict.erase key).entries := by
    simp [mem_entries, get?_erase]
  refine (List.perm_ext_iff_of_nodup dict.ascending.nodup
    (List.nodup_cons.mpr ⟨apart, (dict.erase key).ascending.nodup⟩)).mpr ?_
  rintro ⟨other, candidate⟩
  rw [List.mem_cons, mem_entries, mem_entries, get?_erase, Prod.mk.injEq]
  by_cases same : other = key
  · subst same
    simp [found, eq_comm]
  · simp [same]

theorem mem_keys : key ∈ dict.keys ↔ ∃ value, dict.get? key = some value := by
  constructor
  · intro member
    obtain ⟨⟨k, v⟩, found, rfl⟩ := List.mem_map.mp member
    exact ⟨v, lookupEntry_of_mem dict.ascending found⟩
  · rintro ⟨value, found⟩
    exact List.mem_map.mpr ⟨(key, value), mem_of_lookupEntry found, rfl⟩

/-- Entries are listed by key, so the first one with a certain kind of key has the least. -/
theorem find?_key_iff (test : String → Bool) :
    (dict.entries.find? fun entry => test entry.1).map (·.1) = some key ↔
      key ∈ dict.keys ∧ test key = true ∧ ∀ other ∈ dict.keys, test other = true → key ≤ other := by
  have least {key : String}
      (first : (dict.entries.find? fun entry => test entry.1).map (·.1) = some key) :
      key ∈ dict.keys ∧ test key = true ∧
        ∀ other ∈ dict.keys, test other = true → key ≤ other := by
    obtain ⟨entry, found, rfl⟩ := Option.map_eq_some_iff.mp first
    obtain ⟨passes, before, after, listed, earlier⟩ := List.find?_eq_some_iff_append.mp found
    refine ⟨List.mem_map_of_mem (List.mem_of_find?_eq_some found), passes, ?_⟩
    intro other there also
    obtain ⟨candidate, member, rfl⟩ := List.mem_map.mp there
    have ascending := dict.ascending
    rw [AscendingKeys, listed] at ascending
    have behind := (List.pairwise_cons.mp (List.pairwise_append.mp ascending).2.1).1
    rw [listed] at member
    rcases List.mem_append.mp member with early | late
    · have fails := earlier candidate early
      simp [also] at fails
    · rcases List.mem_cons.mp late with rfl | late
      · exact String.le_refl _
      · exact String.not_lt.mp (String.lt_asymm (behind candidate late))
  -- The first entry has the least key, so it is the one with the key that is the least.
  refine ⟨least, fun ⟨there, passes, smallest⟩ => ?_⟩
  cases first : (dict.entries.find? fun entry => test entry.1).map (·.1) with
  | none =>
      obtain ⟨entry, member, rfl⟩ := List.mem_map.mp there
      rw [Option.map_eq_none_iff, List.find?_eq_none] at first
      exact absurd passes (first entry member)
  | some other =>
      obtain ⟨otherThere, otherPasses, otherSmallest⟩ := least first
      have before := smallest other otherThere otherPasses
      rw [String.le_antisymm before (otherSmallest key there passes)]

end Dict

end HubKeeper

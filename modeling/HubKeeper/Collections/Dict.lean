/-!
Dictionaries keyed by text, kept as a list of entries in strictly ascending key
order.  Two dictionaries with the same entries are therefore equal, and every
listing of one is sorted by code point.
-/

namespace HubKeeper

def AscendingKeys (entries : List (String × α)) : Prop :=
  entries.Pairwise (·.1 < ·.1)

instance (entries : List (String × α)) : Decidable (AscendingKeys entries) :=
  inferInstanceAs (Decidable (entries.Pairwise (·.1 < ·.1)))

/-- Puts an entry in its place, replacing one with the same key. -/
def insertEntry (key : String) (value : α) : List (String × α) → List (String × α)
  | [] => [(key, value)]
  | (k, v) :: rest =>
      if key < k then (key, value) :: (k, v) :: rest
      else if key = k then (key, value) :: rest
      else (k, v) :: insertEntry key value rest

theorem mem_insertEntry_imp {key : String} {value : α} {entry : String × α} :
    ∀ {entries : List (String × α)}, entry ∈ insertEntry key value entries →
      entry = (key, value) ∨ entry ∈ entries
  | [], member => by simpa [insertEntry] using member
  | (k, v) :: rest, member => by
      simp only [insertEntry] at member
      split at member
      · simpa using member
      · split at member
        · rcases List.mem_cons.mp member with here | there
          · exact .inl here
          · exact .inr (List.mem_cons_of_mem _ there)
        · rcases List.mem_cons.mp member with here | there
          · exact .inr (here ▸ List.mem_cons_self ..)
          · exact (mem_insertEntry_imp there).imp_right (List.mem_cons_of_mem _)

theorem lt_of_not_lt_of_ne {a b : String} (notLess : ¬ a < b) (different : a ≠ b) : b < a := by
  rcases String.le_total a b with h | h
  · by_cases less : b < a
    · exact less
    · exact absurd (String.le_antisymm h (String.not_lt.mp notLess)) different
  · by_cases less : b < a
    · exact less
    · exact absurd (String.le_antisymm (String.not_lt.mp less) h) different

theorem AscendingKeys.insertEntry {key : String} {value : α} :
    ∀ {entries : List (String × α)}, AscendingKeys entries →
      AscendingKeys (HubKeeper.insertEntry key value entries)
  | [], _ => by simp [HubKeeper.insertEntry, AscendingKeys]
  | (k, v) :: rest, ascending => by
      have parts := List.pairwise_cons.mp ascending
      simp only [HubKeeper.insertEntry]
      split
      · rename_i less
        refine List.pairwise_cons.mpr ⟨fun entry member => ?_, ascending⟩
        rcases List.mem_cons.mp member with here | there
        · exact here ▸ less
        · exact String.lt_trans less (parts.1 entry there)
      · split
        · rename_i same
          exact List.pairwise_cons.mpr ⟨fun entry member => same ▸ parts.1 entry member, parts.2⟩
        · rename_i notLess different
          refine List.pairwise_cons.mpr ⟨fun entry member => ?_, AscendingKeys.insertEntry parts.2⟩
          rcases mem_insertEntry_imp member with here | there
          · exact here ▸ lt_of_not_lt_of_ne notLess different
          · exact parts.1 entry there

def lookupEntry (key : String) : List (String × α) → Option α
  | [] => none
  | (k, v) :: rest => if key = k then some v else lookupEntry key rest

/-- A dictionary: entries in strictly ascending key order. -/
structure Dict (α : Type) where
  entries : List (String × α)
  ascending : AscendingKeys entries
deriving DecidableEq

namespace Dict

variable {α β : Type}

@[ext]
theorem ext {a b : Dict α} (same : a.entries = b.entries) : a = b := by
  cases a; cases b; simp_all

def empty : Dict α := ⟨[], List.Pairwise.nil⟩

instance : EmptyCollection (Dict α) := ⟨empty⟩

instance : Inhabited (Dict α) := ⟨empty⟩

def get? (dict : Dict α) (key : String) : Option α :=
  lookupEntry key dict.entries

def contains (dict : Dict α) (key : String) : Bool :=
  (dict.get? key).isSome

def insert (dict : Dict α) (key : String) (value : α) : Dict α :=
  ⟨insertEntry key value dict.entries, dict.ascending.insertEntry⟩

def filter (keep : String → α → Bool) (dict : Dict α) : Dict α :=
  ⟨dict.entries.filter fun entry => keep entry.1 entry.2, dict.ascending.filter _⟩

def erase (dict : Dict α) (key : String) : Dict α :=
  dict.filter fun k _ => k != key

def map (f : String → α → β) (dict : Dict α) : Dict β :=
  ⟨dict.entries.map fun entry => (entry.1, f entry.1 entry.2),
    List.pairwise_map.mpr (by simpa [AscendingKeys] using dict.ascending)⟩

/-- The last of several entries with one key counts. -/
def ofList (entries : List (String × α)) : Dict α :=
  entries.foldl (fun dict entry => dict.insert entry.1 entry.2) empty

def toList (dict : Dict α) : List (String × α) :=
  dict.entries

def keys (dict : Dict α) : List String :=
  dict.entries.map (·.1)

def size (dict : Dict α) : Nat :=
  dict.entries.length

def isEmpty (dict : Dict α) : Bool :=
  dict.entries.isEmpty

/-- Applies a partial function to every value; fails if it fails anywhere. -/
def mapM? (f : α → Option β) (dict : Dict α) : Option (Dict β) :=
  (dict.entries.mapM fun entry => (f entry.2).map fun value => (entry.1, value)).map ofList

end Dict

end HubKeeper

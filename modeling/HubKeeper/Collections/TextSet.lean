import HubKeeper.Collections.Dict

/-!
Sets of texts, kept as a strictly ascending list: repetitions and the order in
which members were given leave no trace.
-/

namespace HubKeeper

/-- Puts a text in its place in an ascending list, unless it is there. -/
def insertText (text : String) : List String → List String
  | [] => [text]
  | t :: rest =>
      if text < t then text :: t :: rest
      else if text = t then t :: rest
      else t :: insertText text rest

theorem mem_insertText {text member : String} :
    ∀ {texts : List String}, member ∈ insertText text texts ↔ member = text ∨ member ∈ texts
  | [] => by simp [insertText]
  | t :: rest => by
      simp only [insertText]
      split
      · simp
      · split
        · rename_i same
          subst same
          simp
        · simp only [List.mem_cons, @mem_insertText text member rest]
          grind

theorem pairwise_insertText {text : String} :
    ∀ {texts : List String}, texts.Pairwise (· < ·) → (insertText text texts).Pairwise (· < ·)
  | [], _ => by simp [insertText]
  | t :: rest, ascending => by
      have parts := List.pairwise_cons.mp ascending
      simp only [insertText]
      split
      · rename_i less
        refine List.pairwise_cons.mpr ⟨fun member isMember => ?_, ascending⟩
        rcases List.mem_cons.mp isMember with here | there
        · exact here ▸ less
        · exact String.lt_trans less (parts.1 member there)
      · split
        · exact ascending
        · rename_i notLess different
          refine List.pairwise_cons.mpr ⟨fun member isMember => ?_, pairwise_insertText parts.2⟩
          rcases mem_insertText.mp isMember with here | there
          · exact here ▸ lt_of_not_lt_of_ne notLess different
          · exact parts.1 member there

/-- A set of texts as a strictly ascending list. -/
structure TextSet where
  items : List String
  ascending : items.Pairwise (· < ·)
deriving DecidableEq

namespace TextSet

@[ext]
theorem ext {a b : TextSet} (same : a.items = b.items) : a = b := by
  cases a; cases b; simp_all

def empty : TextSet := ⟨[], List.Pairwise.nil⟩

instance : EmptyCollection TextSet := ⟨empty⟩

def insert (set : TextSet) (text : String) : TextSet :=
  ⟨insertText text set.items, pairwise_insertText set.ascending⟩

def ofList (texts : List String) : TextSet :=
  texts.foldl insert empty

def toList (set : TextSet) : List String :=
  set.items

instance : Membership String TextSet := ⟨fun set text => text ∈ set.items⟩

theorem mem_insert {set : TextSet} {text member : String} :
    member ∈ set.insert text ↔ member = text ∨ member ∈ set :=
  mem_insertText

theorem mem_foldl_insert {texts : List String} {set : TextSet} {member : String} :
    member ∈ texts.foldl insert set ↔ member ∈ set ∨ member ∈ texts := by
  induction texts generalizing set with
  | nil => simp
  | cons text rest ih =>
      simp only [List.foldl_cons, ih, mem_insert, List.mem_cons]
      grind

theorem mem_ofList {texts : List String} {member : String} :
    member ∈ ofList texts ↔ member ∈ texts := by
  have none : ¬ member ∈ empty := List.not_mem_nil
  simp [ofList, mem_foldl_insert, none]

end TextSet

end HubKeeper

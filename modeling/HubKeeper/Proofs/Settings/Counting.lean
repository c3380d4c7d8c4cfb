import HubKeeper.Proofs.Settings.Cycles
import Mathlib.Data.List.Basic
import Mathlib.Data.List.Count

/-!
Taking settings by counting down.

Every setting counts the dependencies that it still waits for, one that is named twice
twice.  A setting that waits for none is ready; the first of those is taken, and whoever
reads it counts down, once for each time that it names it.  No count ever falls below zero,
and the settings are taken in the same order as by looking each time for the first one
whose dependencies have all been taken.
-/

namespace HubKeeper.Schema

/-- What the settings, known by their places, still wait for; which of them are ready, in
order; and which have been taken. -/
structure Countdown where
  unmet : List Nat
  ready : List Nat
  taken : List Nat

namespace Countdown

/-- Puts a place among ascending ones, unless it is there already. -/
def insertPlace (i : Nat) : List Nat → List Nat
  | [] => [i]
  | j :: rest =>
      if i < j then i :: j :: rest
      else if i = j then j :: rest
      else j :: insertPlace i rest

/-- A setting counts down by one; there is no way on for one that waits for nothing. -/
def countDown (count : Countdown) (i : Nat) : Option Countdown :=
  match count.unmet[i]? with
  | some (left + 1) =>
      some { count with
        unmet := count.unmet.set i left
        ready := if left = 0 then insertPlace i count.ready else count.ready }
  | _ => none

def readersOf (reads : List (List Nat)) (i : Nat) : List Nat :=
  (List.range reads.length).flatMap fun reader => List.replicate ((reads.getD reader []).count i) reader

/-- Takes a place off those that are ready. -/
def take (count : Countdown) (i : Nat) (rest : List Nat) : Countdown where
  unmet := count.unmet
  ready := rest
  taken := count.taken ++ [i]

def start (reads : List (List Nat)) : Countdown where
  unmet := reads.map List.length
  ready := (List.range reads.length).filter fun i => (reads.getD i []).isEmpty
  taken := []

/-- Takes, up to `steps` times, the first place that is ready. -/
def run (reads : List (List Nat)) : (steps : Nat) → Countdown → Option Countdown
  | 0, count => some count
  | steps + 1, count =>
      match count.ready with
      | [] => some count
      | i :: ready => do
          let next ← (readersOf reads i).foldlM countDown (count.take i ready)
          run reads steps next

@[simp] theorem take_unmet (count : Countdown) (i : Nat) (rest : List Nat) :
    (count.take i rest).unmet = count.unmet := rfl

@[simp] theorem take_ready (count : Countdown) (i : Nat) (rest : List Nat) :
    (count.take i rest).ready = rest := rfl

@[simp] theorem take_taken (count : Countdown) (i : Nat) (rest : List Nat) :
    (count.take i rest).taken = count.taken ++ [i] := rfl

variable {reads : List (List Nat)} {count next : Countdown} {i j : Nat} {places : List Nat}

theorem mem_insertPlace : j ∈ insertPlace i places ↔ j = i ∨ j ∈ places := by
  induction places with
  | nil => simp [insertPlace]
  | cons first rest ih =>
      simp only [insertPlace]
      split
      · simp
      · split
        · rename_i same
          subst same
          simp
        · simp [ih, or_left_comm]

theorem pairwise_insertPlace (ascending : places.Pairwise (· < ·)) :
    (insertPlace i places).Pairwise (· < ·) := by
  induction places with
  | nil => simp [insertPlace]
  | cons first rest ih =>
      obtain ⟨least, later⟩ := List.pairwise_cons.mp ascending
      simp only [insertPlace]
      split
      · rename_i less
        refine List.pairwise_cons.mpr ⟨?_, ascending⟩
        rw [List.forall_mem_cons]
        exact ⟨less, fun j member => Nat.lt_trans less (least j member)⟩
      · split
        · exact ascending
        · refine List.pairwise_cons.mpr ⟨fun j member => ?_, ih later⟩
          rcases mem_insertPlace.mp member with rfl | member
          · omega
          · exact least j member

theorem countDown_eq {left : Nat} (found : count.unmet[i]? = some (left + 1))
    (ascending : count.ready.Pairwise (· < ·)) :
    ∃ next, countDown count i = some next ∧ next.taken = count.taken ∧
      (∀ j, next.unmet[j]? = if j = i then some left else count.unmet[j]?) ∧
      next.ready.Pairwise (· < ·) ∧
      ∀ j, j ∈ next.ready ↔ j ∈ count.ready ∨ (j = i ∧ left = 0) := by
  obtain ⟨inside, _⟩ := List.getElem?_eq_some_iff.mp found
  refine ⟨{ count with
    unmet := count.unmet.set i left
    ready := if left = 0 then insertPlace i count.ready else count.ready },
    by rw [countDown, found], rfl, fun j => ?_, ?_, fun j => ?_⟩
  · by_cases same : j = i
    · rw [if_pos same, same, List.getElem?_set_self inside]
    · rw [if_neg same, List.getElem?_set_ne (Ne.symm same)]
  · dsimp only
    split
    · exact pairwise_insertPlace ascending
    · exact ascending
  · dsimp only
    split
    · rename_i last
      simp [mem_insertPlace, last, or_comm]
    · rename_i more
      simp [more]

/-- Counting down for several places, each of which waits for at least as much. -/
theorem foldlM_countDown {readers : List Nat}
    (enough : ∀ j ∈ readers, ∃ left, count.unmet[j]? = some left ∧ readers.count j ≤ left)
    (ascending : count.ready.Pairwise (· < ·)) :
    ∃ next, readers.foldlM countDown count = some next ∧ next.taken = count.taken ∧
      (∀ j, next.unmet[j]? = (count.unmet[j]?).map (· - readers.count j)) ∧
      next.ready.Pairwise (· < ·) ∧
      ∀ j, j ∈ next.ready ↔ j ∈ count.ready ∨ (j ∈ readers ∧ next.unmet[j]? = some 0) := by
  induction readers generalizing count with
  | nil => exact ⟨count, rfl, rfl, by simp, ascending, by simp⟩
  | cons first rest ih =>
      obtain ⟨_ | left, found, bound⟩ := enough first List.mem_cons_self
      · simp at bound
      · rw [List.count_cons_self] at bound
        obtain ⟨stepped, step, taken, unmet, steppedAscending, ready⟩ :=
          countDown_eq found ascending
        -- The first place may come again in the rest; it waits for one less then, and comes once
        -- less.
        have restEnough : ∀ j ∈ rest, ∃ left, stepped.unmet[j]? = some left ∧ rest.count j ≤ left := by
          intro j member
          rw [unmet]
          by_cases same : j = first
          · exact ⟨left, if_pos same, by rw [same]; omega⟩
          · obtain ⟨more, waits, atMost⟩ := enough j (List.mem_cons_of_mem _ member)
            rw [List.count_cons_of_ne (Ne.symm same)] at atMost
            exact ⟨more, by rw [if_neg same, waits], atMost⟩
        obtain ⟨next, fold, restTaken, restUnmet, nextAscending, restReady⟩ :=
          ih restEnough steppedAscending
        have counted : ∀ j, next.unmet[j]? = (count.unmet[j]?).map (· - (first :: rest).count j) := by
          intro j
          rw [restUnmet, unmet]
          by_cases same : j = first
          · rw [if_pos same, same, found, List.count_cons_self]
            simp only [Option.map_some, Option.some.injEq]
            omega
          · rw [if_neg same, List.count_cons_of_ne (Ne.symm same)]
        refine ⟨next, ?_, restTaken.trans taken, counted, nextAscending, fun j => ?_⟩
        · rw [List.foldlM_cons, step]
          exact fold
        · rw [restReady, ready, List.mem_cons]
          constructor
          · rintro ((before | ⟨rfl, last⟩) | ⟨later, none⟩)
            · exact .inl before
            · refine .inr ⟨.inl rfl, ?_⟩
              rw [restUnmet, unmet, if_pos rfl, last]
              simp
            · exact .inr ⟨.inr later, none⟩
          · rintro (before | ⟨isFirst | later, none⟩)
            · exact .inl (.inl before)
            · -- A place that does not come again waits for nothing as soon as the first step is
              -- done.
              by_cases later : j ∈ rest
              · exact .inr ⟨later, none⟩
              · refine .inl (.inr ⟨isFirst, ?_⟩)
                rw [restUnmet, unmet, if_pos isFirst, List.count_eq_zero.mpr later] at none
                simpa using none
            · exact .inr ⟨later, none⟩

/-- How many of some names have not been taken. -/
def untaken (taken names : List Nat) : Nat :=
  names.countP fun i => !taken.contains i

/-- What a countdown keeps: the counts are those of dependencies not taken, what is ready
waits for nothing, and what has been taken did when it was. -/
structure Counts (reads : List (List Nat)) (count : Countdown) : Prop where
  unmet : ∀ j : Nat, count.unmet[j]? = (reads[j]?).map (untaken count.taken)
  ascending : count.ready.Pairwise (· < ·)
  ready : ∀ j, j ∈ count.ready ↔
    j ∉ count.taken ∧ ∃ names, reads[j]? = some names ∧ names ⊆ count.taken
  closed : ∀ j ∈ count.taken, ∀ names, reads[j]? = some names → names ⊆ count.taken

theorem count_flatMap_replicate {times : Nat → Nat} (distinct : places.Nodup) :
    (places.flatMap fun reader => List.replicate (times reader) reader).count j =
      if j ∈ places then times j else 0 := by
  induction places with
  | nil => rfl
  | cons first rest ih =>
      obtain ⟨fresh, restDistinct⟩ := List.nodup_cons.mp distinct
      rw [List.flatMap_cons, List.count_append, ih restDistinct, List.count_replicate]
      by_cases same : first = j
      · subst same
        simp [fresh]
      · simp [same, Ne.symm same]

theorem count_readersOf (reads : List (List Nat)) (i j : Nat) :
    (readersOf reads i).count j = (reads.getD j []).count i := by
  rw [readersOf, count_flatMap_replicate List.nodup_range]
  split
  · rfl
  · rename_i outside
    rw [List.getD_eq_getElem?_getD, List.getElem?_eq_none (by simpa using outside)]
    rfl

theorem mem_readersOf :
    j ∈ readersOf reads i ↔ ∃ names, reads[j]? = some names ∧ i ∈ names := by
  rw [← List.count_pos_iff, count_readersOf, List.count_pos_iff, List.getD_eq_getElem?_getD]
  cases reads[j]? <;> simp

theorem Counts.start (reads : List (List Nat)) : Counts reads (start reads) where
  unmet j := by
    rw [Countdown.start, List.getElem?_map]
    refine congrArg (Option.map · reads[j]?) (funext fun names => ?_)
    exact (List.countP_eq_length.mpr fun _ _ => rfl).symm
  ascending := List.pairwise_lt_range.filter _
  ready j := by
    simp only [Countdown.start, List.mem_filter, List.mem_range, List.isEmpty_iff,
      List.not_mem_nil, not_false_eq_true, true_and, List.subset_nil]
    constructor
    · rintro ⟨inside, none⟩
      rw [List.getD_eq_getElem?_getD, List.getElem?_eq_getElem inside] at none
      exact ⟨_, List.getElem?_eq_getElem inside, none⟩
    · rintro ⟨_, found, rfl⟩
      exact ⟨(List.getElem?_eq_some_iff.mp found).1, by rw [List.getD_eq_getElem?_getD, found]; rfl⟩
  closed _ none := absurd none List.not_mem_nil

theorem untaken_cons {names taken : List Nat} :
    untaken taken (i :: names) = untaken taken names + if i ∈ taken then 0 else 1 := by
  by_cases member : i ∈ taken <;> simp [untaken, member]

theorem untaken_eq_zero {names taken : List Nat} : untaken taken names = 0 ↔ names ⊆ taken := by
  simp [untaken, List.countP_eq_zero, List.subset_def]

theorem count_le_untaken {names taken : List Nat} (fresh : i ∉ taken) :
    names.count i ≤ untaken taken names := by
  rw [List.count_eq_countP]
  refine List.countP_mono_left fun j _ same => ?_
  rw [beq_iff_eq.mp same]
  simpa using fresh

/-- One more place taken leaves out as many of the names as are its own. -/
theorem untaken_concat {names taken : List Nat} (fresh : i ∉ taken) :
    untaken (taken ++ [i]) names = untaken taken names - names.count i := by
  induction names with
  | nil => rfl
  | cons first rest ih =>
      have bound : rest.count i ≤ untaken taken rest := count_le_untaken fresh
      rw [untaken_cons, untaken_cons, List.count_cons, ih]
      by_cases same : first = i
      · subst same
        simp [fresh]
      · by_cases before : first ∈ taken
        · simp [same, before]
        · simp only [List.mem_append, List.mem_singleton, before, same, or_self, beq_iff_eq, if_false]
          omega

/-- Whatever reads a place that has not been taken waits for it as often as it names it. -/
theorem Counts.waits (counts : Counts reads count) (fresh : i ∉ count.taken)
    (member : j ∈ readersOf reads i) :
    ∃ left, count.unmet[j]? = some left ∧ (readersOf reads i).count j ≤ left := by
  obtain ⟨names, found, _⟩ := mem_readersOf.mp member
  refine ⟨untaken count.taken names, by rw [counts.unmet, found]; rfl, ?_⟩
  rw [count_readersOf, List.getD_eq_getElem?_getD, found]
  exact count_le_untaken fresh

/-- No place that reads a ready one has been taken, and none reads itself. -/
theorem Counts.reader_untaken (counts : Counts reads count) (ready : i ∈ count.ready)
    {names : List Nat} (found : reads[j]? = some names) (reading : i ∈ names) :
    j ∉ count.taken ∧ j ≠ i := by
  obtain ⟨fresh, own, isOwn, met⟩ := (counts.ready i).mp ready
  refine ⟨fun before => fresh (counts.closed j before names found reading), ?_⟩
  rintro rfl
  cases isOwn.symm.trans found
  exact fresh (met reading)

theorem Counts.step (counts : Counts reads count) {rest : List Nat}
    (first : count.ready = i :: rest) :
    ∃ next, (readersOf reads i).foldlM countDown (count.take i rest) = some next ∧
      Counts reads next ∧ next.taken = count.taken ++ [i] := by
  obtain ⟨least, ascending⟩ := List.pairwise_cons.mp (first ▸ counts.ascending)
  obtain ⟨fresh, own, isOwn, met⟩ := (counts.ready i).mp (first ▸ List.mem_cons_self)
  have enough : ∀ j ∈ readersOf reads i, ∃ left, (count.take i rest).unmet[j]? = some left ∧
      (readersOf reads i).count j ≤ left := fun j => counts.waits fresh
  obtain ⟨next, fold, taken, unmet, nextAscending, ready⟩ := foldlM_countDown enough ascending
  simp only [take_unmet, take_ready, take_taken] at taken unmet ready
  have nextUnmet : ∀ j : Nat, next.unmet[j]? = (reads[j]?).map (untaken next.taken) := by
    intro j
    rw [unmet, counts.unmet, count_readersOf, List.getD_eq_getElem?_getD, taken]
    cases reads[j]? with
    | none => rfl
    | some names => exact congrArg some (untaken_concat fresh).symm
  refine ⟨next, fold, ⟨nextUnmet, nextAscending, fun j => ?_, fun j member names found => ?_⟩, taken⟩
  · rw [ready, nextUnmet, taken, mem_readersOf]
    -- A place is ready now if it was, or if this one was the last that it waited for.
    constructor
    · rintro (before | ⟨⟨names, found, reading⟩, none⟩)
      · obtain ⟨freshToo, names, found, among⟩ :=
          (counts.ready j).mp (first ▸ List.mem_cons_of_mem _ before)
        have unlike : j ≠ i := Nat.ne_of_gt (least j before)
        exact ⟨by simp [freshToo, unlike], names, found, List.subset_append_of_subset_left _ among⟩
      · obtain ⟨freshToo, unlike⟩ :=
          counts.reader_untaken (first ▸ List.mem_cons_self) found reading
        rw [found, Option.map_some, Option.some.injEq, untaken_eq_zero] at none
        exact ⟨by simp [freshToo, unlike], names, found, none⟩
    · rintro ⟨still, names, found, among⟩
      obtain ⟨before, unlike⟩ : j ∉ count.taken ∧ j ≠ i := by simpa using still
      by_cases reading : i ∈ names
      · refine .inr ⟨⟨names, found, reading⟩, ?_⟩
        rw [found, Option.map_some, Option.some.injEq, untaken_eq_zero]
        exact among
      · have earlier : names ⊆ count.taken := by
          intro k member
          rcases List.mem_append.mp (among member) with there | here
          · exact there
          · exact absurd (List.mem_singleton.mp here ▸ member) reading
        have wasReady := first ▸ (counts.ready j).mpr ⟨before, names, found, earlier⟩
        exact .inl ((List.mem_cons.mp wasReady).resolve_left unlike)
  · rw [taken] at member ⊢
    rcases List.mem_append.mp member with before | here
    · exact List.subset_append_of_subset_left _ (counts.closed j before names found)
    · cases List.mem_singleton.mp here
      cases isOwn.symm.trans found
      exact List.subset_append_of_subset_left _ met

end Countdown

/-! ### Settings by their places -/

variable {settings taken waiting order left : List Setting} {steps : Nat}

def placeOf (settings : List Setting) (name : String) : Nat :=
  (settings.map (·.name)).idxOf name

def place (settings : List Setting) (setting : Setting) : Nat :=
  placeOf settings setting.name

def placesRead (settings : List Setting) : List (List Nat) :=
  settings.map fun setting => setting.dependencies.map (placeOf settings)

theorem place_getElem (distinct : (settings.map (·.name)).Nodup) (i : Nat)
    (inside : i < settings.length) : place settings settings[i] = i := by
  have own := distinct.idxOf_getElem i (by simpa using inside)
  rwa [List.getElem_map] at own

/-- Places ascend in the order of declaration. -/
theorem pairwise_place (distinct : (settings.map (·.name)).Nodup) :
    settings.Pairwise fun a b => place settings a < place settings b := by
  rw [List.pairwise_iff_getElem]
  intro i j iInside jInside less
  rwa [place_getElem distinct i iInside, place_getElem distinct j jInside]

theorem getElem?_place (distinct : (settings.map (·.name)).Nodup) {setting : Setting}
    (member : setting ∈ settings) : settings[place settings setting]? = some setting := by
  obtain ⟨i, inside, rfl⟩ := List.getElem_of_mem member
  rw [place_getElem distinct i inside, List.getElem?_eq_getElem inside]

theorem placeOf_mem {name : String} (declared : name ∈ settings.map (·.name)) :
    placeOf settings name ∈ taken.map (place settings) ↔ name ∈ taken.map (·.name) := by
  constructor
  · intro member
    obtain ⟨setting, there, same⟩ := List.mem_map.mp member
    exact List.mem_map.mpr ⟨setting, there, ((List.idxOf_inj declared).mp same.symm).symm⟩
  · intro member
    obtain ⟨setting, there, rfl⟩ := List.mem_map.mp member
    exact List.mem_map_of_mem there

def remaining (settings taken : List Setting) : List Setting :=
  settings.filter fun setting => !(taken.map (·.name)).contains setting.name

theorem remaining_concat (setting : Setting) :
    remaining settings (taken ++ [setting]) =
      (remaining settings taken).filter fun s => s.name != setting.name := by
  rw [remaining, remaining, List.filter_filter]
  refine List.filter_congr fun other _ => ?_
  rw [Bool.eq_iff_iff]
  simp [and_comm]

section

variable {count : Countdown} (distinct : (settings.map (·.name)).Nodup) (closed : Closed settings)

include distinct closed

/-- The counts make those settings ready whose dependencies have all been taken. -/
theorem mem_ready (counts : count.Counts (placesRead settings))
    (same : count.taken = taken.map (place settings)) {i : Nat} :
    i ∈ count.ready ↔ ∃ setting ∈ remaining settings taken,
      place settings setting = i ∧ isReady (taken.map (·.name)) setting = true := by
  have met : ∀ setting ∈ settings, setting.dependencies.map (placeOf settings) ⊆ count.taken ↔
      isReady (taken.map (·.name)) setting = true := by
    intro setting member
    rw [same, isReady, List.all_eq_true, List.subset_def, List.forall_mem_map]
    refine forall₂_congr fun name dependency => ?_
    rw [placeOf_mem (closed setting member name dependency), List.contains_iff_mem]
  have free : ∀ setting ∈ settings, place settings setting ∉ count.taken ↔
      setting ∈ remaining settings taken := by
    intro setting member
    rw [same, place, placeOf_mem (List.mem_map_of_mem member), remaining, List.mem_filter]
    simp [member]
  rw [counts.ready, placesRead]
  simp only [List.getElem?_map, Option.map_eq_some_iff]
  constructor
  · rintro ⟨fresh, _, ⟨setting, found, rfl⟩, taken⟩
    obtain ⟨inside, rfl⟩ := List.getElem?_eq_some_iff.mp found
    have member := List.getElem_mem inside
    have isPlace := place_getElem distinct i inside
    exact ⟨settings[i], (free _ member).mp (isPlace.symm ▸ fresh), isPlace, (met _ member).mp taken⟩
  · rintro ⟨setting, waits, rfl, ready⟩
    have member := (List.mem_filter.mp waits).1
    exact ⟨(free setting member).mpr waits, _, ⟨setting, getElem?_place distinct member, rfl⟩,
      (met setting member).mpr ready⟩

/-- The place that is taken next is that of the first setting found ready. -/
theorem head?_ready (counts : count.Counts (placesRead settings))
    (same : count.taken = taken.map (place settings)) :
    count.ready.head? = ((remaining settings taken).find? (isReady (taken.map (·.name)))).map
      (place settings) := by
  cases found : (remaining settings taken).find? (isReady (taken.map (·.name))) with
  | none =>
      rw [Option.map_none, List.head?_eq_none_iff, List.eq_nil_iff_forall_not_mem]
      intro i ready
      obtain ⟨setting, waits, _, isReady⟩ := (mem_ready distinct closed counts same).mp ready
      exact List.find?_eq_none.mp found setting waits isReady
  | some setting =>
      have ready := (mem_ready distinct closed counts same).mpr ⟨setting,
        List.mem_of_find?_eq_some found, rfl, List.find?_some found⟩
      have ranked : (remaining settings taken).Pairwise fun a b => place settings a < place settings b :=
        (pairwise_place distinct).filter _
      obtain ⟨_, before, after, split, unready⟩ := List.find?_eq_some_iff_append.mp found
      rw [split] at ranked
      have least : ∀ i ∈ count.ready, place settings setting ≤ i := by
        intro i isReady
        obtain ⟨other, waits, rfl, otherReady⟩ := (mem_ready distinct closed counts same).mp isReady
        rw [split] at waits
        rcases List.mem_append.mp waits with early | late
        · exact absurd (unready other early) (by simp [otherReady])
        · rcases List.mem_cons.mp late with rfl | late
          · exact Nat.le_refl _
          · exact Nat.le_of_lt
              ((List.pairwise_cons.mp (List.pairwise_append.mp ranked).2.1).1 other late)
      obtain ⟨first, rest, cons⟩ := List.exists_cons_of_ne_nil (List.ne_nil_of_mem ready)
      have ascending := cons ▸ counts.ascending
      have notAfter := least first (cons ▸ List.mem_cons_self)
      rw [cons] at ready ⊢
      rcases List.mem_cons.mp ready with isFirst | later
      · exact congrArg some isFirst.symm
      · exact absurd ((List.pairwise_cons.mp ascending).1 _ later) (Nat.not_lt.mpr notAfter)

/-- Counting down takes the settings that `takeReady` takes, and never falls below zero. -/
theorem run_eq_takeReady (run : takeReady steps taken (remaining settings taken) = (order, left))
    (counts : count.Counts (placesRead settings))
    (same : count.taken = taken.map (place settings)) :
    ∃ final, Countdown.run (placesRead settings) steps count = some final ∧
      final.Counts (placesRead settings) ∧ final.taken = order.map (place settings) ∧
      left = remaining settings order := by
  induction steps generalizing taken count with
  | zero =>
      cases run
      exact ⟨count, rfl, counts, same, rfl⟩
  | succ steps ih =>
      have head := head?_ready distinct closed counts same
      simp only [takeReady] at run
      split at run
      · rename_i none
        cases run
        rw [none, Option.map_none, List.head?_eq_none_iff] at head
        exact ⟨count, by rw [Countdown.run, head], counts, same, rfl⟩
      · rename_i setting found
        rw [found, Option.map_some, List.head?_eq_some_iff] at head
        obtain ⟨rest, ready⟩ := head
        obtain ⟨next, fold, nextCounts, taken⟩ := counts.step ready
        rw [← remaining_concat] at run
        obtain ⟨final, ran, finalCounts⟩ := ih run nextCounts (by rw [taken, same]; simp)
        refine ⟨final, ?_, finalCounts⟩
        rw [Countdown.run, ready]
        simp only [fold, Option.bind_eq_bind, Option.bind_some]
        exact ran

end

/-- Counting down from the declarations ends with nothing more to take, and has taken what
`takeReady` takes. -/
theorem run_start (distinct : (settings.map (·.name)).Nodup) (closed : Closed settings)
    (run : takeReady settings.length [] settings = (order, left)) :
    ∃ final, Countdown.run (placesRead settings) settings.length (.start (placesRead settings)) =
        some final ∧
      final.ready = [] ∧ final.taken = order.map (place settings) := by
  have all : remaining settings [] = settings := List.filter_eq_self.mpr fun _ _ => rfl
  have runAll : takeReady settings.length [] (remaining settings []) = (order, left) := by rwa [all]
  obtain ⟨final, ran, counts, taken, rest⟩ :=
    run_eq_takeReady distinct closed runAll (.start (placesRead settings)) rfl
  refine ⟨final, ran, List.eq_nil_iff_forall_not_mem.mpr fun i ready => ?_, taken⟩
  obtain ⟨setting, waits, _, isReady⟩ := (mem_ready distinct closed counts taken).mp ready
  have stuck := takeReady_stuck run (Nat.le_refl _) setting (rest ▸ waits)
  exact absurd isReady (by simp [stuck])

end HubKeeper.Schema

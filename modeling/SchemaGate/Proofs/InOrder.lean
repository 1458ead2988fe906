import Mathlib.Data.List.Induction
import Mathlib.Data.List.Nodup

/-!
# Lists in the order of a relation

A walk through a structure lists what it meets in the order of the places. `InOrder` says this of a
list and a relation between keys, which name the places, and items. `append` and `flatMap` put the
walks through parts together. The main statements are `nodup_map_iff` and `firstRepeat_map_iff`:
what a list repeats, and what it repeats first, can be told from the keys.
-/

namespace SchemaGate

/-- A list holds the items that a relation gives to keys, one for each key, in the order of the
keys. -/
def InOrder {κ ι : Type} (before : κ → κ → Prop) (rel : κ → ι → Prop) (items : List ι) : Prop :=
  ∃ entries : List (κ × ι), entries.Pairwise (fun a b => before a.1 b.1) ∧
    (∀ key item, (key, item) ∈ entries ↔ rel key item) ∧ entries.map (·.2) = items

/-- The first item of a list that repeats an earlier one. -/
def FirstRepeat {ι : Type} (items : List ι) (item : ι) : Prop :=
  ∃ earlier later, items = earlier ++ item :: later ∧ item ∈ earlier ∧ earlier.Nodup

namespace InOrder

variable {κ ι α : Type} {before : κ → κ → Prop} {rel rel' : κ → ι → Prop} {items others : List ι}

/-- A walk along a relation is one along every equivalent relation. -/
theorem congr (h : InOrder before rel items) (hrel : ∀ key item, rel' key item ↔ rel key item) :
    InOrder before rel' items := by
  obtain ⟨entries, hordered, hmem, hitems⟩ := h
  exact ⟨entries, hordered, fun key item => (hmem key item).trans (hrel key item).symm, hitems⟩

/-- The list of a walk holds what the relation gives to some key. -/
theorem mem_iff (h : InOrder before rel items) {item : ι} : item ∈ items ↔ ∃ key, rel key item := by
  obtain ⟨entries, -, hmem, rfl⟩ := h
  simp [hmem]

/-- A walk of one step. -/
theorem singleton (key : κ) (item : ι) :
    InOrder before (fun k i => k = key ∧ i = item) [item] :=
  ⟨[(key, item)], List.pairwise_singleton _ _, by simp, rfl⟩

/-- The keys may be renamed if the order is kept. -/
theorem map {κ' : Type} {before' : κ' → κ' → Prop} {rename : κ → κ'}
    (hrename : ∀ key other, before key other → before' (rename key) (rename other))
    (h : InOrder before rel items) :
    InOrder before' (fun k i => ∃ key, k = rename key ∧ rel key i) items := by
  obtain ⟨entries, hordered, hmem, rfl⟩ := h
  refine ⟨entries.map fun entry => (rename entry.1, entry.2), ?_, ?_, ?_⟩
  · exact List.pairwise_map.2 (hordered.imp fun hbefore => hrename _ _ hbefore)
  · intro k i
    simp only [List.mem_map, Prod.mk.injEq, Prod.exists, hmem]
    constructor
    · rintro ⟨key, item, hrel, rfl, rfl⟩
      exact ⟨key, rfl, hrel⟩
    · rintro ⟨key, rfl, hrel⟩
      exact ⟨key, i, hrel, rfl, rfl⟩
  · simp

/-- One walk after another, if all keys of the first come before those of the second. -/
theorem append (hitems : InOrder before rel items) (hothers : InOrder before rel' others)
    (hbefore : ∀ key item other item', rel key item → rel' other item' → before key other) :
    InOrder before (fun key item => rel key item ∨ rel' key item) (items ++ others) := by
  obtain ⟨entries, hordered, hmem, rfl⟩ := hitems
  obtain ⟨entries', hordered', hmem', rfl⟩ := hothers
  refine ⟨entries ++ entries', ?_, ?_, List.map_append⟩
  · refine List.pairwise_append.2 ⟨hordered, hordered', ?_⟩
    rintro ⟨key, item⟩ hentry ⟨other, item'⟩ hentry'
    exact hbefore key item other item' ((hmem key item).1 hentry) ((hmem' other item').1 hentry')
  · intro key item
    rw [List.mem_append, hmem, hmem']

/-- The walks through the elements of a list, one after the other. -/
theorem flatMap {list : List α} {part : α → List ι} {rel : Nat → α → κ → ι → Prop}
    (h : ∀ n x, list[n]? = some x → InOrder before (rel n x) (part x))
    (hbefore : ∀ m n x y key item other item', m < n → rel m x key item → rel n y other item' →
      before key other) :
    InOrder before (fun key item => ∃ n x, list[n]? = some x ∧ rel n x key item)
      (list.flatMap part) := by
  -- Taking the last element off leaves the places of the others as they are.
  induction list using List.reverseRecOn with
  | nil => exact ⟨[], .nil, by simp, rfl⟩
  | append_singleton list x ih =>
      have hinit := ih fun n y hy => h n y <| by
        rwa [List.getElem?_append_left (List.getElem?_eq_some_iff.1 hy).1]
      have hlast := h list.length x (by simp)
      rw [List.flatMap_append, List.flatMap_singleton]
      refine (hinit.append hlast ?_).congr fun key item => ?_
      · rintro key item other item' ⟨n, y, hy, hrel⟩ hrel'
        exact hbefore _ _ _ _ _ _ _ _ (List.getElem?_eq_some_iff.1 hy).1 hrel hrel'
      · constructor
        · rintro ⟨n, y, hy, hrel⟩
          rcases Nat.lt_or_ge n list.length with hn | hn
          · exact .inl ⟨n, y, by rwa [List.getElem?_append_left hn] at hy, hrel⟩
          · rw [List.getElem?_append_right hn, List.getElem?_singleton] at hy
            split at hy
            · obtain rfl : n = list.length := by omega
              cases hy
              exact .inr hrel
            · cases hy
        · rintro (⟨n, y, hy, hrel⟩ | hrel)
          · refine ⟨n, y, ?_, hrel⟩
            rwa [List.getElem?_append_left (List.getElem?_eq_some_iff.1 hy).1]
          · exact ⟨list.length, x, by simp, hrel⟩

section Repeats

variable {β : Type} {image : ι → β}

/-- A key repeats a value: its item has the value as image, and so has that of an earlier key. -/
def Repeats (before : κ → κ → Prop) (rel : κ → ι → Prop) (image : ι → β) (key : κ) (value : β) :
    Prop :=
  (∃ item, rel key item ∧ image item = value) ∧
    ∃ earlier item, before earlier key ∧ rel earlier item ∧ image item = value

variable [Std.Asymm before]

/-- What comes before an entry of a list in order stands before it in the list. -/
theorem mem_of_before {entries earlier later : List (κ × ι)} {entry other : κ × ι}
    (hordered : entries.Pairwise fun a b => before a.1 b.1)
    (hsplit : entries = earlier ++ entry :: later) (hother : other ∈ entries)
    (hbefore : before other.1 entry.1) : other ∈ earlier := by
  rw [hsplit] at hordered hother
  rcases List.mem_append.1 hother with hmem | hmem
  · exact hmem
  · have hlater := (List.pairwise_cons.1 (List.pairwise_append.1 hordered).2.1).1
    rcases List.mem_cons.1 hmem with rfl | hmem
    · exact absurd hbefore (Std.Asymm.asymm _ _ hbefore)
    · exact absurd hbefore (Std.Asymm.asymm _ _ (hlater other hmem))

/-- The images in a walk are different exactly when no two keys have items with the same image. -/
theorem nodup_map_iff (h : InOrder before rel items) :
    (items.map image).Nodup ↔
      ∀ key item other item', rel key item → rel other item' → image item = image item' →
        key = other := by
  obtain ⟨entries, hordered, hmem, rfl⟩ := h
  rw [List.map_map]
  constructor
  · intro hnodup key item other item' hitem hitem' himage
    have hsame := List.inj_on_of_nodup_map hnodup ((hmem key item).2 hitem)
      ((hmem other item').2 hitem') himage
    exact congrArg Prod.fst hsame
  · intro hdistinct
    refine List.pairwise_map.2 (hordered.imp_of_mem ?_)
    rintro ⟨key, item⟩ ⟨other, item'⟩ hentry hentry' hbefore himage
    obtain rfl := hdistinct _ _ _ _ ((hmem _ _).1 hentry) ((hmem _ _).1 hentry') himage
    exact Std.Asymm.asymm _ _ hbefore hbefore

/-- The first image that is repeated in a walk is that of the first key that repeats one. -/
theorem firstRepeat_map_iff (h : InOrder before rel items) {value : β} :
    FirstRepeat (items.map image) value ↔
      ∃ key, Repeats before rel image key value ∧
        ∀ earlier, before earlier key → ∀ other, ¬Repeats before rel image earlier other := by
  obtain ⟨entries, hordered, hmem, rfl⟩ := h
  rw [List.map_map]
  constructor
  · rintro ⟨earlier, later, hsplit, hvalue, hnodup⟩
    obtain ⟨front, back, rfl, rfl, hback⟩ := List.map_eq_append_iff.1 hsplit
    obtain ⟨⟨key, item⟩, back, rfl, rfl, rfl⟩ := List.map_eq_cons_iff.1 hback
    obtain ⟨⟨first, item'⟩, hfirst, himage⟩ := List.mem_map.1 hvalue
    have hbefore : before first key := (List.pairwise_append.1 hordered).2.2 _ hfirst _
      List.mem_cons_self
    refine ⟨key, ⟨⟨item, (hmem _ _).1 (by simp), rfl⟩, first, item', hbefore,
      (hmem _ _).1 (List.mem_append_left _ hfirst), himage⟩, ?_⟩
    -- A repeat before the key would be one among the images that are different.
    rintro middle hmiddle value ⟨⟨item₁, hrel₁, himage₁⟩, start, item₂, hstart, hrel₂, himage₂⟩
    have hfront := mem_of_before hordered rfl ((hmem _ _).2 hrel₁) hmiddle
    obtain ⟨front₁, front₂, rfl⟩ := List.append_of_mem hfront
    rw [List.append_assoc, List.cons_append] at hordered hmem
    have hstart' := mem_of_before hordered rfl ((hmem _ _).2 hrel₂) hstart
    rw [List.map_append, List.map_cons, List.nodup_append] at hnodup
    exact hnodup.2.2 _ (List.mem_map_of_mem hstart') _ List.mem_cons_self
      (himage₂.trans himage₁.symm)
  · rintro ⟨key, ⟨⟨item, hrel, rfl⟩, first, item', hfirst, hrel', himage⟩, hleast⟩
    obtain ⟨front, back, rfl⟩ := List.append_of_mem ((hmem _ _).2 hrel)
    have hfront := mem_of_before hordered rfl ((hmem _ _).2 hrel') hfirst
    refine ⟨_, _, List.map_append, List.mem_map.2 ⟨_, hfront, himage⟩, ?_⟩
    have hkeys := List.pairwise_append.1 hordered
    refine List.pairwise_map.2 (hkeys.1.imp_of_mem ?_)
    rintro ⟨start, item₁⟩ ⟨middle, item₂⟩ hstart hmiddle hbefore hsame
    refine hleast middle (hkeys.2.2 _ hmiddle _ List.mem_cons_self) _
      ⟨⟨item₂, (hmem _ _).1 (List.mem_append_left _ hmiddle), rfl⟩, start, item₁, hbefore,
        (hmem _ _).1 (List.mem_append_left _ hstart), hsame⟩

end Repeats

end InOrder

end SchemaGate

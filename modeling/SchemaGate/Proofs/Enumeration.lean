import Mathlib.Data.List.Enum
import Mathlib.Data.List.Induction
import Mathlib.Data.List.Nodup
import Mathlib.Data.List.Perm.Basic

/-!
# Lists that enumerate a relation

A checker that walks through a structure and lists what it finds should list one item for each
place where there is something to find. `Enumerates` says this of a list and a relation between
keys, which name the places, and items. The main statements are `append` and `flatMap`, which put
enumerations of parts together, and `eq_nil_iff`: nothing is listed exactly when the relation is
empty.
-/

namespace SchemaGate

/-- A list holds, up to order, one item for every key to which a relation gives an item, and no
other. -/
def Enumerates {κ ι : Type} (rel : κ → ι → Prop) (items : List ι) : Prop :=
  ∃ entries : List (κ × ι), (entries.map (·.1)).Nodup ∧
    (∀ key item, (key, item) ∈ entries ↔ rel key item) ∧ items.Perm (entries.map (·.2))

namespace Enumerates

variable {κ ι α : Type} {rel rel' : κ → ι → Prop} {items others : List ι}

/-- The order of the list does not matter. -/
theorem perm (h : Enumerates rel items) (hperm : others.Perm items) : Enumerates rel others := by
  obtain ⟨entries, hnodup, hmem, hitems⟩ := h
  exact ⟨entries, hnodup, hmem, hperm.trans hitems⟩

/-- An enumeration of a relation enumerates every equivalent one. -/
theorem congr (h : Enumerates rel items) (hrel : ∀ key item, rel' key item ↔ rel key item) :
    Enumerates rel' items := by
  obtain ⟨entries, hnodup, hmem, hitems⟩ := h
  exact ⟨entries, hnodup, fun key item => (hmem key item).trans (hrel key item).symm, hitems⟩

/-- An item is listed exactly when the relation gives it to some key. -/
theorem mem_iff (h : Enumerates rel items) {item : ι} : item ∈ items ↔ ∃ key, rel key item := by
  obtain ⟨entries, -, hmem, hitems⟩ := h
  rw [hitems.mem_iff, List.mem_map]
  constructor
  · intro hentry
    obtain ⟨⟨key, other⟩, hentry, rfl⟩ := hentry
    exact ⟨key, (hmem key other).1 hentry⟩
  · intro hrel
    obtain ⟨key, hrel⟩ := hrel
    exact ⟨(key, item), (hmem key item).2 hrel, rfl⟩

/-- Nothing is listed exactly when the relation is empty. -/
theorem eq_nil_iff (h : Enumerates rel items) : items = [] ↔ ∀ key item, ¬rel key item := by
  rw [List.eq_nil_iff_forall_not_mem]
  constructor
  · intro hnone key item hrel
    exact hnone item (h.mem_iff.2 ⟨key, hrel⟩)
  · intro hnone item hitem
    obtain ⟨key, hrel⟩ := h.mem_iff.1 hitem
    exact hnone key item hrel

/-- The empty list enumerates the empty relation. -/
theorem nil (h : ∀ key item, ¬rel key item) : Enumerates rel [] :=
  ⟨[], List.nodup_nil, by simpa using h, .refl _⟩

/-- A list whose items have different keys enumerates its items under their keys. -/
theorem of_key (key : ι → κ) {holds : ι → Prop} (hnodup : (items.map key).Nodup)
    (hmem : ∀ item, item ∈ items ↔ holds item) :
    Enumerates (fun k item => key item = k ∧ holds item) items := by
  refine ⟨items.map fun item => (key item, item), ?_, ?_, ?_⟩
  · simpa [Function.comp_def] using hnodup
  · intro k item
    simp only [List.mem_map, Prod.mk.injEq, ← hmem]
    constructor
    · rintro ⟨found, hfound, rfl, rfl⟩
      exact ⟨rfl, hfound⟩
    · rintro ⟨rfl, hitem⟩
      exact ⟨item, hitem, rfl, rfl⟩
  · simp [Function.comp_def]

/-- A list of at most one item enumerates it under any one key. -/
theorem ofDecidable {p : Prop} [Decidable p] (key : κ) (item : ι) :
    Enumerates (fun k i => key = k ∧ p ∧ i = item) (if p then [item] else []) := by
  refine of_key (fun _ => key) ?_ ?_
  · split <;> simp
  · intro i
    split <;> simp_all

/-- Renaming the keys one-to-one and changing the items keeps an enumeration. -/
theorem map {κ' ι' : Type} {rename : κ → κ'} (change : ι → ι')
    (hinjective : Function.Injective rename) (h : Enumerates rel items) :
    Enumerates (fun k i => ∃ key item, rename key = k ∧ change item = i ∧ rel key item)
      (items.map change) := by
  obtain ⟨entries, hnodup, hmem, hitems⟩ := h
  refine ⟨entries.map (Prod.map rename change), ?_, ?_, ?_⟩
  · have hkeys := hnodup.map hinjective
    rw [List.map_map] at hkeys ⊢
    exact hkeys
  · intro k i
    simp only [List.mem_map, Prod.exists, hmem, Prod.map, Prod.mk.injEq]
    constructor
    · rintro ⟨key, item, hrel, hkey, hitem⟩
      exact ⟨key, item, hkey, hitem, hrel⟩
    · rintro ⟨key, item, hkey, hitem, hrel⟩
      exact ⟨key, item, hrel, hkey, hitem⟩
  · rw [List.map_map]
    simpa [Function.comp_def] using hitems.map change

/-- Two lists one after the other enumerate a relation if the first enumerates it on the keys with a
property and the second on the others. -/
theorem append {p : κ → Prop} (hitems : Enumerates (fun key item => p key ∧ rel key item) items)
    (hothers : Enumerates (fun key item => ¬p key ∧ rel key item) others) :
    Enumerates rel (items ++ others) := by
  obtain ⟨entries, hnodup, hmem, hperm⟩ := hitems
  obtain ⟨entries', hnodup', hmem', hperm'⟩ := hothers
  refine ⟨entries ++ entries', ?_, ?_, ?_⟩
  · rw [List.map_append, List.nodup_append]
    refine ⟨hnodup, hnodup', ?_⟩
    intro key hkey key' hkey' heq
    obtain ⟨⟨_, item⟩, hentry, rfl⟩ := List.mem_map.1 hkey
    obtain ⟨⟨_, item'⟩, hentry', rfl⟩ := List.mem_map.1 hkey'
    subst heq
    exact ((hmem' _ _).1 hentry').1 ((hmem _ _).1 hentry).1
  · intro key item
    rw [List.mem_append, hmem, hmem']
    by_cases hp : p key <;> simp [hp]
  · rw [List.map_append]
    exact hperm.append hperm'

/-- Keys come in stages: what the next stage lists is put behind what the earlier ones list. -/
theorem append_stage {stage : κ → Nat} {n : Nat}
    (hitems : Enumerates (fun key item => stage key < n ∧ rel key item) items)
    (hothers : Enumerates (fun key item => stage key = n ∧ rel key item) others) :
    Enumerates (fun key item => stage key < n + 1 ∧ rel key item) (items ++ others) := by
  refine append (p := fun key => stage key < n) (hitems.congr fun key item => ?_)
    (hothers.congr fun key item => ?_)
  · constructor
    · rintro ⟨hlt, -, hrel⟩
      exact ⟨hlt, hrel⟩
    · rintro ⟨hlt, hrel⟩
      exact ⟨hlt, by omega, hrel⟩
  · constructor
    · rintro ⟨hnot, hlt, hrel⟩
      exact ⟨by omega, hrel⟩
    · rintro ⟨heq, hrel⟩
      exact ⟨by omega, by omega, hrel⟩

/-- What is listed for the elements of a list in turn enumerates a relation if each element's part
enumerates it on the keys of the element's place. -/
theorem flatMap_zipIdx (place : κ → Nat) {list : List α} {part : α × Nat → List ι}
    (h : ∀ n x, list[n]? = some x →
      Enumerates (fun key item => place key = n ∧ rel key item) (part (x, n)))
    (hplace : ∀ key item, rel key item → place key < list.length) :
    Enumerates rel (list.zipIdx.flatMap part) := by
  -- Taking the last element off leaves the places of the others as they are.
  induction list using List.reverseRecOn generalizing rel with
  | nil =>
      refine ⟨[], List.nodup_nil, fun key item => ?_, .refl _⟩
      simpa using fun hrel => hplace key item hrel
  | append_singleton list x ih =>
      rw [List.zipIdx_append, List.flatMap_append]
      refine append (p := fun key => place key < list.length) (ih ?_ fun key item hrel => hrel.1) ?_
      · intro n y hy
        have hn : n < list.length := (List.getElem?_eq_some_iff.1 hy).1
        refine (h n y (by rwa [List.getElem?_append_left hn])).congr fun key item => ?_
        constructor
        · rintro ⟨hkey, -, hrel⟩
          exact ⟨hkey, hrel⟩
        · rintro ⟨hkey, hrel⟩
          exact ⟨hkey, hkey ▸ hn, hrel⟩
      · have hlast := h list.length x (by simp)
        simp only [List.zipIdx_singleton, Nat.zero_add, List.flatMap_cons, List.flatMap_nil,
          List.append_nil]
        refine hlast.congr fun key item => ?_
        constructor
        · rintro ⟨hkey, hrel⟩
          have hlt := hplace key item hrel
          rw [List.length_append, List.length_singleton] at hlt
          exact ⟨by omega, hrel⟩
        · rintro ⟨hkey, hrel⟩
          exact ⟨by omega, hrel⟩

/-- The same for parts that do not depend on the place. -/
theorem flatMap (place : κ → Nat) {list : List α} {part : α → List ι}
    (h : ∀ n x, list[n]? = some x →
      Enumerates (fun key item => place key = n ∧ rel key item) (part x))
    (hplace : ∀ key item, rel key item → place key < list.length) :
    Enumerates rel (list.flatMap part) := by
  have hzip : list.flatMap part = list.zipIdx.flatMap fun entry => part entry.1 := by
    conv_lhs => rw [← List.zipIdx_map_fst 0 list]
    rw [List.flatMap_map]
  rw [hzip]
  exact flatMap_zipIdx place h hplace

/-- What is listed for the elements with a property. -/
theorem filter (place : κ → Nat) {list : List α} {p : α → Bool} {report : α → ι}
    (h : ∀ n x, list[n]? = some x →
      ∃ key, ∀ k item, (place k = n ∧ rel k item ↔ key = k ∧ p x = true ∧ item = report x))
    (hplace : ∀ key item, rel key item → place key < list.length) :
    Enumerates rel ((list.filter p).map report) := by
  have hflat : (list.filter p).map report =
      list.flatMap fun x => if p x = true then [report x] else [] := by
    clear h hplace
    induction list with
    | nil => rfl
    | cons x list ih =>
        rw [List.filter_cons, List.flatMap_cons, ← ih]
        split <;> simp
  rw [hflat]
  refine flatMap place (fun n x hx => ?_) hplace
  obtain ⟨key, hkey⟩ := h n x hx
  exact (ofDecidable key (report x)).congr hkey

end Enumerates

end SchemaGate

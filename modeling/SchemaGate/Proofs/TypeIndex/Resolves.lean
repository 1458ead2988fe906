import SchemaGate.Proofs.TypeIndex.Resolution

/-!
# When a reference resolves

A reference to a map type resolves if the type of its keys and the type of its values both stand for
something, and any other reference if it stands for something itself. `Resolves` says so in terms of
`NamesMap`, which reads the two types off the text of a map type, and of `Denotes`. The main
statement is `isResolvable_iff_resolves`.
-/

namespace SchemaGate

/-- A reference is the text of a map type: without outer blanks it is a text after `map<` and before
a bracket, and the first comma in it separates the key from the value, both without outer blanks. -/
def NamesMap (reference key value : String) : Prop :=
  ∃ before after, Text.trim reference.toList =
      "map<".toList ++ (before ++ ',' :: after ++ ['>']) ∧ ',' ∉ before ∧
    key = String.ofList (Text.trim before) ∧ value = String.ofList (Text.trim after)

/-- A reference is split into a key and a value exactly when it is the text of a map type. -/
theorem mapReference?_eq_some_iff {reference key value : String} :
    mapReference? reference = some (key, value) ↔ NamesMap reference key value := by
  simp only [mapReference?, Option.bind_eq_bind, Option.bind_eq_some_iff,
    Text.dropPrefix?_eq_some_iff, Text.dropSuffix?_eq_some_iff, Prod.exists,
    Text.cutFirst?_eq_some_iff]
  constructor
  · intro h
    obtain ⟨opened, hopened, inner, rfl, before, after, ⟨rfl, hcomma⟩, hresult⟩ := h
    cases hresult
    exact ⟨before, after, hopened, hcomma, rfl, rfl⟩
  · intro h
    obtain ⟨before, after, htext, hcomma, rfl, rfl⟩ := h
    exact ⟨_, htext, _, rfl, before, after, ⟨rfl, hcomma⟩, rfl⟩

/-- A reference is not split exactly when it is not the text of a map type. -/
theorem mapReference?_eq_none_iff {reference : String} :
    mapReference? reference = none ↔ ∀ key value, ¬NamesMap reference key value := by
  rw [Option.eq_none_iff_forall_ne_some, Prod.forall]
  exact forall_congr' fun key => forall_congr' fun value => not_congr mapReference?_eq_some_iff

namespace TypeIndex

/-- A reference, which may be the text of a map type, stands for something as seen from a scope. -/
inductive Resolves (index : TypeIndex) (scope reference : String) : Prop where
  | map (key value keyPath valuePath : String) (hmap : NamesMap reference key value)
      (hkey : Denotes index scope key keyPath) (hvalue : Denotes index scope value valuePath)
  | plain (path : String) (hplain : ∀ key value, ¬NamesMap reference key value)
      (h : Denotes index scope (String.ofList (Text.trim reference.toList)) path)

variable {index : TypeIndex} {scope reference : String}

/-- A reference is looked up with success exactly when it stands for something. -/
theorem isSome_resolve?_iff :
    (index.resolve? reference scope).isSome = true ↔
      ∃ path, Denotes index scope (String.ofList (Text.trim reference.toList)) path := by
  rw [Option.isSome_iff_exists]
  exact exists_congr fun _ => ⟨denotes_of_resolve?, resolve?_of_denotes⟩

/-- The types of a map type are looked up as they are, because they have no outer blanks. -/
theorem isSome_resolve?_trimmed_iff {part : List Char} :
    (index.resolve? (String.ofList (Text.trim part)) scope).isSome = true ↔
      ∃ path, Denotes index scope (String.ofList (Text.trim part)) path := by
  rw [isSome_resolve?_iff, String.toList_ofList, Text.trim_trim]

/-- A reference is found to resolve exactly when it stands for something, or when it is the text of
a map type and both types in it do. -/
theorem isResolvable_iff_resolves :
    index.isResolvable reference scope = true ↔ Resolves index scope reference := by
  unfold isResolvable
  cases hmap : mapReference? reference with
  | none =>
      have hplain := mapReference?_eq_none_iff.1 hmap
      rw [isSome_resolve?_iff]
      constructor
      · intro h
        obtain ⟨path, hpath⟩ := h
        exact .plain path hplain hpath
      · intro h
        cases h with
        | map key value _ _ hnames => exact absurd hnames (hplain key value)
        | plain path _ hpath => exact ⟨path, hpath⟩
  | some types =>
      obtain ⟨key, value⟩ := types
      have hnames := mapReference?_eq_some_iff.1 hmap
      have hparts := hnames
      obtain ⟨before, after, -, -, rfl, rfl⟩ := hparts
      dsimp only
      rw [Bool.and_eq_true, isSome_resolve?_trimmed_iff, isSome_resolve?_trimmed_iff]
      constructor
      · intro h
        obtain ⟨⟨keyPath, hkey⟩, valuePath, hvalue⟩ := h
        exact .map _ _ keyPath valuePath hnames hkey hvalue
      · intro h
        cases h with
        | map key value keyPath valuePath hother hkey hvalue =>
            -- A text is that of one map type only.
            have hsame := hmap.symm.trans (mapReference?_eq_some_iff.2 hother)
            obtain ⟨rfl, rfl⟩ := Prod.mk.inj (Option.some.inj hsame)
            exact ⟨⟨keyPath, hkey⟩, valuePath, hvalue⟩
        | plain _ hplain => exact absurd hnames (hplain _ _)

/-- A reference is found not to resolve exactly when it does not. -/
theorem isResolvable_eq_false_iff :
    index.isResolvable reference scope = false ↔ ¬Resolves index scope reference := by
  rw [← isResolvable_iff_resolves, Bool.not_eq_true]

end TypeIndex

end SchemaGate

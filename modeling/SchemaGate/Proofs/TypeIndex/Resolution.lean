import Mathlib.Data.List.Infix
import SchemaGate.Proofs.TypeIndex.Paths

/-!
# What a reference stands for

`Denotes` says what a reference stands for as seen from a scope, in terms of the paths of the index
and of the scopes around that one. The names that begin with a given text are neighbours in the
order of names, so it is enough to look at the first name that is not below the text:
`exists_prefix_iff`. The main statement is `resolve?_exact`.
-/

namespace SchemaGate

namespace Text

/-- A text is found to begin with a part exactly when the part is a prefix of it. -/
theorem startsWith_iff {start text : List Char} :
    startsWith start text = true ↔ start <+: text := by
  rw [startsWith, Option.isSome_iff_exists]
  simp only [dropPrefix?_eq_some_iff]
  exact exists_congr fun _ => eq_comm

/-- A text that is neither below another text nor above one that begins with it begins with it as
well. -/
theorem prefix_of_between {start rest text : List Char} (hlow : ¬text < start)
    (hhigh : ¬start ++ rest < text) : start <+: text := by
  induction start generalizing text with
  | nil => exact List.nil_prefix
  | cons c start ih =>
      cases text with
      | nil => exact absurd (List.nil_lt_cons c start) hlow
      | cons d text =>
          rw [List.cons_lt_cons_iff, not_or, not_and] at hlow
          rw [List.cons_append, List.cons_lt_cons_iff, not_or, not_and] at hhigh
          obtain rfl : c = d := Char.le_antisymm (Char.not_lt.1 hlow.1) (Char.not_lt.1 hhigh.1)
          exact List.cons_prefix_cons.2 ⟨rfl, ih (hlow.2 rfl) (hhigh.2 rfl)⟩

end Text

/-- A search through a list in strict order finds the first item with a property. -/
theorem find?_eq_some_iff_of_pairwise {α : Type} {before : α → α → Prop} [Std.Asymm before]
    {items : List α} {p : α → Bool} {item : α} (h : items.Pairwise before) :
    items.find? p = some item ↔ item ∈ items ∧ p item = true ∧
      ∀ earlier ∈ items, before earlier item → p earlier = false := by
  induction items with
  | nil => simp
  | cons first items ih =>
      obtain ⟨hfirst, hitems⟩ := List.pairwise_cons.1 h
      rw [List.find?_cons, List.mem_cons, List.forall_mem_cons]
      cases hp : p first with
      | true =>
          constructor
          · intro heq
            obtain rfl := Option.some.inj heq
            refine ⟨.inl rfl, hp, fun hbefore => ?_, fun earlier hmem hbefore => ?_⟩
            · exact absurd hbefore (Std.Asymm.asymm _ _ hbefore)
            · exact absurd hbefore (Std.Asymm.asymm _ _ (hfirst earlier hmem))
          · rintro ⟨rfl | hmem, -, hnone, -⟩
            · rfl
            · cases hnone (hfirst item hmem)
      | false =>
          rw [ih hitems]
          constructor
          · rintro ⟨hmem, hitem, hnone⟩
            exact ⟨.inr hmem, hitem, fun _ => rfl, hnone⟩
          · rintro ⟨rfl | hmem, hitem, -, hnone⟩
            · rw [hp] at hitem
              cases hitem
            · exact ⟨hmem, hitem, hnone⟩

namespace NameMap

variable {α : Type} {table : NameMap α}

/-- Names come in strictly increasing order. -/
theorem pairwise_names (table : NameMap α) : table.names.Pairwise (· < ·) :=
  List.pairwise_map.2 table.ordered

/-- Some name of a table begins with a text exactly when the first name that is not below the text
does. -/
theorem exists_prefix_iff {start : String} :
    (∃ first, table.firstFrom? start = some first ∧ start.toList <+: first.toList) ↔
      ∃ name ∈ table.names, start.toList <+: name.toList := by
  constructor
  · rintro ⟨first, hfirst, hprefix⟩
    exact ⟨first, List.mem_of_find?_eq_some hfirst, hprefix⟩
  · rintro ⟨name, hname, hprefix⟩
    have hnot : ¬name < start := List.IsPrefix.le hprefix
    cases hfirst : table.firstFrom? start with
    | none =>
        have hbelow := List.find?_eq_none.1 hfirst name hname
        simp [hnot] at hbelow
    | some first =>
        have hasymm : Std.Asymm fun a b : String => a < b := ⟨fun _ _ => String.lt_asymm⟩
        obtain ⟨-, hlow, hbelow⟩ := (find?_eq_some_iff_of_pairwise table.pairwise_names).1 hfirst
        have hnotBelow : ¬first < start := by simpa using hlow
        refine ⟨first, rfl, ?_⟩
        -- The name is not before the first one, because what is before that is below the text.
        have hhigh : ¬name < first := fun hlt => by simpa [hnot] using hbelow name hname hlt
        obtain ⟨rest, hrest⟩ := hprefix
        have habove : ¬start.toList ++ rest < first.toList := hrest.symm ▸ hhigh
        exact Text.prefix_of_between hnotBelow habove

end NameMap

namespace TypeIndex

/-- A path is that of a type, or that of a type goes on from it with a dot. -/
def Reaches (index : TypeIndex) (path : String) : Prop :=
  path ∈ index.paths ∨ ∃ name ∈ index.paths, (path ++ ".").toList <+: name.toList

/-- Looking at one path after the given one tells whether any path goes on from it. -/
theorem declares_iff {index : TypeIndex} {path : String} :
    index.declares path = true ↔ index.Reaches path := by
  rw [declares, Bool.or_eq_true, contains_iff_mem_paths, Reaches, paths,
    ← NameMap.exists_prefix_iff]
  refine or_congr_right ?_
  cases index.types.firstFrom? (path ++ ".") with
  | none => simp
  | some first => simp [Text.startsWith_iff]

/-- The scope that consists of the first segments of another one. -/
def outerScope (scope : String) (depth : Nat) : String :=
  Text.join "." ((Text.segments '.' scope).take depth)

/-- Of a scope and those around it, the one that has a property and the most segments. -/
def Innermost (scope : String) (property : String → Prop) (outer : String) : Prop :=
  ∃ depth ≤ (Text.segments '.' scope).length, outerScope scope depth = outer ∧ property outer ∧
    ∀ deeper ≤ (Text.segments '.' scope).length, depth < deeper →
      ¬property (outerScope scope deeper)

/-- What a reference without outer blanks stands for, as seen from a scope. The name of a scalar
type stands for itself, and a path after a dot for itself if it is that of a type. A name without
dots is looked up in the innermost scope that has a type of this name. Of a name with dots the first
segment alone decides the scope, and the rest has to be found there. -/
inductive Denotes (index : TypeIndex) (scope : String) : String → String → Prop where
  | scalar {name : String} (h : name ∈ scalarTypes) : Denotes index scope name name
  | absolute {path : String} (h : path ∈ index.paths) : Denotes index scope ("." ++ path) path
  | simple {name outer : String} (hscalar : name ∉ scalarTypes) (hdot : '.' ∉ name.toList)
      (h : Innermost scope (fun outer => qualify outer name ∈ index.paths) outer) :
      Denotes index scope name (qualify outer name)
  | dotted {head rest outer : String} (hhead : head ≠ "") (hdot : '.' ∉ head.toList)
      (hanchor : Innermost scope (fun outer => index.Reaches (qualify outer head)) outer)
      (h : qualify outer head ++ "." ++ rest ∈ index.paths) :
      Denotes index scope (head ++ "." ++ rest) (qualify outer head ++ "." ++ rest)

/-- A search from a number down finds the greatest number with a property. -/
theorem find?_reverse_range_eq_some_iff {p : Nat → Bool} {n depth : Nat} :
    (List.range (n + 1)).reverse.find? p = some depth ↔
      depth ≤ n ∧ p depth = true ∧ ∀ deeper ≤ n, depth < deeper → p deeper = false := by
  have hasymm : Std.Asymm fun a b : Nat => b < a := ⟨fun _ _ hlt => Nat.lt_asymm hlt⟩
  have hordered : (List.range (n + 1)).reverse.Pairwise fun a b => b < a :=
    List.pairwise_reverse.2 List.pairwise_lt_range
  rw [find?_eq_some_iff_of_pairwise hordered]
  simp only [List.mem_reverse, List.mem_range, Nat.lt_succ_iff]

/-- The search through the enclosing scopes finds the innermost. -/
theorem find?_enclosingScopes_eq_some_iff {scope name path : String} {p : String → Bool} :
    ((enclosingScopes scope).map fun outer => qualify outer name).find? p = some path ↔
      ∃ outer, Innermost scope (fun outer => p (qualify outer name) = true) outer ∧
        qualify outer name = path := by
  simp only [enclosingScopes, List.map_map, List.find?_map, Option.map_eq_some_iff,
    find?_reverse_range_eq_some_iff, Function.comp_apply, Innermost, outerScope]
  constructor
  · rintro ⟨depth, ⟨hle, hp, hdeeper⟩, rfl⟩
    refine ⟨_, ⟨depth, hle, rfl, hp, fun deeper hle' hlt => ?_⟩, rfl⟩
    rw [hdeeper deeper hle' hlt]
    exact Bool.false_ne_true
  · rintro ⟨_, ⟨depth, hle, rfl, hp, hdeeper⟩, rfl⟩
    refine ⟨depth, ⟨hle, hp, fun deeper hle' hlt => ?_⟩, rfl⟩
    exact Bool.eq_false_iff.2 (hdeeper deeper hle' hlt)

/-- A path is known exactly when it is that of a type. -/
theorem known?_eq_some_iff {index : TypeIndex} {path found : String} :
    index.known? path = some found ↔ path ∈ index.paths ∧ path = found := by
  rw [known?, ← contains_iff_mem_paths]
  cases index.contains path <;> simp

/-- No name of a scalar type has a dot. -/
theorem dot_not_mem_scalarTypes : ∀ name ∈ scalarTypes, '.' ∉ name.toList := by decide

section Reference

variable {index : TypeIndex} {scope : String}

/-- A text begins with a dot only if it is a dot followed by what is left of it. -/
theorem dropPrefix?_dot_eq_none {text : List Char} (h : ∀ rest, text ≠ '.' :: rest) :
    Text.dropPrefix? ['.'] text = none := by
  rw [Option.eq_none_iff_forall_ne_some]
  exact fun rest hrest => h rest (Text.dropPrefix?_eq_some_iff.1 hrest)

/-- A text whose first segment is not empty does not begin with a dot. -/
theorem dropPrefix?_dot_append {head rest : String} (hhead : head ≠ "")
    (hdot : '.' ∉ head.toList) :
    Text.dropPrefix? ['.'] (head.toList ++ '.' :: rest.toList) = none := by
  refine dropPrefix?_dot_eq_none fun other heq => ?_
  cases hchars : head.toList with
  | nil => exact hhead (String.toList_eq_nil_iff.1 hchars)
  | cons c chars =>
      rw [hchars, List.cons_append, List.cons.injEq] at heq
      rw [hchars, heq.1] at hdot
      exact hdot List.mem_cons_self

/-- A reference is found to stand for what it denotes. -/
theorem resolve?_of_denotes {reference path : String}
    (h : Denotes index scope (String.ofList (Text.trim reference.toList)) path) :
    index.resolve? reference scope = some path := by
  unfold resolve?
  dsimp only
  generalize Text.trim reference.toList = written at h ⊢
  obtain ⟨text, rfl⟩ : ∃ text : String, text.toList = written :=
    ⟨String.ofList written, String.toList_ofList⟩
  rw [String.ofList_toList] at h ⊢
  cases h with
  | scalar h => rw [if_pos h]
  | absolute h =>
      have hscalar : "." ++ path ∉ scalarTypes := fun hmem =>
        dot_not_mem_scalarTypes _ hmem (by simp)
      have habsolute : Text.dropPrefix? ['.'] ("." ++ path).toList = some path.toList :=
        Text.dropPrefix?_eq_some_iff.2 String.toList_append
      rw [if_neg hscalar, habsolute]
      exact known?_eq_some_iff.2 (by simpa using h)
  | @simple _ outer hscalar hdot h =>
      have habsolute : Text.dropPrefix? ['.'] text.toList = none :=
        dropPrefix?_dot_eq_none fun rest heq => hdot (heq ▸ List.mem_cons_self)
      rw [if_neg hscalar, habsolute, Text.cutFirst?_eq_none_iff.2 hdot]
      refine find?_enclosingScopes_eq_some_iff.2 ⟨outer, ?_, rfl⟩
      simpa only [contains_iff_mem_paths] using h
  | @dotted head rest outer hhead hdot hanchor h =>
      have hwritten : (head ++ "." ++ rest).toList = head.toList ++ '.' :: rest.toList := by simp
      have hscalar : head ++ "." ++ rest ∉ scalarTypes := fun hmem =>
        dot_not_mem_scalarTypes _ hmem (by simp)
      have habsolute : Text.dropPrefix? ['.'] (head ++ "." ++ rest).toList = none :=
        hwritten ▸ dropPrefix?_dot_append hhead hdot
      have hcut : Text.cutFirst? '.' (head ++ "." ++ rest).toList =
          some (head.toList, rest.toList) := Text.cutFirst?_eq_some_iff.2 ⟨hwritten, hdot⟩
      rw [if_neg hscalar, habsolute, hcut]
      dsimp only
      rw [String.ofList_toList, String.ofList_toList, Option.bind_eq_some_iff]
      refine ⟨qualify outer head, ?_, known?_eq_some_iff.2 ⟨h, rfl⟩⟩
      refine find?_enclosingScopes_eq_some_iff.2 ⟨outer, ?_, rfl⟩
      simpa only [declares_iff] using hanchor

/-- What a reference is found to stand for is what it denotes. -/
theorem denotes_of_resolve? {reference path : String}
    (h : index.resolve? reference scope = some path) :
    Denotes index scope (String.ofList (Text.trim reference.toList)) path := by
  unfold resolve? at h
  dsimp only at h
  generalize Text.trim reference.toList = written at h ⊢
  obtain ⟨text, rfl⟩ : ∃ text : String, text.toList = written :=
    ⟨String.ofList written, String.toList_ofList⟩
  rw [String.ofList_toList] at h ⊢
  split at h
  · rename_i hscalar
    obtain rfl := Option.some.inj h
    exact .scalar hscalar
  rename_i hscalar
  split at h
  · rename_i absolute habsolute
    obtain ⟨hknown, rfl⟩ := known?_eq_some_iff.1 h
    have htext : text = "." ++ String.ofList absolute :=
      String.toList_inj.1 (by simpa using Text.dropPrefix?_eq_some_iff.1 habsolute)
    rw [htext]
    exact .absolute hknown
  rename_i habsolute
  split at h
  · rename_i hcut
    obtain ⟨outer, houter, rfl⟩ := find?_enclosingScopes_eq_some_iff.1 h
    simp only [contains_iff_mem_paths] at houter
    exact .simple hscalar (Text.cutFirst?_eq_none_iff.1 hcut) houter
  · rename_i head rest hcut
    obtain ⟨anchor, hanchor, hknown⟩ := Option.bind_eq_some_iff.1 h
    obtain ⟨outer, houter, rfl⟩ := find?_enclosingScopes_eq_some_iff.1 hanchor
    obtain ⟨hpath, rfl⟩ := known?_eq_some_iff.1 hknown
    obtain ⟨hwritten, hdot⟩ := Text.cutFirst?_eq_some_iff.1 hcut
    have htext : text = String.ofList head ++ "." ++ String.ofList rest :=
      String.toList_inj.1 (by simpa using hwritten)
    have hhead : String.ofList head ≠ "" := by
      intro hempty
      obtain rfl : head = [] := by simpa using congrArg String.toList hempty
      rw [hwritten, List.nil_append] at habsolute
      cases habsolute
    simp only [declares_iff] at houter
    rw [htext]
    exact .dotted hhead (by rwa [String.toList_ofList]) houter hpath

end Reference

/-- A reference resolves exactly to what it denotes, seen from its scope and without its outer
blanks, and looking at one path of the index is as good as looking at all. -/
theorem resolve?_exact (index : TypeIndex) (reference scope : String) :
    (∀ path, index.resolve? reference scope = some path ↔
      Denotes index scope (String.ofList (Text.trim reference.toList)) path) ∧
    ∀ path, index.declares path = true ↔
      path ∈ index.paths ∨ ∃ name ∈ index.paths, (path ++ ".").toList <+: name.toList :=
  ⟨fun _ => ⟨denotes_of_resolve?, resolve?_of_denotes⟩, fun _ => declares_iff⟩

/-- What the first segment decides is not taken back if the rest cannot be found there. -/
example :
    (build ⟨[⟨"scope.proto", ["acme"],
      [{ name := "Inner", enums := [{ name := "Kind" }] },
        { name := "Outer", messages := [{ name := "Inner" }] }], []⟩]⟩).map
      (fun index => (index.resolve? "Inner.Kind" "acme", index.resolve? "Inner.Kind" "acme.Outer")) =
        .ok (some "acme.Inner.Kind", none) := by
  rfl

end TypeIndex

end SchemaGate

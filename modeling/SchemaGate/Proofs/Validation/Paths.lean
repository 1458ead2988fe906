import SchemaGate.Proofs.Schema.Nesting
import SchemaGate.Proofs.TypeIndex.Paths
import SchemaGate.Proofs.Validation.WellFormed

/-!
# The paths of a valid schema

A valid schema is built from identifiers, so its paths are written with letters, digits, underscores
and dots. The main statement is `Valid.bracketFree`: no path has the brackets of a map type.
-/

namespace SchemaGate

namespace Validation

/-- A character of a path: one of an identifier, or the dot between two. -/
def PathCharacter (c : Char) : Prop :=
  c = '.' ∨ BeginsIdentifier c ∨ ('0' ≤ c ∧ c ≤ '9')

/-- A text is written with the characters of paths. -/
def IsPathText (text : String) : Prop :=
  ∀ c ∈ text.toList, PathCharacter c

/-- Identifiers are written with the characters of paths. -/
theorem IsIdentifier.isPathText {name : String} (h : IsIdentifier name) : IsPathText name := by
  obtain ⟨first, rest, hname, hfirst, hrest⟩ := h
  intro c hc
  rw [hname] at hc
  rcases List.mem_cons.1 hc with rfl | hc
  · exact .inr (.inl hfirst)
  · exact .inr (hrest c hc)

/-- An identifier can be a segment of a package: it is not empty and has no dot. -/
theorem IsIdentifier.isSegment {name : String} (h : IsIdentifier name) :
    name ≠ "" ∧ '.' ∉ name.toList := by
  obtain ⟨first, rest, hname, hfirst, hrest⟩ := h
  have hdot : ¬BeginsIdentifier '.' ∧ ¬('0' ≤ '.' ∧ '.' ≤ '9') := by
    unfold BeginsIdentifier
    decide
  refine ⟨fun hempty => ?_, fun hmem => ?_⟩
  · rw [hempty] at hname
    cases hname
  · rw [hname] at hmem
    rcases List.mem_cons.1 hmem with heq | hmem
    · exact hdot.1 (heq ▸ hfirst)
    · exact (hrest '.' hmem).elim hdot.1 hdot.2

/-- A name in a scope is written with the characters of paths if both are. -/
theorem IsPathText.qualify {scope name : String} (hscope : IsPathText scope)
    (hname : IsPathText name) : IsPathText (qualify scope name) := by
  intro c hc
  unfold SchemaGate.qualify at hc
  split at hc
  · exact hname c hc
  · rw [String.toList_append, String.toList_append, List.mem_append, List.mem_append] at hc
    rcases hc with (hc | hc) | hc
    · exact hscope c hc
    · exact .inl (by simpa using hc)
    · exact hname c hc

/-- A package of identifiers is written with the characters of paths. -/
theorem isPathText_packageName {file : SchemaFile}
    (h : ∀ segment ∈ file.package, IsIdentifier segment) : IsPathText file.packageName := by
  intro c hc
  rcases Text.mem_of_mem_join hc with hdot | ⟨segment, hsegment, hmem⟩
  · exact .inl (by simpa using hdot)
  · exact (h segment hsegment).isPathText c hmem

/-- The paths in a message are written with the characters of paths if its scope is and the names of
all types in it are identifiers. -/
theorem isPathText_declarations {file : String} {message : MessageType} {scope : String}
    (hscope : IsPathText scope)
    (hnames : ∀ declaration ∈ message.declarations file scope,
      IsIdentifier declaration.definition.localName) :
    ∀ declaration ∈ message.declarations file scope, IsPathText declaration.path := by
  induction message using MessageType.nested_induction generalizing scope with
  | step message ih =>
      rw [MessageType.declarations_eq] at hnames ⊢
      have hown : IsPathText (qualify scope message.name) :=
        hscope.qualify (hnames ⟨qualify scope message.name, .message message, file⟩
          (List.mem_append_right _ List.mem_cons_self)).isPathText
      intro declaration hdeclared
      rcases List.mem_append.1 hdeclared with hinner | hlast
      · rcases List.mem_append.1 hinner with hnested | henum
        · obtain ⟨nested, hmem, hdeclared⟩ := List.mem_flatMap.1 hnested
          refine ih nested hmem hown (fun other hother => hnames other ?_) declaration hdeclared
          exact List.mem_append_left _ (List.mem_append_left _
            (List.mem_flatMap.2 ⟨nested, hmem, hother⟩))
        · have hname := hnames declaration (List.mem_append_left _ (List.mem_append_right _ henum))
          obtain ⟨enumType, -, rfl⟩ := List.mem_map.1 henum
          exact hown.qualify hname.isPathText
      · rw [List.mem_singleton.1 hlast]
        exact hown

/-- The paths of a valid schema are written with the characters of paths. -/
theorem Valid.isPathText {tree : SchemaTree} {index : TypeIndex} (h : Valid tree index) :
    ∀ declaration ∈ tree.declarations, IsPathText declaration.path := by
  intro declaration hdeclared
  obtain ⟨file, hfile, hinFile⟩ := List.mem_flatMap.1 hdeclared
  have hpackage := isPathText_packageName (h.packages file hfile)
  have hname (other : Declaration) (hother : other ∈ file.declarations) :
      IsIdentifier other.definition.localName :=
    (h.sound other (List.mem_flatMap.2 ⟨file, hfile, hother⟩)).name
  rw [SchemaFile.declarations, MessageType.declarationsOfAll_eq_flatMap] at hinFile hname
  rcases List.mem_append.1 hinFile with hmessage | henum
  · obtain ⟨message, hmem, hinMessage⟩ := List.mem_flatMap.1 hmessage
    refine isPathText_declarations hpackage (fun other hother => hname other ?_) _ hinMessage
    exact List.mem_append_left _ (List.mem_flatMap.2 ⟨message, hmem, hother⟩)
  · have hidentifier := hname declaration (List.mem_append_right _ henum)
    obtain ⟨enumType, -, rfl⟩ := List.mem_map.1 henum
    exact hpackage.qualify hidentifier.isPathText

/-- No path of a valid schema is written with brackets. -/
theorem Valid.bracketFree {tree : SchemaTree} {index : TypeIndex} (h : Valid tree index) :
    index.BracketFree := by
  intro path hpath
  rw [TypeIndex.paths_eq_map_kinds, List.mem_map] at hpath
  obtain ⟨⟨path, kind⟩, hkind, rfl⟩ := hpath
  obtain ⟨declaration, hdeclared, heq⟩ :=
    List.mem_map.1 ((TypeIndex.mem_kinds_iff_of_build h.build).1 hkind)
  obtain rfl : declaration.path = path := (Prod.mk.inj heq).1
  have htext := h.isPathText declaration hdeclared
  have hbrackets : ¬PathCharacter '<' ∧ ¬PathCharacter '>' := by
    unfold PathCharacter BeginsIdentifier
    decide
  exact ⟨fun hmem => hbrackets.1 (htext _ hmem), fun hmem => hbrackets.2 (htext _ hmem)⟩

end Validation

end SchemaGate

import Mathlib.Data.Prod.Basic
import SchemaGate.Proofs.Enumeration
import SchemaGate.Proofs.TypeIndex.Build
import SchemaGate.Proofs.Validation.Fault
import SchemaGate.Proofs.Validation.Walk

/-!
# The issues of a schema

Validation lists one issue for every part of a schema and every rule that the part violates, however
deep the part is nested and whatever else is wrong with it. Each list of checks is shown to
enumerate the faults it looks for: `enumerates_message` and `enumerates_enum` for the checks of one
type, `enumerates_walk` for the walk through the whole schema and `enumerates_references` for the
look-ups of types after it. The main statement is `issues_exact`.
-/

namespace SchemaGate.Validation

/-- The place of a part in its list. -/
def TypePart.place : TypePart → Nat
  | whole => 0
  | range place | member place | oneof place | oneofMember place _ => place

/-- The place of a member within its oneof. -/
def TypePart.entry : TypePart → Nat
  | oneofMember _ place => place
  | _ => 0

/-- The checks of a type go through its parts in four stages. -/
def TypePart.stage : TypePart → Nat
  | whole => 0
  | range _ => 1
  | member _ => 2
  | oneof _ | oneofMember _ _ => 3

/-- There are four stages. -/
theorem TypePart.stage_lt (part : TypePart) : part.stage < 4 := by
  cases part <;> simp [stage]

/-- A fault of a type, under the part it is in and the rule it violates. -/
def TypeFault.At (definition : TypeDef) (key : TypePart × Rule) (violation : Violation) : Prop :=
  violation.rule = key.2 ∧ TypeFault definition key.1 violation

/-- An enum has no oneofs. -/
theorem TypeFault.stage_lt_of_enum {enumType : EnumType} {part : TypePart} {violation : Violation}
    (h : TypeFault (.enum enumType) part violation) : part.stage < 3 := by
  cases h <;> simp [TypePart.stage]

/-- If each element of a list is checked against those before it, the checks are made at the places
of the list. -/
theorem walk_eq_flatMap {α β : Type} (walk : List α → List α → List β)
    (check : List α → α → List β) (hnil : ∀ earlier, walk earlier [] = [])
    (hcons : ∀ earlier item items,
      walk earlier (item :: items) = check earlier item ++ walk (item :: earlier) items)
    (items : List α) :
    walk [] items =
      items.zipIdx.flatMap fun entry => check (items.take entry.2).reverse entry.1 := by
  have hfrom : ∀ before rest, items = before ++ rest →
      walk before.reverse rest =
        (rest.zipIdx before.length).flatMap fun entry =>
          check (items.take entry.2).reverse entry.1 := by
    intro before rest hsplit
    induction rest generalizing before with
    | nil => simp [hnil]
    | cons item rest ih =>
        have hrest := ih (before ++ [item]) (by simp [hsplit])
        rw [List.reverse_append, List.reverse_singleton, List.singleton_append,
          List.length_append, List.length_singleton] at hrest
        rw [hcons, hrest, List.zipIdx_cons, List.flatMap_cons]
        simp [hsplit]
  exact hfrom [] items rfl

section Types

variable {message : MessageType}

/-- The check of a name lists it if it is no identifier, under any one key. -/
theorem enumerates_nameViolations {κ : Type} (key : κ) (role : NameRole) (name : String) :
    Enumerates (fun k violation => key = k ∧ ¬IsIdentifier name ∧
      violation = .invalidName role name) (nameViolations role name) := by
  refine .of_key (fun _ => key) ?_ fun _ => mem_nameViolations
  unfold nameViolations
  split <;> simp

/-- The empty ranges of a type are listed. -/
theorem enumerates_rangeViolations (definition : TypeDef) :
    Enumerates (fun key violation => key.1.stage = 1 ∧ TypeFault.At definition key violation)
      (rangeViolations definition.memberSet.reserved) := by
  refine .filter (fun key => key.1.place) ?_ ?_
  · intro place range hrange
    refine ⟨(.range place, .rangeNotEmpty), ?_⟩
    rintro ⟨part, rule⟩ violation
    rw [ReservedRange.isEmpty, decide_eq_true_eq]
    constructor
    · rintro ⟨rfl, hstage, rfl, hfault⟩
      cases hfault with
      | emptyRange hfound hempty =>
          obtain rfl := Option.some.inj (hrange.symm.trans hfound)
          exact ⟨rfl, hempty, rfl⟩
      | _ => cases hstage
    · rintro ⟨hkey, hempty, rfl⟩
      obtain ⟨rfl, rfl⟩ := Prod.mk.inj hkey
      exact ⟨rfl, rfl, rfl, .emptyRange hrange hempty⟩
  · rintro ⟨part, rule⟩ violation ⟨hstage, -, hfault⟩
    cases hfault with
    | emptyRange hfound => exact (List.getElem?_eq_some_iff.1 hfound).1
    | _ => cases hstage

/-- Violations of different rules are enumerated by their rules at any one part. -/
theorem enumerates_of_rules {violations : List Violation} {holds : Violation → Prop}
    (part : TypePart) (hnodup : (violations.map Violation.rule).Nodup)
    (hmem : ∀ violation, violation ∈ violations ↔ holds violation) :
    Enumerates (fun key violation => (part, violation.rule) = key ∧ holds violation)
      violations := by
  refine .of_key (fun violation => (part, violation.rule)) ?_ hmem
  have hkeys := hnodup.map (Prod.mk_right_injective part)
  rwa [List.map_map] at hkeys

/-- The members of a type are checked one after the other, each against those before it. -/
theorem enumerates_members {α : Type} (items : List α) (walk : List α → List α → List Violation)
    (check : List α → α → List Violation) (hnil : ∀ earlier, walk earlier [] = [])
    (hcons : ∀ earlier item items,
      walk earlier (item :: items) = check earlier item ++ walk (item :: earlier) items)
    {holds : Nat → α → Violation → Prop}
    (hrules : ∀ earlier item, ((check earlier item).map Violation.rule).Nodup)
    (hmem : ∀ place item violation, violation ∈ check (items.take place).reverse item ↔
      holds place item violation) :
    Enumerates (fun (key : TypePart × Rule) violation => ∃ place item,
      items[place]? = some item ∧ (.member place, violation.rule) = key ∧
        holds place item violation) (walk [] items) := by
  rw [walk_eq_flatMap walk check hnil hcons]
  refine .flatMap_zipIdx (fun key => key.1.place) ?_ ?_
  · intro place item hitem
    have hfaults := enumerates_of_rules (.member place) (hrules _ _) (hmem place item)
    refine hfaults.congr fun key violation => ?_
    constructor
    · rintro ⟨rfl, place, found, hfound, rfl, hholds⟩
      obtain rfl := Option.some.inj (hitem.symm.trans hfound)
      exact ⟨rfl, hholds⟩
    · rintro ⟨rfl, hholds⟩
      exact ⟨rfl, place, item, hitem, rfl, hholds⟩
  · rintro key violation ⟨place, item, hitem, rfl, -⟩
    exact (List.getElem?_eq_some_iff.1 hitem).1

/-- The faults of the fields of a message are listed. -/
theorem enumerates_fieldsViolations (message : MessageType) :
    Enumerates
      (fun key violation => key.1.stage = 2 ∧ TypeFault.At (.message message) key violation)
      (fieldsViolations message.reserved [] message.fields) := by
  have hfaults := enumerates_members message.fields (fieldsViolations message.reserved)
    (fieldViolations message.reserved) (fun _ => rfl) (fun _ _ _ => rfl)
    (fun _ _ => nodup_rules_fieldViolations) fun _ _ _ => mem_fieldViolations
  refine hfaults.congr ?_
  rintro ⟨part, rule⟩ violation
  constructor
  · rintro ⟨hstage, rfl, hfault⟩
    cases hfault with
    | field hfield hfault => exact ⟨_, _, hfield, rfl, hfault⟩
    | _ => cases hstage
  · rintro ⟨place, field, hfield, hkey, hfault⟩
    obtain ⟨rfl, rfl⟩ := Prod.mk.inj hkey
    exact ⟨rfl, rfl, .field hfield hfault⟩

/-- The faults of the constants of an enum are listed. -/
theorem enumerates_constantsViolations (enumType : EnumType) :
    Enumerates (fun key violation => key.1.stage = 2 ∧ TypeFault.At (.enum enumType) key violation)
      (constantsViolations enumType [] enumType.constants) := by
  have hfaults := enumerates_members enumType.constants (constantsViolations enumType)
    (constantViolations enumType) (fun _ => rfl) (fun _ _ _ => rfl)
    (fun _ _ => nodup_rules_constantViolations) fun _ _ _ => mem_constantViolations
  refine hfaults.congr ?_
  rintro ⟨part, rule⟩ violation
  constructor
  · rintro ⟨hstage, rfl, hfault⟩
    cases hfault with
    | constant hconstant hfault => exact ⟨_, _, hconstant, rfl, hfault⟩
    | _ => cases hstage
  · rintro ⟨place, constant, hconstant, hkey, hfault⟩
    obtain ⟨rfl, rfl⟩ := Prod.mk.inj hkey
    exact ⟨rfl, rfl, .constant hconstant hfault⟩

/-- No field of a name is found exactly when no field has the name. -/
theorem field?_eq_none_iff {name : String} :
    message.field? name = none ↔ ∀ field ∈ message.fields, field.name ≠ name := by
  simp [MessageType.field?]

/-- The faults of a oneof are listed: first its name, then the members that are no fields. -/
theorem enumerates_oneofViolations {place : Nat} {oneof : OneofGroup}
    (honeof : message.oneofs[place]? = some oneof) :
    Enumerates (fun key violation => key.1.place = place ∧ key.1.stage = 3 ∧
      TypeFault.At (.message message) key violation) (oneofViolations message oneof) := by
  refine .append (p := fun key => key.2 = .identifier) ?_ ?_
  · refine (enumerates_nameViolations (.oneof place, .identifier) .oneof oneof.name).congr ?_
    rintro ⟨part, rule⟩ violation
    constructor
    · rintro ⟨rfl, rfl, hstage, hrule, hfault⟩
      cases hfault with
      | oneofName hfound hname =>
          obtain rfl := Option.some.inj (honeof.symm.trans hfound)
          exact ⟨rfl, hname, rfl⟩
      | oneofMember => cases hrule
      | _ => cases hstage
    · rintro ⟨hkey, hname, rfl⟩
      obtain ⟨rfl, rfl⟩ := Prod.mk.inj hkey
      exact ⟨rfl, rfl, rfl, rfl, .oneofName honeof hname⟩
  · refine .filter (fun key => key.1.entry) ?_ ?_
    · intro entry member hmember
      refine ⟨(.oneofMember place entry, .oneofMember), ?_⟩
      rintro ⟨part, rule⟩ violation
      rw [Option.isNone_iff_eq_none, field?_eq_none_iff]
      constructor
      · rintro ⟨rfl, hrule, rfl, hstage, rfl, hfault⟩
        cases hfault with
        | oneofMember hfound hentry hnone =>
            obtain rfl := Option.some.inj (honeof.symm.trans hfound)
            obtain rfl := Option.some.inj (hmember.symm.trans hentry)
            exact ⟨rfl, hnone, rfl⟩
        | oneofName => exact absurd rfl hrule
        | _ => cases hstage
      · rintro ⟨hkey, hnone, rfl⟩
        obtain ⟨rfl, rfl⟩ := Prod.mk.inj hkey
        exact ⟨rfl, nofun, rfl, rfl, rfl, .oneofMember honeof hmember hnone⟩
    · rintro ⟨part, rule⟩ violation ⟨hrule, rfl, hstage, rfl, hfault⟩
      cases hfault with
      | oneofMember hfound hentry hnone =>
          obtain rfl := Option.some.inj (honeof.symm.trans hfound)
          exact (List.getElem?_eq_some_iff.1 hentry).1
      | oneofName => exact absurd rfl hrule
      | _ => cases hstage

/-- The faults of the oneofs of a message are listed. -/
theorem enumerates_oneofsViolations (message : MessageType) :
    Enumerates
      (fun key violation => key.1.stage = 3 ∧ TypeFault.At (.message message) key violation)
      (message.oneofs.flatMap (oneofViolations message)) := by
  refine .flatMap (fun key => key.1.place) (fun _ _ => enumerates_oneofViolations) ?_
  rintro ⟨part, rule⟩ violation ⟨hstage, -, hfault⟩
  cases hfault with
  | oneofName hfound => exact (List.getElem?_eq_some_iff.1 hfound).1
  | oneofMember hfound => exact (List.getElem?_eq_some_iff.1 hfound).1
  | _ => cases hstage

/-- The name of a type is listed if it is no identifier. -/
theorem enumerates_typeName (definition : TypeDef) :
    Enumerates (fun key violation => key.1.stage < 1 ∧ TypeFault.At definition key violation)
      (nameViolations definition.nameRole definition.localName) := by
  refine (enumerates_nameViolations (.whole, .identifier) _ definition.localName).congr ?_
  rintro ⟨part, rule⟩ violation
  constructor
  · rintro ⟨hstage, rfl, hfault⟩
    rw [Nat.lt_one_iff] at hstage
    cases hfault with
    | name hname => exact ⟨rfl, hname, rfl⟩
    | _ => cases hstage
  · rintro ⟨hkey, hname, rfl⟩
    obtain ⟨rfl, rfl⟩ := Prod.mk.inj hkey
    exact ⟨Nat.one_pos, rfl, .name hname⟩

/-- The checks of a message list its faults. -/
theorem enumerates_message (message : MessageType) :
    Enumerates (TypeFault.At (.message message))
      (nameViolations .message message.name ++ rangeViolations message.reserved ++
        fieldsViolations message.reserved [] message.fields ++
        message.oneofs.flatMap (oneofViolations message)) := by
  have hname := enumerates_typeName (.message message)
  have hranges := hname.append_stage (enumerates_rangeViolations (.message message))
  have hfields := hranges.append_stage (enumerates_fieldsViolations message)
  have honeofs := hfields.append_stage (enumerates_oneofsViolations message)
  refine honeofs.congr fun key violation => ?_
  exact (and_iff_right key.1.stage_lt).symm

/-- The checks of an enum list its faults. -/
theorem enumerates_enum (enumType : EnumType) :
    Enumerates (TypeFault.At (.enum enumType))
      (nameViolations .enum enumType.name ++ rangeViolations enumType.reserved ++
        constantsViolations enumType [] enumType.constants) := by
  have hname := enumerates_typeName (.enum enumType)
  have hranges := hname.append_stage (enumerates_rangeViolations (.enum enumType))
  have hconstants := hranges.append_stage (enumerates_constantsViolations enumType)
  refine hconstants.congr fun key violation => ?_
  exact ⟨fun h => ⟨h.2.stage_lt_of_enum, h⟩, And.right⟩

end Types

/-- What is wrong with the parts of a type has nothing to do with the types of its fields. -/
theorem TypeFault.rule_ne_typeKnown {definition : TypeDef} {part : TypePart}
    {violation : Violation} (h : TypeFault definition part violation) :
    violation.rule ≠ .typeKnown := by
  cases h with
  | field _ hfault => cases hfault <;> exact nofun
  | constant _ hfault => cases hfault <;> exact nofun
  | _ => exact nofun

/-- The checks of a declared type list its faults. -/
theorem enumerates_declaration (declaration : Declaration) :
    ∃ violations,
      localIssues (.ofDeclaration declaration) = violations.map (⟨declaration.path, ·⟩) ∧
        Enumerates (TypeFault.At declaration.definition) violations := by
  obtain ⟨path, definition, file⟩ := declaration
  cases definition with
  | message message => exact ⟨_, rfl, enumerates_message message⟩
  | enum enumType => exact ⟨_, rfl, enumerates_enum enumType⟩

/-- The place of a file or declaration in its list. -/
def Part.place : Part → Nat
  | segment file _ => file
  | path _ => 0
  | type declaration _ => declaration

/-- The place of a part of a type in its list. -/
def Part.entry : Part → Nat
  | type _ part => part.place
  | _ => 0

/-- Apart from the types of fields, the checks of a schema come in three stages: paths, packages and
types. -/
def Part.stage : Part → Nat
  | path _ => 0
  | segment _ _ => 1
  | type _ _ => 2

/-- There are three stages. -/
theorem Part.stage_lt (part : Part) : part.stage < 3 := by
  cases part <;> simp [stage]

/-- A fault of a schema, under the part it is in and the rule it violates. -/
def Fault.At (tree : SchemaTree) (key : Part × Rule) (issue : Issue) : Prop :=
  issue.violation.rule = key.2 ∧ Fault tree key.1 issue

/-- A fault that is found without looking up types. -/
def Fault.AtSight (tree : SchemaTree) (key : Part × Rule) (issue : Issue) : Prop :=
  key.2 ≠ .typeKnown ∧ Fault.At tree key issue

section Trees

variable {tree : SchemaTree}

/-- The walk meets a path as often as it is declared. -/
theorem count_paths (tree : SchemaTree) (path : String) :
    ((subjects tree).filterMap Subject.path?).count path =
      (tree.declarations.map (·.path)).count path := by
  have hperm := (subjects_perm tree).filterMap Subject.path?
  have hpackages : (tree.files.map fun file =>
      Subject.package file.path file.package).filterMap Subject.path? = [] := by
    simp [List.filterMap_map, Function.comp_def, Subject.path?]
  have hdeclared : (tree.declarations.map Subject.ofDeclaration).filterMap Subject.path? =
      tree.declarations.map (·.path) := by
    rw [List.filterMap_map, ← List.filterMap_eq_map]
    exact List.filterMap_congr fun declaration _ => Subject.path?_ofDeclaration declaration
  rw [hperm.count_eq path, List.filterMap_append, hpackages, List.nil_append, hdeclared]

/-- A path is reported once if it is declared more than once. -/
theorem enumerates_paths (tree : SchemaTree) :
    Enumerates (fun key issue => key.1.stage < 1 ∧ Fault.AtSight tree key issue)
      ((repeated [] ((subjects tree).filterMap Subject.path?)).map
        fun path => ⟨path, .duplicatePath⟩) := by
  have hnodup := nodup_repeated [] ((subjects tree).filterMap Subject.path?)
  have hpaths := Enumerates.of_key id (by simpa using hnodup) fun path => mem_repeated
  have hrename : Function.Injective fun path => (Part.path path, Rule.pathOnce) := by
    intro path path' h
    exact Part.path.inj (Prod.mk.inj h).1
  refine (hpaths.map (fun path => Issue.mk path .duplicatePath) hrename).congr ?_
  rintro ⟨part, rule⟩ issue
  rw [Nat.lt_one_iff]
  constructor
  · rintro ⟨hstage, -, rfl, hfault⟩
    cases hfault with
    | path hcount =>
        rw [← count_paths] at hcount
        exact ⟨_, _, rfl, rfl, rfl, by simp, by simpa using Nat.succ_le_of_lt hcount⟩
    | _ => cases hstage
  · rintro ⟨path, _, hkey, rfl, rfl, -, hcount⟩
    obtain ⟨rfl, rfl⟩ := Prod.mk.inj hkey
    rw [count_paths, List.count_nil, Nat.zero_add] at hcount
    exact ⟨rfl, nofun, rfl, .path hcount⟩

/-- The segments of a package that are no identifiers are reported with the file. -/
theorem enumerates_package {n : Nat} {file : SchemaFile} (hfile : tree.files[n]? = some file) :
    Enumerates (fun key issue => key.1.place = n ∧ key.1.stage = 1 ∧ Fault.AtSight tree key issue)
      (localIssues (.package file.path file.package)) := by
  have hsegments : Enumerates (fun (place : Nat) violation => ∃ segment,
      file.package[place]? = some segment ∧ ¬IsIdentifier segment ∧
        violation = .invalidName .packageSegment segment)
      (file.package.flatMap (nameViolations .packageSegment)) := by
    refine .flatMap id (fun place segment hsegment => ?_) ?_
    · refine (enumerates_nameViolations place .packageSegment segment).congr fun k violation => ?_
      constructor
      · rintro ⟨rfl, found, hfound, hname, rfl⟩
        obtain rfl := Option.some.inj (hsegment.symm.trans hfound)
        exact ⟨rfl, hname, rfl⟩
      · rintro ⟨rfl, hname, rfl⟩
        exact ⟨rfl, segment, hsegment, hname, rfl⟩
    · rintro place violation ⟨segment, hsegment, -⟩
      exact (List.getElem?_eq_some_iff.1 hsegment).1
  have hrename : Function.Injective fun place => (Part.segment n place, Rule.identifier) := by
    intro place place' h
    exact (Part.segment.inj (Prod.mk.inj h).1).2
  refine (hsegments.map (fun violation => Issue.mk file.path violation) hrename).congr ?_
  rintro ⟨part, rule⟩ issue
  constructor
  · rintro ⟨rfl, hstage, -, rfl, hfault⟩
    cases hfault with
    | segment hfound hsegment hname =>
        obtain rfl := Option.some.inj (hfile.symm.trans hfound)
        exact ⟨_, _, rfl, rfl, _, hsegment, hname, rfl⟩
    | _ => cases hstage
  · rintro ⟨place, _, hkey, rfl, segment, hsegment, hname, rfl⟩
    obtain ⟨rfl, rfl⟩ := Prod.mk.inj hkey
    exact ⟨rfl, rfl, nofun, rfl, .segment hfile hsegment hname⟩

/-- The packages of all files are checked. -/
theorem enumerates_packages (tree : SchemaTree) :
    Enumerates (fun key issue => key.1.stage = 1 ∧ Fault.AtSight tree key issue)
      (tree.files.flatMap fun file => localIssues (.package file.path file.package)) := by
  refine .flatMap (fun key => key.1.place) (fun _ _ => enumerates_package) ?_
  rintro ⟨part, rule⟩ issue ⟨hstage, -, -, hfault⟩
  cases hfault with
  | segment hfile => exact (List.getElem?_eq_some_iff.1 hfile).1
  | _ => cases hstage

/-- The faults of a declared type are reported with its path. -/
theorem enumerates_type {n : Nat} {declaration : Declaration}
    (hdeclared : tree.declarations[n]? = some declaration) :
    Enumerates (fun key issue => key.1.place = n ∧ key.1.stage = 2 ∧ Fault.AtSight tree key issue)
      (localIssues (.ofDeclaration declaration)) := by
  obtain ⟨violations, hlocal, hfaults⟩ := enumerates_declaration declaration
  rw [hlocal]
  have hrename : Function.Injective (Prod.map (Part.type n) (id : Rule → Rule)) := by
    refine Function.Injective.prodMap ?_ Function.injective_id
    intro part part' h
    exact (Part.type.inj h).2
  refine (hfaults.map (fun violation => Issue.mk declaration.path violation) hrename).congr ?_
  rintro ⟨part, rule⟩ issue
  constructor
  · rintro ⟨rfl, hstage, hrule, rfl, hfault⟩
    cases hfault with
    | inType hfound hfault =>
        obtain rfl := Option.some.inj (hdeclared.symm.trans hfound)
        exact ⟨(_, _), _, rfl, rfl, rfl, hfault⟩
    | reference => exact absurd rfl hrule
    | _ => cases hstage
  · rintro ⟨⟨typePart, rule'⟩, violation, hkey, rfl, hrule, hfault⟩
    obtain ⟨rfl, rfl⟩ := Prod.mk.inj hkey
    exact ⟨rfl, rfl, hrule ▸ hfault.rule_ne_typeKnown, hrule, .inType hdeclared hfault⟩

/-- All declared types are checked. -/
theorem enumerates_types (tree : SchemaTree) :
    Enumerates (fun key issue => key.1.stage = 2 ∧ Fault.AtSight tree key issue)
      (tree.declarations.flatMap fun declaration => localIssues (.ofDeclaration declaration)) := by
  refine .flatMap (fun key => key.1.place) (fun _ _ => enumerates_type) ?_
  rintro ⟨part, rule⟩ issue ⟨hstage, hrule, -, hfault⟩
  cases hfault with
  | inType hdeclared => exact (List.getElem?_eq_some_iff.1 hdeclared).1
  | reference hpaths hindex hdeclared => exact (List.getElem?_eq_some_iff.1 hdeclared).1
  | _ => cases hstage

/-- The walk through a schema lists what can be found without looking up types. -/
theorem enumerates_walk (tree : SchemaTree) :
    Enumerates (Fault.AtSight tree) (issuesOf [] (subjects tree)) := by
  have hpackages := (enumerates_paths tree).append_stage (enumerates_packages tree)
  have htypes := hpackages.append_stage (enumerates_types tree)
  refine (htypes.congr fun key issue => (and_iff_right key.1.stage_lt).symm).perm ?_
  refine (issuesOf_perm [] (subjects tree)).trans ?_
  rw [List.append_assoc]
  refine .append_left _ (((subjects_perm tree).flatMap_right localIssues).trans ?_)
  rw [List.flatMap_append, List.flatMap_map, List.flatMap_map]

/-- A fault that is found by looking up a type is in a field of the message declared there. -/
theorem reference_fault_iff {index : TypeIndex} (hindex : TypeIndex.build tree = .ok index)
    {n : Nat} {declaration : Declaration} (hdeclared : tree.declarations[n]? = some declaration)
    (key : Part × Rule) (issue : Issue) :
    key.1.place = n ∧ key.2 = .typeKnown ∧ Fault.At tree key issue ↔
      ∃ message place field, declaration.definition = .message message ∧
        message.fields[place]? = some field ∧
        index.isResolvable field.typeName declaration.path = false ∧
        key = (.type n (.member place), .typeKnown) ∧
        issue = ⟨declaration.path, .unresolvedType field.name field.typeName⟩ := by
  obtain ⟨part, rule⟩ := key
  constructor
  · rintro ⟨rfl, rfl, hrule, hfault⟩
    cases hfault with
    | reference _ hbuild hfound hmessage hfield hunknown =>
        obtain rfl := Option.some.inj (hdeclared.symm.trans hfound)
        obtain rfl := Except.ok.inj (hindex.symm.trans hbuild)
        exact ⟨_, _, _, hmessage, hfield, TypeIndex.isResolvable_eq_false_iff.2 hunknown, rfl, rfl⟩
    | inType _ hfault => exact absurd hrule hfault.rule_ne_typeKnown
    | _ => cases hrule
  · rintro ⟨message, place, field, hmessage, hfield, hunknown, hkey, rfl⟩
    obtain ⟨rfl, rfl⟩ := Prod.mk.inj hkey
    have hpaths := TypeIndex.nodup_of_build hindex
    exact ⟨rfl, rfl, rfl, .reference hpaths hindex hdeclared hmessage hfield
      (TypeIndex.isResolvable_eq_false_iff.1 hunknown)⟩

/-- The unknown types of the fields of one declared type. -/
theorem enumerates_typeReferences {index : TypeIndex} (hindex : TypeIndex.build tree = .ok index)
    {n : Nat} {declaration : Declaration} (hdeclared : tree.declarations[n]? = some declaration) :
    Enumerates (fun key issue => key.1.place = n ∧ key.2 = .typeKnown ∧ Fault.At tree key issue)
      (referenceIssues index (.ofDeclaration declaration)) := by
  refine Enumerates.congr ?_ (reference_fault_iff hindex hdeclared)
  obtain ⟨path, definition, file⟩ := declaration
  cases definition with
  | enum enumType =>
      refine .nil ?_
      rintro key issue ⟨_, _, _, hmessage, -⟩
      cases hmessage
  | message message =>
      refine .filter (fun key => key.1.entry) ?_ ?_
      · intro place field hfield
        refine ⟨(.type n (.member place), .typeKnown), fun key issue => ?_⟩
        rw [Bool.not_eq_true']
        constructor
        · rintro ⟨rfl, _, place, found, hmessage, hfound, hunknown, rfl, rfl⟩
          cases hmessage
          obtain rfl := Option.some.inj (hfield.symm.trans hfound)
          exact ⟨rfl, hunknown, rfl⟩
        · rintro ⟨rfl, hunknown, rfl⟩
          exact ⟨rfl, message, place, field, rfl, hfield, hunknown, rfl, rfl⟩
      · rintro key issue ⟨_, place, field, hmessage, hfield, -, rfl, -⟩
        cases hmessage
        exact (List.getElem?_eq_some_iff.1 hfield).1

/-- If the schema has an index, the unknown types of fields are listed. -/
theorem enumerates_references {index : TypeIndex} (hindex : TypeIndex.build tree = .ok index) :
    Enumerates (fun key issue => key.2 = .typeKnown ∧ Fault.At tree key issue)
      ((subjects tree).flatMap (referenceIssues index)) := by
  have hpackages : (tree.files.map fun file =>
      Subject.package file.path file.package).flatMap (referenceIssues index) = [] := by
    simp [List.flatMap_map, referenceIssues]
  have hperm := (subjects_perm tree).flatMap_right (referenceIssues index)
  rw [List.flatMap_append, hpackages, List.nil_append, List.flatMap_map] at hperm
  refine Enumerates.perm ?_ hperm
  refine .flatMap (fun key => key.1.place) (fun _ _ => enumerates_typeReferences hindex) ?_
  rintro ⟨part, rule⟩ issue ⟨rfl, hrule, hfault⟩
  cases hfault with
  | inType hdeclared => exact (List.getElem?_eq_some_iff.1 hdeclared).1
  | reference _ _ hdeclared => exact (List.getElem?_eq_some_iff.1 hdeclared).1
  | _ => cases hrule

/-- Without an index no types are looked up. -/
theorem not_typeKnown_of_build_error {repetition : DuplicatePath}
    (hindex : TypeIndex.build tree = .error repetition) {key : Part × Rule} {issue : Issue} :
    ¬(key.2 = .typeKnown ∧ Fault.At tree key issue) := by
  obtain ⟨part, rule⟩ := key
  rintro ⟨rfl, hrule, hfault⟩
  cases hfault with
  | reference _ hbuild => cases hindex.symm.trans hbuild
  | inType _ hfault => exact hfault.rule_ne_typeKnown hrule
  | _ => cases hrule

/-- The issues of a schema list its faults. -/
theorem enumerates_issues (tree : SchemaTree) : Enumerates (Fault.At tree) (issues tree) := by
  refine .append (p := fun key => key.2 ≠ .typeKnown) (enumerates_walk tree) ?_
  simp only [not_not]
  cases hindex : TypeIndex.build tree with
  | ok index => exact enumerates_references hindex
  | error => exact .nil fun _ _ => not_typeKnown_of_build_error hindex

/-- A schema is found valid exactly when it has no fault. -/
theorem validate_eq_ok_iff_not_fault :
    validate tree = .ok () ↔ ∀ part issue, ¬Fault tree part issue := by
  rw [validate_eq_ok_iff, (enumerates_issues tree).eq_nil_iff]
  constructor
  · intro hnone part issue hfault
    exact hnone (part, issue.violation.rule) issue ⟨rfl, hfault⟩
  · rintro hnone ⟨part, rule⟩ issue ⟨-, hfault⟩
    exact hnone part issue hfault

/-- The issues of a schema are, up to order, one for every part and every rule that the part
violates, and a schema is valid exactly when no part violates a rule. -/
theorem issues_exact (tree : SchemaTree) :
    Enumerates (fun (key : Part × Rule) issue =>
      issue.violation.rule = key.2 ∧ Fault tree key.1 issue) (issues tree) ∧
    (validate tree = .ok () ↔ ∀ part issue, ¬Fault tree part issue) :=
  ⟨enumerates_issues tree, validate_eq_ok_iff_not_fault⟩

end Trees

end SchemaGate.Validation

import Mathlib.Data.List.Perm.Basic
import SchemaGate.Proofs.Schema.Nesting
import SchemaGate.Validation.Basic

/-!
# The walk of the checks

The checks go through a schema from outside in, while the index goes through it from inside out.
Both meet the same types: `subjects_perm`. The issues of the walk are, up to order, those about
paths and those of the single subjects: `issuesOf_perm`. The path of a type is at fault where it
occurs for the second time, which is once for every path that occurs more than once: `mem_repeated`
and `nodup_repeated`.
-/

namespace SchemaGate.Validation

/-- A declared type as the checks meet it. -/
def Subject.ofDeclaration (declaration : Declaration) : Subject :=
  match declaration.definition with
  | TypeDef.message definition => Subject.message declaration.path definition
  | TypeDef.enum definition => Subject.enum declaration.path definition

/-- A declared type is met under its path. -/
@[simp] theorem Subject.path?_ofDeclaration (declaration : Declaration) :
    (ofDeclaration declaration).path? = some declaration.path := by
  obtain ⟨path, definition, file⟩ := declaration
  cases definition <;> rfl

/-- The walk over several messages is the walks over its elements, one after the other. -/
theorem allMessageSubjects_eq_flatMap (scope : String) (messages : List MessageType) :
    allMessageSubjects scope messages = messages.flatMap (messageSubjects scope) := by
  induction messages with
  | nil => rfl
  | cons message messages ih => simp [allMessageSubjects, ih]

/-- A message comes before what is declared inside it. -/
theorem messageSubjects_eq (scope : String) (message : MessageType) :
    messageSubjects scope message =
      .message (qualify scope message.name) message ::
        (message.messages.flatMap (messageSubjects (qualify scope message.name)) ++
          enumSubjects (qualify scope message.name) message.enums) := by
  obtain ⟨name, fields, oneofs, messages, enums, reserved⟩ := message
  rw [messageSubjects, allMessageSubjects_eq_flatMap]

/-- The enums of a scope are met as they are declared. -/
theorem enumSubjects_eq (file scope : String) (enums : List EnumType) :
    enumSubjects scope enums =
      (EnumType.declarationsOfAll file scope enums).map Subject.ofDeclaration := by
  simp [enumSubjects, EnumType.declarationsOfAll, Subject.ofDeclaration]

/-- The walk through a message meets what the message declares. -/
theorem messageSubjects_perm (file scope : String) (message : MessageType) :
    (messageSubjects scope message).Perm
      ((message.declarations file scope).map Subject.ofDeclaration) := by
  induction message using MessageType.nested_induction generalizing scope with
  | step message ih =>
      rw [messageSubjects_eq, MessageType.declarations_eq, List.map_append, List.map_append,
        List.map_flatMap, ← enumSubjects_eq file]
      -- The walk of the checks meets the message first, the walk of the index last.
      refine (List.perm_append_singleton _ _).symm.trans ?_
      refine List.Perm.append_right _ (List.Perm.append_right _ ?_)
      exact List.Perm.flatMap_left _ fun nested hnested => ih nested hnested _

/-- The walk through a schema meets the packages of its files and what it declares. -/
theorem subjects_perm (tree : SchemaTree) :
    (subjects tree).Perm
      (tree.files.map (fun file => .package file.path file.package) ++
        tree.declarations.map Subject.ofDeclaration) := by
  have hfile : ∀ file ∈ tree.files, (fileSubjects file).Perm
      (.package file.path file.package :: file.declarations.map Subject.ofDeclaration) := by
    intro file _
    rw [fileSubjects, SchemaFile.declarations, allMessageSubjects_eq_flatMap,
      MessageType.declarationsOfAll_eq_flatMap, List.map_append, List.map_flatMap,
      ← enumSubjects_eq file.path]
    exact List.Perm.cons _ (List.Perm.append_right _
      (List.Perm.flatMap_left _ fun message _ => messageSubjects_perm _ _ message))
  refine (List.Perm.flatMap_left _ hfile).trans ?_
  rw [SchemaTree.declarations, List.map_flatMap]
  rw [List.map_eq_flatMap]
  exact (List.flatMap_append_perm tree.files (fun file => [Subject.package file.path file.package])
    fun file => file.declarations.map Subject.ofDeclaration).symm

/-- The paths that occur for the second time, in the order of their second occurrences; `earlier`
are the paths met before. -/
def repeated (earlier : List String) : List String → List String
  | [] => []
  | path :: paths =>
      (if earlier.count path = 1 then [path] else []) ++ repeated (path :: earlier) paths

/-- A path is listed if it occurs more than once and has not been met a second time before. -/
theorem mem_repeated {earlier paths : List String} {path : String} :
    path ∈ repeated earlier paths ↔
      earlier.count path ≤ 1 ∧ 2 ≤ earlier.count path + paths.count path := by
  induction paths generalizing earlier with
  | nil =>
      rw [repeated, List.count_nil]
      refine iff_of_false List.not_mem_nil ?_
      omega
  | cons first paths ih =>
      rw [repeated, List.mem_append, ih]
      by_cases hpath : first = path
      · subst hpath
        rw [List.count_cons_self, List.count_cons_self]
        by_cases hone : earlier.count first = 1
        · simp only [hone, if_true, List.mem_singleton, true_or, true_iff]
          omega
        · simp only [hone, if_false, List.not_mem_nil, false_or]
          omega
      · rw [List.count_cons_of_ne hpath, List.count_cons_of_ne hpath]
        split <;> simp [Ne.symm hpath]

/-- No path is listed twice. -/
theorem nodup_repeated (earlier paths : List String) : (repeated earlier paths).Nodup := by
  induction paths generalizing earlier with
  | nil => simp [repeated]
  | cons first paths ih =>
      rw [repeated]
      split
      · rename_i hone
        rw [List.singleton_append]
        refine List.nodup_cons.2 ⟨?_, ih _⟩
        -- The path is met for the second time here, so later it has been met twice.
        rw [mem_repeated, List.count_cons_self]
        omega
      · exact ih _

/-- The issues of the walk are those about paths and those of the single subjects. -/
theorem issuesOf_perm (earlier : List String) (subjects : List Subject) :
    (issuesOf earlier subjects).Perm
      ((repeated earlier (subjects.filterMap Subject.path?)).map (⟨·, .duplicatePath⟩) ++
        subjects.flatMap localIssues) := by
  induction subjects generalizing earlier with
  | nil => exact .refl _
  | cons subject subjects ih =>
      rw [issuesOf, List.flatMap_cons]
      cases hsubject : subject.path? with
      | none =>
          rw [List.filterMap_cons_none hsubject]
          simp only [pathIssues, hsubject, List.nil_append, Option.toList]
          refine ((ih earlier).append_left _).trans ?_
          rw [← List.append_assoc, ← List.append_assoc]
          exact List.perm_append_comm.append_right _
      | some path =>
          rw [List.filterMap_cons_some hsubject, repeated, List.map_append]
          simp only [pathIssues, hsubject, Option.toList, List.singleton_append]
          have hhead : (if earlier.count path = 1 then [(⟨path, .duplicatePath⟩ : Issue)] else []) =
              (if earlier.count path = 1 then [path] else []).map (⟨·, .duplicatePath⟩) := by
            split <;> rfl
          rw [hhead, List.append_assoc, List.append_assoc]
          refine List.Perm.append_left _ ?_
          refine ((ih _).append_left _).trans ?_
          rw [← List.append_assoc, ← List.append_assoc]
          exact List.perm_append_comm.append_right _

end SchemaGate.Validation

import SchemaGate.Text.Split

/-!
# Paths in lock files

A lock file writes the path `dir/file.proto` as `dir:/:file.proto`. Reading replaces every `:/:` by
a slash; writing marks only the last slash. The main statement is `normalizeChars_eq_self`: a path
without slashes is left alone.
-/

namespace SchemaGate.Protopath

/-- Every `:/:` replaced by a slash, from left to right. -/
def normalizeChars : List Char → List Char
  | [] => []
  | ':' :: '/' :: ':' :: rest => '/' :: normalizeChars rest
  | c :: rest => c :: normalizeChars rest

/-- The path of a schema file from its path in a lock file. -/
def normalize (path : String) : String :=
  String.ofList (normalizeChars path.toList)

/-- The path in a lock file of a schema file. -/
def ofPath (path : String) : String :=
  match Text.cutLast? '/' path.toList with
  | some (directory, file) => String.ofList (directory ++ [':', '/', ':'] ++ file)
  | none => path

/-- A text without slashes is left alone. -/
theorem normalizeChars_eq_self {text : List Char} (h : '/' ∉ text) :
    normalizeChars text = text := by
  fun_induction normalizeChars text with
  | case1 => rfl
  | case2 rest => simp at h
  | case3 c rest _ ih => rw [ih fun hmem => h (List.mem_cons_of_mem _ hmem)]

end SchemaGate.Protopath

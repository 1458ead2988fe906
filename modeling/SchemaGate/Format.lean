import SchemaGate.Files.Path
import SchemaGate.Text.Blank
import SchemaGate.Text.LowerCase

/-!
# Schema formats

A schema is written as a lock file or as a descriptor set; `auto` leaves the choice to the extension
of its path or to its content. The main statement is `sniff_blanks`: blanks at the beginning do not
change what content looks like.
-/

namespace SchemaGate

/-- The format of a schema. -/
inductive SchemaFormat where
  | auto
  | lock
  | descriptorSet
  deriving DecidableEq, Repr, Inhabited

namespace SchemaFormat

/-- All formats. -/
def all : List SchemaFormat := [auto, lock, descriptorSet]

/-- The name of a format. -/
def text : SchemaFormat → String
  | auto => "auto"
  | lock => "lock"
  | descriptorSet => "descriptor-set"

/-- The format of a name. -/
def ofText? (text : String) : Option SchemaFormat :=
  all.find? fun format => format.text = text

/-- The other names of formats. -/
def shortNames : List (String × SchemaFormat) :=
  [("json", lock), ("descriptor", descriptorSet), ("pb", descriptorSet)]

/-- The format of a name or another name, in capitals or not. The fault is the word in small
letters. -/
def ofWord (word : String) : Except String SchemaFormat :=
  let lower := Text.toLower word
  match (ofText? lower).or (shortNames.lookup lower) with
  | some format => .ok format
  | none => .error lower

/-- The extensions of lock files. -/
def lockExtensions : List String := ["json", "lock"]

/-- The extensions of descriptor sets. -/
def descriptorExtensions : List String := ["pb", "desc", "bin"]

/-- The format of an extension. -/
def ofExtension? (extension : String) : Option SchemaFormat :=
  if lockExtensions.contains extension then some lock
  else if descriptorExtensions.contains extension then some descriptorSet
  else none

/-- The format of content by its first byte that is no blank: only a lock file begins with a brace.
-/
def sniff (content : List UInt8) : SchemaFormat :=
  match content.find? fun byte => !Text.isAsciiBlank byte with
  | some 0x7b => lock
  | _ => descriptorSet

/-- A format other than `auto`: the format itself, or that of the content. -/
def orSniffed (format : SchemaFormat) (content : List UInt8) : SchemaFormat :=
  match format with
  | auto => sniff content
  | format => format

/-- The format of a file by its extension, or else by its content. -/
def detect (path : String) (content : List UInt8) : SchemaFormat :=
  ((Path.extension? path).bind ofExtension?).getD (sniff content)

/-- Whether a directory is searched for files of a path when schemas of a format are wanted. -/
def accepts (format : SchemaFormat) (path : String) : Bool :=
  match (Path.extension? path).bind ofExtension? with
  | some found => format = auto ∨ format = found
  | none => false

/-- Reading the name of a format gives the format back. -/
@[simp] theorem ofText?_text (format : SchemaFormat) : ofText? format.text = some format := by
  cases format <;> decide

/-- Blanks at the beginning do not change what content looks like. -/
theorem sniff_blanks {blanks : List UInt8} (h : ∀ byte ∈ blanks, Text.isAsciiBlank byte = true)
    (content : List UInt8) : sniff (blanks ++ content) = sniff content := by
  have hfind : blanks.find? (fun byte => !Text.isAsciiBlank byte) = none := by
    simpa using h
  simp [sniff, List.find?_append, hfind]

end SchemaFormat

end SchemaGate

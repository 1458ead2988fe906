import Mathlib.Data.List.Infix
import SchemaGate.Files.Tree
import SchemaGate.Proofs.Text.Utf8
import SchemaGate.Proofs.Traversal

/-!
# Files that have been written

A file is written into a directory that is there, so writing makes no directory and removes none:
every path that led somewhere still leads there, and every other file keeps its content. The main
statements are `readText_of_writeText`, which says that a text is read back, `read_of_write_of_ne`,
the frame of a write, and `Written.read_eq_ok_iff`, the frame of a run of writes.
-/

namespace SchemaGate

namespace FileNode

/-- A directory stands at a place below a node. -/
def HasDirectory (node : FileNode) (place : List String) : Prop :=
  ∃ entries, node.at? place = some (directory entries)

section Places

variable {node next new : FileNode} {name other : String} {place rest : List String}

/-- A place below a place is looked for there. -/
theorem at?_append (node : FileNode) (place rest : List String) :
    node.at? (place ++ rest) = (node.at? place).bind fun inner => inner.at? rest := by
  induction place generalizing node with
  | nil => rfl
  | cons name names ih =>
      rw [List.cons_append, at?, at?]
      cases node.entry? name with
      | none => rfl
      | some next => exact ih next

/-- There is nothing below a file. -/
theorem at?_file_cons (content : List UInt8) (name : String) (names : List String) :
    (file content).at? (name :: names) = none := rfl

/-- What stands at a name in a directory is an entry of it. -/
theorem isSome_lookup_of_at? {entries : List (String × FileNode)}
    (hplace : node.at? place = some (directory entries)) (h : node.at? (place ++ [name]) ≠ none) :
    (entries.lookup name).isSome := by
  rw [at?_append, hplace, Option.bind_some] at h
  cases hentry : entries.lookup name with
  | none => exact absurd (by rw [at?, entry?, hentry]) h
  | some inner => rfl

/-- An entry of a directory stands at its name there. -/
theorem at?_ne_none_of_lookup {entries : List (String × FileNode)}
    (hplace : node.at? place = some (directory entries)) (h : (entries.lookup name).isSome) :
    node.at? (place ++ [name]) ≠ none := by
  obtain ⟨inner, hinner⟩ := Option.isSome_iff_exists.1 h
  rw [at?_append, hplace, Option.bind_some, at?, entry?, hinner]
  exact Option.some_ne_none inner

/-- Nothing but a directory has something below it. -/
theorem hasDirectory_of_append (h : node.at? (place ++ name :: rest) ≠ none) :
    node.HasDirectory place := by
  rw [at?_append] at h
  cases hplace : node.at? place with
  | none => rw [hplace] at h; exact absurd rfl h
  | some inner =>
      cases inner with
      | file content => rw [hplace] at h; exact absurd (at?_file_cons content name rest) h
      | directory entries => exact ⟨entries, hplace⟩

end Places

section Puts

variable {node new : FileNode} {name other : String} {names place : List String}

/-- Inserting an entry does not change the entries of other names. -/
theorem lookup_insertEntry_of_ne (h : other ≠ name) (node : FileNode)
    (entries : List (String × FileNode)) :
    (NameMap.insertEntry name node entries).lookup other = entries.lookup other := by
  have hname : (other == name) = false := beq_false_of_ne h
  induction entries with
  | nil => rw [NameMap.insertEntry, List.lookup_cons, hname]
  | cons first rest ih =>
      unfold NameMap.insertEntry
      split
      · rw [List.lookup_cons, hname]
      · split
        · rename_i hfirst
          rw [List.lookup_cons, List.lookup_cons, ← hfirst, hname]
        · rw [List.lookup_cons, List.lookup_cons, ih]

/-- What is put below an entry is put into that entry. -/
theorem entry?_put_self (node : FileNode) (name : String) (names : List String) (new : FileNode) :
    entry? (node.put (name :: names) new) name =
      some (((node.entry? name).getD (directory [])).put names new) :=
  lookup_insertEntry name _ node.entries

/-- The other entries stay. -/
theorem entry?_put_of_ne (h : other ≠ name) :
    entry? (node.put (name :: names) new) other = node.entry? other := by
  have hlookup := lookup_insertEntry_of_ne h
    (((node.entry? name).getD (directory [])).put names new) node.entries
  cases node <;> exact hlookup

/-- Below the place where a node is put stands what is below that node. -/
theorem at?_put_append (node : FileNode) (place rest : List String) (new : FileNode) :
    (node.put place new).at? (place ++ rest) = new.at? rest := by
  rw [at?_append, at?_put, Option.bind_some]

/-- Nothing changes at a place that is neither above nor below the one where a node is put. -/
theorem at?_put_of_apart {elsewhere : List String} (hbelow : ¬place <+: elsewhere)
    (habove : ¬elsewhere <+: place) :
    (node.put place new).at? elsewhere = node.at? elsewhere := by
  induction place generalizing node elsewhere with
  | nil => exact absurd List.nil_prefix hbelow
  | cons name names ih =>
      cases elsewhere with
      | nil => exact absurd List.nil_prefix habove
      | cons other others =>
          by_cases hname : other = name
          · subst hname
            rw [List.prefix_cons_inj] at hbelow habove
            have hinner : (((node.entry? other).getD (directory [])).put names new).at? others =
                ((node.entry? other).getD (directory [])).at? others := ih hbelow habove
            rw [at?, at?, entry?_put_self]
            dsimp only
            rw [hinner]
            cases node.entry? other with
            | some next => rfl
            | none =>
                -- The new directory is empty but for what is put into it.
                cases others with
                | nil => exact absurd List.nil_prefix habove
                | cons first others => rfl
          · rw [at?, at?, entry?_put_of_ne hname]

/-- A directory is still there after a node has been put at a place where there was none, and has
at least the names that it had. -/
theorem exists_directory_put {elsewhere : List String} {entries : List (String × FileNode)}
    (hplace : ¬node.HasDirectory place) (h : node.at? elsewhere = some (directory entries)) :
    ∃ after, (node.put place new).at? elsewhere = some (directory after) ∧
      ∀ name, (entries.lookup name).isSome → (after.lookup name).isSome := by
  induction place generalizing node elsewhere with
  | nil =>
      cases node with
      | directory own => exact absurd ⟨own, rfl⟩ hplace
      | file content =>
          cases elsewhere with
          | nil => cases h
          | cons name names => cases h
  | cons name names ih =>
      cases elsewhere with
      | nil =>
          cases h
          refine ⟨_, rfl, fun other hother => ?_⟩
          by_cases hname : other = name
          · rw [hname, lookup_insertEntry]
            rfl
          · rw [lookup_insertEntry_of_ne hname]
            exact hother
      | cons other others =>
          rw [at?] at h ⊢
          by_cases hname : other = name
          · subst hname
            rw [entry?_put_self]
            cases hentry : node.entry? other with
            | none => rw [hentry] at h; cases h
            | some next =>
                rw [hentry] at h
                refine ih (fun hinner => hplace ?_) h
                obtain ⟨inner, hinner⟩ := hinner
                exact ⟨inner, by rw [at?, hentry]; exact hinner⟩
          · rw [entry?_put_of_ne hname]
            exact ⟨entries, h, fun _ hsome => hsome⟩

/-- A file that is put into a directory makes no other directory. -/
theorem HasDirectory.of_put {directory elsewhere : List String} {content : List UInt8}
    (hdirectory : node.HasDirectory directory)
    (h : (node.put (directory ++ [name]) (.file content)).HasDirectory elsewhere) :
    node.HasDirectory elsewhere := by
  obtain ⟨entries, hentries⟩ := h
  by_cases hbelow : directory ++ [name] <+: elsewhere
  · obtain ⟨rest, rfl⟩ := hbelow
    rw [at?_put_append] at hentries
    cases rest <;> cases hentries
  by_cases habove : elsewhere <+: directory ++ [name]
  · rcases List.prefix_concat_iff.1 habove with rfl | hprefix
    · exact absurd (List.prefix_refl _) hbelow
    · obtain ⟨rest, rfl⟩ := hprefix
      obtain ⟨own, hown⟩ := hdirectory
      cases rest with
      | nil => exact ⟨own, by rwa [List.append_nil] at hown⟩
      | cons first rest => exact hasDirectory_of_append (by rw [hown]; exact Option.some_ne_none _)
  · rw [at?_put_of_apart hbelow habove] at hentries
    exact ⟨entries, hentries⟩

/-- A file stays as it is when another one is put into a directory. -/
theorem at?_file_put_of_ne {directory elsewhere : List String} {content other : List UInt8}
    (hdirectory : node.HasDirectory directory)
    (h : node.at? elsewhere = some (.file content)) (hne : elsewhere ≠ directory ++ [name])
    (hplace : ¬node.HasDirectory (directory ++ [name])) :
    (node.put (directory ++ [name]) (.file other)).at? elsewhere = some (.file content) := by
  rw [at?_put_of_apart ?_ ?_, h]
  · rintro ⟨rest, rfl⟩
    cases rest with
    | nil => exact hne (List.append_nil _)
    | cons first rest =>
        exact hplace (hasDirectory_of_append (by rw [h]; exact Option.some_ne_none _))
  · intro habove
    rcases List.prefix_concat_iff.1 habove with heq | ⟨rest, rfl⟩
    · exact hne heq
    · obtain ⟨own, hown⟩ := hdirectory
      cases rest with
      | nil =>
          rw [List.append_nil, h] at hown
          cases hown
      | cons first rest =>
          have hbelow : node.at? (elsewhere ++ first :: rest) ≠ none := by
            rw [hown]
            exact Option.some_ne_none _
          obtain ⟨entries, hentries⟩ := hasDirectory_of_append hbelow
          rw [h] at hentries
          cases hentries

/-- What stands elsewhere after a file has been put into a directory stood there before. -/
theorem at?_ne_none_of_put {directory elsewhere : List String} {content : List UInt8}
    (hdirectory : node.HasDirectory directory) (hne : elsewhere ≠ directory ++ [name])
    (h : (node.put (directory ++ [name]) (.file content)).at? elsewhere ≠ none) :
    node.at? elsewhere ≠ none := by
  by_cases hbelow : directory ++ [name] <+: elsewhere
  · obtain ⟨rest, rfl⟩ := hbelow
    rw [at?_put_append] at h
    cases rest with
    | nil => exact absurd (List.append_nil _) hne
    | cons first rest => exact absurd (at?_file_cons content first rest) h
  by_cases habove : elsewhere <+: directory ++ [name]
  · rcases List.prefix_concat_iff.1 habove with rfl | ⟨rest, rfl⟩
    · exact absurd rfl hne
    · -- On the way to a directory that is there, everything is.
      obtain ⟨own, hown⟩ := hdirectory
      intro hnone
      rw [at?_append, hnone] at hown
      cases hown
  · rwa [at?_put_of_apart hbelow habove] at h

/-- A file that stands elsewhere after another one has been put into a directory stood there
before. -/
theorem at?_file_of_put {directory elsewhere : List String} {content other : List UInt8}
    (hdirectory : node.HasDirectory directory) (hplace : ¬node.HasDirectory (directory ++ [name]))
    (hne : elsewhere ≠ directory ++ [name])
    (h : (node.put (directory ++ [name]) (.file other)).at? elsewhere = some (.file content)) :
    node.at? elsewhere = some (.file content) := by
  have hthere := at?_ne_none_of_put hdirectory hne (by rw [h]; exact Option.some_ne_none _)
  cases hbefore : node.at? elsewhere with
  | none => exact absurd hbefore hthere
  | some found =>
      cases found with
      | directory entries =>
          obtain ⟨after, hafter, -⟩ := exists_directory_put hplace hbefore
          rw [hafter] at h
          cases h
      | file bytes =>
          rw [at?_file_put_of_ne hdirectory hbefore hne hplace] at h
          exact h

end Puts

end FileNode

namespace FileTree

variable {tree written : FileTree} {path : String} {content : List UInt8} {place : List String}

section Following

/-- Names are followed one part after the other. -/
theorem follow_append (tree : FileTree) (place : List String) (names others : List String) :
    tree.follow place (names ++ others) =
      tree.follow place names >>= fun inner => tree.follow inner others := by
  induction names generalizing place with
  | nil => rfl
  | cons name names ih =>
      rw [List.cons_append, follow, follow]
      cases tree.root.at? place with
      | none => rfl
      | some node =>
          cases node with
          | file content => rfl
          | directory entries =>
              dsimp only
              split
              · exact ih place
              · split
                · exact ih place.dropLast
                · split
                  · exact ih (place ++ [name])
                  · rfl

/-- A name is followed in a directory to the directory itself, to the one above, or to an entry. -/
theorem follow_cons_of_directory {start names : List String} {name : String}
    {entries : List (String × FileNode)} (h : tree.root.at? start = some (.directory entries)) :
    tree.follow start (name :: names) =
      if name = "." then tree.follow start names
      else if name = ".." then tree.follow start.dropLast names
      else if (entries.lookup name).isSome then tree.follow (start ++ [name]) names
      else .error .notFound := by
  rw [follow, h]

/-- Names are followed only in a directory. -/
theorem exists_directory_of_follow {start names : List String} {name : String}
    (h : tree.follow start (name :: names) = .ok place) :
    ∃ entries, tree.root.at? start = some (.directory entries) := by
  rw [follow] at h
  split at h
  · cases h
  · cases h
  · rename_i entries hentries
    exact ⟨entries, hentries⟩

/-- A single dot is followed only in a directory. -/
theorem follow_here_eq_ok_iff {start : List String} :
    tree.follow start ["."] = .ok place ↔ place = start ∧ tree.root.HasDirectory start := by
  constructor
  · intro h
    obtain ⟨entries, hentries⟩ := exists_directory_of_follow h
    rw [follow_cons_of_directory hentries, if_pos rfl, follow] at h
    exact ⟨(Except.ok.inj h).symm, entries, hentries⟩
  · rintro ⟨rfl, entries, hentries⟩
    rw [follow_cons_of_directory hentries, if_pos rfl, follow]

/-- In a directory the name of an entry leads to that entry. -/
theorem follow_name {start : List String} {name : String} (hhere : name ≠ ".")
    (habove : name ≠ "..") (h : tree.root.at? (start ++ [name]) ≠ none) :
    tree.follow start [name] = .ok (start ++ [name]) := by
  obtain ⟨entries, hentries⟩ := FileNode.hasDirectory_of_append h
  rw [follow_cons_of_directory hentries, if_neg hhere, if_neg habove,
    if_pos (FileNode.isSome_lookup_of_at? hentries h), follow]

/-- A name that is followed in one tree is followed in another one if the directory there has the
name too and the other names are followed from every place. -/
theorem follow_cons_of_entries {other : FileTree} {start names : List String} {name : String}
    {entries after : List (String × FileNode)}
    (hentries : tree.root.at? start = some (.directory entries))
    (hafter : other.root.at? start = some (.directory after))
    (hname : tree.follow (start ++ [name]) names = .ok place → (entries.lookup name).isSome →
      (after.lookup name).isSome)
    (hnames : ∀ {inner}, tree.follow inner names = .ok place → other.follow inner names = .ok place)
    (h : tree.follow start (name :: names) = .ok place) :
    other.follow start (name :: names) = .ok place := by
  rw [follow_cons_of_directory hentries] at h
  rw [follow_cons_of_directory hafter]
  by_cases hhere : name = "."
  · rw [if_pos hhere] at h ⊢
    exact hnames h
  rw [if_neg hhere] at h ⊢
  by_cases habove : name = ".."
  · rw [if_pos habove] at h ⊢
    exact hnames h
  rw [if_neg habove] at h ⊢
  by_cases hsome : (entries.lookup name).isSome
  · rw [if_pos hsome] at h
    rw [if_pos (hname h hsome)]
    exact hnames h
  · rw [if_neg hsome] at h
    cases h

end Following

/-- A tree in which everything that could be followed in another one still can: the directories are
there, with at least the names that they had. -/
structure Keeps (tree written : FileTree) : Prop where
  here : written.here = tree.here
  directories : ∀ {place entries}, tree.root.at? place = some (.directory entries) →
    ∃ after, written.root.at? place = some (.directory after) ∧
      ∀ name, (entries.lookup name).isSome → (after.lookup name).isSome

namespace Keeps

variable (h : tree.Keeps written)
include h

/-- A path is followed from the same place. -/
theorem start_eq (path : String) : written.start path = tree.start path := by
  rw [start, start, h.here]

/-- Names that lead to a place still do. -/
theorem follow_eq_ok {start names : List String} (hfollow : tree.follow start names = .ok place) :
    written.follow start names = .ok place := by
  induction names generalizing start with
  | nil => exact hfollow
  | cons name names ih =>
      obtain ⟨entries, hentries⟩ := exists_directory_of_follow hfollow
      obtain ⟨after, hafter, hnames⟩ := h.directories hentries
      exact follow_cons_of_entries hentries hafter (fun _ hsome => hnames name hsome) ih hfollow

/-- A path that leads to a place still does. -/
theorem place_eq_ok (hplace : tree.place path = .ok place) : written.place path = .ok place := by
  unfold FileTree.place at hplace ⊢
  split at hplace
  · cases hplace
  · rename_i hempty
    rw [if_neg hempty, h.start_eq]
    exact h.follow_eq_ok hplace

/-- A file would still be written at the same place. -/
theorem placeToWrite_eq_ok (hplace : tree.placeToWrite path = .ok place) :
    written.placeToWrite path = .ok place := by
  unfold placeToWrite at hplace ⊢
  dsimp only at hplace ⊢
  split at hplace
  · cases hplace
  · rename_i hempty
    obtain ⟨directory, hdirectory, hplace⟩ := exists_of_bind_eq_ok hplace
    rw [if_neg hempty, h.start_eq, h.follow_eq_ok hdirectory]
    exact hplace

end Keeps

section Writes

/-- The place at which a file is written is a name in a directory that is there; the path leads to
it as soon as there is something. -/
theorem exists_of_placeToWrite (h : tree.placeToWrite path = .ok place) :
    ∃ directory name, place = directory ++ [name] ∧ tree.root.HasDirectory directory ∧
      ∀ {written : FileTree}, tree.Keeps written → written.root.at? place ≠ none →
        written.place path = .ok place := by
  rw [placeToWrite] at h
  split at h
  · cases h
  · rename_i hempty
    obtain ⟨directory, hdirectory, h⟩ := exists_of_bind_eq_ok h
    rw [follow_append] at hdirectory
    obtain ⟨inner, hfollow, hinner⟩ := exists_of_bind_eq_ok hdirectory
    obtain ⟨rfl, hthere⟩ := follow_here_eq_ok_iff.1 hinner
    split at h
    · cases h
    · rename_i hslash
      split at h
      · rename_i name hname
        cases h
        obtain ⟨hlast, hproper⟩ := Option.filter_eq_some_iff.1 hname
        obtain ⟨hhere, habove⟩ : name ≠ "." ∧ name ≠ ".." := by simpa using hproper
        refine ⟨directory, name, rfl, hthere, fun {written} hkeeps hsome => ?_⟩
        have hnames : Text.segments '/' path = (Text.segments '/' path).dropLast ++ [name] :=
          (List.dropLast_append_getLast? name hlast).symm
        rw [FileTree.place, if_neg hempty, hkeeps.start_eq, steps, if_neg hslash, List.append_nil,
          hnames, follow_append, hkeeps.follow_eq_ok hfollow]
        exact follow_name hhere habove hsome
      · cases h

/-- Writing a file puts it at its place, where no directory may be. -/
theorem write_eq_ok_iff :
    tree.write path content = .ok written ↔
      ∃ place, tree.placeToWrite path = .ok place ∧ ¬tree.root.HasDirectory place ∧
        written = { tree with root := tree.root.put place (.file content) } := by
  rw [write]
  constructor
  · intro h
    obtain ⟨place, hplace, h⟩ := exists_of_bind_eq_ok h
    split at h
    · cases h
    · rename_i hnone
      cases h
      exact ⟨place, hplace, fun ⟨entries, hentries⟩ => hnone entries hentries, rfl⟩
  · rintro ⟨place, hplace, hnone, rfl⟩
    rw [hplace, ok_bind]
    split
    · rename_i entries hentries
      exact absurd ⟨entries, hentries⟩ hnone
    · rfl

/-- Everything that could be followed before a file was written still can. -/
theorem keeps_of_write (h : tree.write path content = .ok written) : tree.Keeps written := by
  obtain ⟨place, -, hnone, rfl⟩ := write_eq_ok_iff.1 h
  exact ⟨rfl, fun hentries => FileNode.exists_directory_put hnone hentries⟩

/-- The bytes of a file at the place of a path are read. -/
theorem read_of_place (hplace : tree.place path = .ok place)
    (hfile : tree.root.at? place = some (.file content)) : tree.read path = .ok content := by
  rw [read, node, hplace, ok_bind, hfile]
  rfl

/-- A path from which bytes are read leads to the file that holds them. -/
theorem exists_place_of_read (h : tree.read path = .ok content) :
    ∃ place, tree.place path = .ok place ∧ tree.root.at? place = some (.file content) := by
  rw [read, node] at h
  obtain ⟨node, hnode, h⟩ := exists_of_bind_eq_ok h
  obtain ⟨place, hplace, hnode⟩ := exists_of_bind_eq_ok hnode
  refine ⟨place, hplace, ?_⟩
  cases hat : tree.root.at? place with
  | none => rw [hat] at hnode; cases hnode
  | some found =>
      rw [hat] at hnode
      cases hnode
      cases node with
      | file bytes => cases h; rfl
      | directory entries => cases h

/-- What can be read at a path is still read there when a file has been written elsewhere. -/
theorem read_of_write_of_ne {other : String} {added : List UInt8}
    (hread : tree.read path = .ok content) (h : tree.write other added = .ok written)
    (hne : tree.placeToWrite other ≠ tree.place path) : written.read path = .ok content := by
  obtain ⟨place, hplace, hfile⟩ := exists_place_of_read hread
  have hthere := (keeps_of_write h).place_eq_ok hplace
  obtain ⟨target, htarget, hnone, rfl⟩ := write_eq_ok_iff.1 h
  obtain ⟨directory, name, rfl, hdirectory, -⟩ := exists_of_placeToWrite htarget
  refine read_of_place hthere (FileNode.at?_file_put_of_ne hdirectory hfile ?_ hnone)
  rintro rfl
  exact hne (htarget.trans hplace.symm)

/-- Names that lead somewhere else after a file has been written led there before. -/
theorem follow_of_write {target start names : List String}
    (h : tree.write path content = .ok written) (htarget : tree.placeToWrite path = .ok target)
    (hfollow : written.follow start names = .ok place) (hne : place ≠ target) :
    tree.follow start names = .ok place := by
  obtain ⟨_, hwrite, hnone, rfl⟩ := write_eq_ok_iff.1 h
  cases htarget.symm.trans hwrite
  obtain ⟨directory, last, rfl, hdirectory, -⟩ := exists_of_placeToWrite htarget
  induction names generalizing start with
  | nil => exact hfollow
  | cons name names ih =>
      obtain ⟨after, hafter⟩ := exists_directory_of_follow hfollow
      obtain ⟨entries, hentries⟩ := hdirectory.of_put ⟨after, hafter⟩
      refine follow_cons_of_entries hafter hentries (fun hrest hsome => ?_) ih hfollow
      refine FileNode.isSome_lookup_of_at? hentries (FileNode.at?_ne_none_of_put hdirectory ?_
        (FileNode.at?_ne_none_of_lookup hafter hsome))
      -- Nothing can be followed from the file that was written.
      intro hnew
      rw [hnew] at hrest
      cases names with
      | nil => exact hne (Except.ok.inj hrest).symm
      | cons next names =>
          obtain ⟨inner, hinner⟩ := exists_directory_of_follow hrest
          rw [FileNode.at?_put] at hinner
          cases hinner

/-- Where a file can be written after another one has been, it could be written before. -/
theorem placeToWrite_of_write {other : String} (h : tree.write path content = .ok written)
    (hplace : written.placeToWrite other = .ok place) : tree.placeToWrite other = .ok place := by
  obtain ⟨target, htarget, -, hwritten⟩ := write_eq_ok_iff.1 h
  unfold placeToWrite at hplace ⊢
  dsimp only at hplace ⊢
  split at hplace
  · cases hplace
  · rename_i hempty
    obtain ⟨directory, hdirectory, hplace⟩ := exists_of_bind_eq_ok hplace
    rw [if_neg hempty, ← (keeps_of_write h).start_eq, follow_of_write h htarget hdirectory ?_]
    · exact hplace
    · -- The place is a directory, and a file has been written at the other one.
      rintro rfl
      rw [follow_append] at hdirectory
      obtain ⟨inner, -, hinner⟩ := exists_of_bind_eq_ok hdirectory
      obtain ⟨rfl, entries, hentries⟩ := follow_here_eq_ok_iff.1 hinner
      rw [hwritten, FileNode.at?_put] at hentries
      cases hentries

/-- What can be read at a path after a file has been written elsewhere could be read before. -/
theorem read_of_read_of_write {other : String} {added : List UInt8}
    (h : tree.write other added = .ok written) (hread : written.read path = .ok content)
    (hne : tree.placeToWrite other ≠ written.place path) : tree.read path = .ok content := by
  obtain ⟨place, hplace, hfile⟩ := exists_place_of_read hread
  obtain ⟨target, htarget, hnone, hwritten⟩ := write_eq_ok_iff.1 h
  have hother : place ≠ target := by
    rintro rfl
    exact hne (htarget.trans hplace.symm)
  have hbefore : tree.place path = .ok place := by
    unfold FileTree.place at hplace ⊢
    split at hplace
    · cases hplace
    · rename_i hempty
      rw [if_neg hempty, ← (keeps_of_write h).start_eq]
      exact follow_of_write h htarget hplace hother
  obtain ⟨directory, name, rfl, hdirectory, -⟩ := exists_of_placeToWrite htarget
  rw [hwritten] at hfile
  exact read_of_place hbefore (FileNode.at?_file_of_put hdirectory hnone hother hfile)

end Writes

section Runs

variable {paths : List String} {after : FileTree}

/-- A tree to which texts have been written one after the other, each at one of the listed paths. -/
inductive Written (paths : List String) (tree : FileTree) : FileTree → Prop
  /-- Nothing has been written. -/
  | unchanged : Written paths tree tree
  /-- One more text has been written. -/
  | write {before after : FileTree} {path text : String} :
      Written paths tree before → path ∈ paths → before.writeText path text = .ok after →
      Written paths tree after

namespace Written

/-- Everything that could be followed still can. -/
theorem keeps (h : tree.Written paths after) : tree.Keeps after := by
  induction h with
  | unchanged => exact ⟨rfl, fun hentries => ⟨_, hentries, fun _ hsome => hsome⟩⟩
  | write _ _ hwrite ih =>
      have hstep := keeps_of_write hwrite
      refine ⟨hstep.here.trans ih.here, fun hentries => ?_⟩
      obtain ⟨middle, hmiddle, hnames⟩ := ih.directories hentries
      obtain ⟨last, hlast, hmore⟩ := hstep.directories hmiddle
      exact ⟨last, hlast, fun name hsome => hmore name (hnames name hsome)⟩

/-- A file that can be written could be written at the same place before. -/
theorem placeToWrite_eq_ok (h : tree.Written paths after)
    (hplace : after.placeToWrite path = .ok place) : tree.placeToWrite path = .ok place := by
  induction h with
  | unchanged => exact hplace
  | write _ _ hwrite ih => exact ih (placeToWrite_of_write hwrite hplace)

/-- Away from the places of the listed paths every file is the same before and after. -/
theorem read_eq_ok_iff (h : tree.Written paths after)
    (hne : ∀ output ∈ paths, tree.placeToWrite output ≠ after.place path) :
    after.read path = .ok content ↔ tree.read path = .ok content := by
  induction h with
  | unchanged => exact Iff.rfl
  | @write before after output _ hbefore houtput hwrite ih =>
      -- The text has been written where it would have been written at first.
      have hstep : before.placeToWrite output ≠ after.place path := by
        intro heq
        obtain ⟨target, htarget, -⟩ := write_eq_ok_iff.1 hwrite
        refine hne output houtput ?_
        rw [hbefore.placeToWrite_eq_ok htarget, ← heq, htarget]
      have hlater {place : List String} (hplace : before.place path = .ok place) :
          after.place path = before.place path := by
        rw [hplace, (keeps_of_write hwrite).place_eq_ok hplace]
      constructor
      · intro hread
        have hread := read_of_read_of_write hwrite hread hstep
        obtain ⟨place, hplace, -⟩ := exists_place_of_read hread
        exact (ih (hlater hplace ▸ hne)).1 hread
      · intro hread
        obtain ⟨place, hplace, -⟩ := exists_place_of_read hread
        have hplace := hbefore.keeps.place_eq_ok hplace
        rw [hlater hplace] at hne hstep
        exact read_of_write_of_ne ((ih hne).2 hread) hwrite hstep

end Written

end Runs

section Texts

variable {text : String}

end Texts

end FileTree

end SchemaGate

import SchemaGate.Proofs.Analysis.RuleTable

/-!
# Findings path by path

What is found on a type depends on what the two schemas declare at its path and on nothing else, and
a list of findings is determined by what is found on each path. So a schema can be checked in parts:
the findings on two parts, merged by path, are the findings on the whole. The main statements are
`filter_findings`, `map_findings_eq_of_findingsOn` and `findings_merge`.
-/

namespace SchemaGate

/-- What is found on one path: nothing, unless the baseline declares a type there. -/
def findingsOn (old new : TypeIndex) (path : String) : List Finding :=
  match old.find? path with
  | some entry => findingsAt new path entry
  | none => []

/-- The finding without the file in which the type was declared. -/
def Finding.unfiled (finding : Finding) : Finding :=
  { finding with file := none }

/-- One finding comes before another if what it reports does. -/
def Finding.Precedes (a b : Finding) : Prop :=
  a.breach.Precedes b.breach

/-- So lists of findings in this order are determined by what they hold. -/
instance Finding.asymm_precedes : Std.Asymm Finding.Precedes := ⟨fun _ _ h => h.asymm⟩

/-- A finding on a smaller path comes first. -/
theorem Finding.precedes_of_typePath_lt {a b : Finding} (h : a.typePath < b.typePath) :
    a.Precedes b :=
  .inl h

/-- What comes first is not on a greater path. -/
theorem Finding.Precedes.typePath_le {a b : Finding} (h : a.Precedes b) :
    a.typePath ≤ b.typePath := by
  obtain hlt | ⟨heq, -⟩ := h
  · exact String.not_lt.1 (String.lt_asymm hlt)
  · have hpath : a.typePath = b.typePath := heq
    exact hpath ▸ String.le_refl a.typePath

/-- What an index finds is its definition and its file. -/
theorem TypeEntry.eq_of_parts {found other : Option TypeEntry}
    (hdefinition : found.map (·.definition) = other.map (·.definition))
    (hfile : found.map (·.file) = other.map (·.file)) : found = other := by
  obtain _ | ⟨definition, file⟩ := found <;> obtain _ | ⟨definition', file'⟩ := other <;> simp_all

section OnePath

variable {old new old' new' : TypeIndex} {path : String} {finding : Finding}

/-- The findings are in order. -/
theorem pairwise_findings (old new : TypeIndex) : (findings old new).Pairwise Finding.Precedes := by
  have hordered := List.pairwise_map.1 (pairwise_breaches_findings old new)
  exact hordered

/-- What is found on a path is found there. -/
theorem typePath_of_mem_findingsOn (h : finding ∈ findingsOn old new path) :
    finding.typePath = path := by
  unfold findingsOn at h
  split at h
  · rename_i entry hentry
    have hbreach := List.mem_map_of_mem (f := Finding.breach) h
    rw [breaches_findingsAt] at hbreach
    exact (pairwise_breaches_compareTypes path entry.definition _).2 _ hbreach
  · cases h

/-- What is found is found on the path of its type. -/
theorem mem_findings_iff_findingsOn :
    finding ∈ findings old new ↔ finding ∈ findingsOn old new finding.typePath := by
  have hon : finding ∈ findings old new ↔ ∃ path, finding ∈ findingsOn old new path := by
    rw [findings, List.mem_flatMap, Prod.exists]
    refine exists_congr fun path => ?_
    have hentries (entry : TypeEntry) :
        (path, entry) ∈ old.entries ↔ old.find? path = some entry := NameMap.mem_entries_iff
    simp only [hentries, findingsOn]
    cases old.find? path <;> simp
  rw [hon]
  constructor
  · intro h
    obtain ⟨path, h⟩ := h
    rwa [typePath_of_mem_findingsOn h]
  · exact fun h => ⟨_, h⟩

/-- The type of a finding is one of the baseline. -/
theorem exists_entry_of_mem_findings (h : finding ∈ findings old new) :
    ∃ entry, old.find? finding.typePath = some entry := by
  rw [mem_findings_iff_findingsOn, findingsOn] at h
  cases hentry : old.find? finding.typePath with
  | some entry => exact ⟨entry, rfl⟩
  | none =>
      rw [hentry] at h
      cases h

/-- The findings on a path are in order. -/
theorem pairwise_findingsOn (old new : TypeIndex) (path : String) :
    (findingsOn old new path).Pairwise Finding.Precedes := by
  unfold findingsOn
  split
  · rename_i entry _
    have hordered := (pairwise_breaches_compareTypes path entry.definition
      ((new.find? path).map (·.definition))).1
    rw [← breaches_findingsAt] at hordered
    have hfindings := List.pairwise_map.1 hordered
    exact hfindings
  · exact .nil

/-- The findings whose type is at a path are those that are found on the path. -/
theorem filter_findings (old new : TypeIndex) (path : String) :
    ((findings old new).filter fun finding => finding.typePath = path) =
      findingsOn old new path := by
  refine ((pairwise_findings old new).filter _).eq_of_mem_iff (pairwise_findingsOn old new path)
    fun finding => ?_
  rw [List.mem_filter, decide_eq_true_eq, mem_findings_iff_findingsOn]
  constructor
  · intro h
    obtain ⟨h, rfl⟩ := h
    exact h
  · intro h
    obtain rfl := typePath_of_mem_findingsOn h
    exact ⟨h, rfl⟩

/-- If as much is found on each path, up to a change of findings that keeps what they report, then
the findings are the same up to this change. -/
theorem map_findings_eq_of_findingsOn {reword : Finding → Finding}
    (hreword : ∀ finding, (reword finding).breach = finding.breach)
    (h : ∀ path, (findingsOn old' new' path).map reword = (findingsOn old new path).map reword) :
    (findings old' new').map reword = (findings old new).map reword := by
  have hordered (old new : TypeIndex) :
      ((findings old new).map reword).Pairwise Finding.Precedes := by
    refine List.pairwise_map.2 ((pairwise_findings old new).imp fun {a b} hprecedes => ?_)
    rw [Finding.Precedes, hreword, hreword]
    exact hprecedes
  have hmem (old new : TypeIndex) (finding : Finding) : finding ∈ (findings old new).map reword ↔
      finding ∈ (findingsOn old new finding.typePath).map reword := by
    rw [List.mem_map, List.mem_map]
    refine exists_congr fun original => and_congr_left fun hsame => ?_
    have hpath : finding.typePath = original.typePath := by
      rw [← hsame]
      exact congrArg Breach.typePath (hreword original)
    rw [hpath]
    exact mem_findings_iff_findingsOn
  refine (hordered old' new').eq_of_mem_iff (hordered old new) fun finding => ?_
  rw [hmem, hmem, h]

/-- What is found on a path is determined by what the baseline holds there and by the definition
that the candidate has there. -/
theorem findingsOn_congr (hold : old'.find? path = old.find? path)
    (hnew : (new'.find? path).map (·.definition) = (new.find? path).map (·.definition)) :
    findingsOn old' new' path = findingsOn old new path := by
  unfold findingsOn findingsAt
  rw [hold, hnew]

/-- But for the file it is determined by the two definitions. -/
theorem unfiled_findingsOn_congr
    (hold : (old'.find? path).map (·.definition) = (old.find? path).map (·.definition))
    (hnew : (new'.find? path).map (·.definition) = (new.find? path).map (·.definition)) :
    (findingsOn old' new' path).map Finding.unfiled =
      (findingsOn old new path).map Finding.unfiled := by
  have hbare (old new : TypeIndex) : (findingsOn old new path).map Finding.unfiled =
      ((old.find? path).map (·.definition)).elim [] fun definition =>
        (compareTypes path definition ((new.find? path).map (·.definition))).map
          Finding.unfiled := by
    unfold findingsOn
    cases old.find? path with
    | none => rfl
    | some entry => exact List.map_map
  rw [hbare, hbare, hold, hnew]

end OnePath

section Parts

/-- No type of one schema has the path of a type of the other. -/
def SchemaTree.Apart (tree other : SchemaTree) : Prop :=
  ∀ declaration ∈ tree.declarations, ∀ stranger ∈ other.declarations,
    stranger.path ≠ declaration.path

/-- Whether two schemas are apart is decided type by type. -/
instance (tree other : SchemaTree) : Decidable (tree.Apart other) :=
  inferInstanceAs (Decidable (∀ declaration ∈ tree.declarations, ∀ stranger ∈ other.declarations,
    stranger.path ≠ declaration.path))

/-- The types of two schemas put together are those of the one and those of the other. -/
theorem SchemaTree.declarations_merge (tree other : SchemaTree) :
    (tree.merge other).declarations = tree.declarations ++ other.declarations :=
  List.flatMap_append

/-- What holds a path holds it against an index of a schema that is apart. -/
theorem TypeIndex.find?_eq_none_of_apart {tree other : SchemaTree} {index stranger : TypeIndex}
    (hbuild : build tree = .ok index) (hother : build other = .ok stranger)
    (h : tree.Apart other) {path : String} {entry : TypeEntry}
    (hentry : index.find? path = some entry) : stranger.find? path = none :=
  (find?_eq_none_iff_of_build hother).2 (h _ ((find?_iff_of_build hbuild).1 hentry))

/-- If two schemas put together can be indexed, then so can each of them. Their indexes share no
path, and together they hold what the index of the whole holds. -/
theorem TypeIndex.exists_build_of_merge {tree other : SchemaTree} {index : TypeIndex}
    (h : build (tree.merge other) = .ok index) :
    ∃ left right, build tree = .ok left ∧ build other = .ok right ∧ tree.Apart other ∧
      ∀ path, index.find? path = (left.find? path).or (right.find? path) := by
  have hnodup := nodup_of_build h
  rw [SchemaTree.declarations_merge, List.map_append, List.nodup_append] at hnodup
  obtain ⟨hleft, hright, hdiffer⟩ := hnodup
  obtain ⟨left, hbuildLeft⟩ := exists_build_of_nodup hleft
  obtain ⟨right, hbuildRight⟩ := exists_build_of_nodup hright
  have hapart : tree.Apart other := by
    intro declaration hdeclaration stranger hstranger hpath
    exact hdiffer _ (List.mem_map_of_mem hdeclaration) _ (List.mem_map_of_mem hstranger) hpath.symm
  refine ⟨left, right, hbuildLeft, hbuildRight, hapart, fun path => Option.ext fun entry => ?_⟩
  rw [find?_iff_of_build h, SchemaTree.declarations_merge, List.mem_append,
    ← find?_iff_of_build hbuildLeft, ← find?_iff_of_build hbuildRight]
  cases hentry : left.find? path with
  | none => simp
  | some found => simp [find?_eq_none_of_apart hbuildLeft hbuildRight hapart hentry]

/-- Findings are merged in order of the paths of their types. -/
def Finding.pathLe (a b : Finding) : Bool :=
  decide (a.typePath ≤ b.typePath)

/-- Lists of findings that are in order and have no path in common are in order when they are merged
by path. -/
theorem pairwise_merge_of_typePath_ne {xs ys : List Finding} (hxs : xs.Pairwise Finding.Precedes)
    (hys : ys.Pairwise Finding.Precedes)
    (hapart : ∀ x ∈ xs, ∀ y ∈ ys, x.typePath ≠ y.typePath) :
    (xs.merge ys Finding.pathLe).Pairwise Finding.Precedes := by
  -- The head of the merged list is on a smaller path than the head of the other list, and so than
  -- everything in that list.
  have hlt {a b c : Finding} (hab : a.typePath < b.typePath) (hbc : b.Precedes c) :
      a.Precedes c := by
    refine Finding.precedes_of_typePath_lt (String.not_le.1 fun hca => ?_)
    exact String.not_le.2 hab (String.le_trans hbc.typePath_le hca)
  fun_induction List.merge xs ys Finding.pathLe with
  | case1 ys => exact hys
  | case2 xs => exact hxs
  | case3 x xs y ys hle ih =>
      have hxlt : x.typePath < y.typePath := by
        refine String.not_le.1 fun hge => ?_
        exact hapart x List.mem_cons_self y List.mem_cons_self
          (String.le_antisymm (of_decide_eq_true hle) hge)
      refine List.pairwise_cons.2 ⟨fun z hz => ?_, ih hxs.of_cons hys ?_⟩
      · obtain hz | hz := List.mem_merge.1 hz
        · exact List.rel_of_pairwise_cons hxs hz
        obtain rfl | hz := List.mem_cons.1 hz
        · exact Finding.precedes_of_typePath_lt hxlt
        · exact hlt hxlt (List.rel_of_pairwise_cons hys hz)
      · exact fun z hz => hapart z (List.mem_cons_of_mem _ hz)
  | case4 x xs y ys hle ih =>
      have hylt : y.typePath < x.typePath := String.not_le.1 (by simpa [Finding.pathLe] using hle)
      refine List.pairwise_cons.2 ⟨fun z hz => ?_, ih hxs hys.of_cons ?_⟩
      · obtain hz | hz := List.mem_merge.1 hz
        · obtain rfl | hz := List.mem_cons.1 hz
          · exact Finding.precedes_of_typePath_lt hylt
          · exact hlt hylt (List.rel_of_pairwise_cons hxs hz)
        · exact List.rel_of_pairwise_cons hys hz
      · exact fun z hz w hw => hapart z hz w (List.mem_cons_of_mem _ hw)

variable {first second firstNew secondNew : SchemaTree} {old new : TypeIndex}

/-- What is found on a path between two schemas that are put together is found between the parts to
which the path belongs. -/
theorem findingsOn_merge {left right leftNew rightNew : TypeIndex}
    (hleft : TypeIndex.build first = .ok left) (hright : TypeIndex.build second = .ok right)
    (hleftNew : TypeIndex.build firstNew = .ok leftNew)
    (hrightNew : TypeIndex.build secondNew = .ok rightNew) (hparts : first.Apart second)
    (hfirst : first.Apart secondNew) (hsecond : second.Apart firstNew)
    (hold : ∀ path, old.find? path = (left.find? path).or (right.find? path))
    (hnew : ∀ path, new.find? path = (leftNew.find? path).or (rightNew.find? path))
    (path : String) :
    findingsOn old new path = findingsOn left leftNew path ++ findingsOn right rightNew path := by
  have hnone {old new : TypeIndex} (h : old.find? path = none) : findingsOn old new path = [] := by
    rw [findingsOn, h]
  cases hentry : left.find? path with
  | some entry =>
      have hstranger : right.find? path = none :=
        TypeIndex.find?_eq_none_of_apart hleft hright hparts hentry
      have hstrangerNew : rightNew.find? path = none :=
        TypeIndex.find?_eq_none_of_apart hleft hrightNew hfirst hentry
      rw [hnone hstranger, List.append_nil]
      refine findingsOn_congr ?_ ?_
      · rw [hold, hentry, Option.some_or]
      · rw [hnew, hstrangerNew, Option.or_none]
  | none =>
      rw [hnone hentry, List.nil_append]
      cases hentry' : right.find? path with
      | some entry =>
          have hstrangerNew : leftNew.find? path = none :=
            TypeIndex.find?_eq_none_of_apart hright hleftNew hsecond hentry'
          refine findingsOn_congr ?_ ?_
          · rw [hold, hentry, Option.none_or]
          · rw [hnew, hstrangerNew, Option.none_or]
      | none =>
          have habsent : old.find? path = none := by rw [hold, hentry, hentry', Option.none_or]
          rw [hnone habsent, hnone hentry']

/-- If two schemas are put together, and so are two candidates of which neither declares a path of
the other schema, then each schema can be checked against its candidate, and the findings between
the wholes are the findings between the parts, merged by path. What is found on a type is determined
by the definitions that the two schemas have at its path, but for the file, which is that of the
baseline's definition. -/
theorem findings_merge (hold : TypeIndex.build (first.merge second) = .ok old)
    (hnew : TypeIndex.build (firstNew.merge secondNew) = .ok new)
    (hfirst : first.Apart secondNew) (hsecond : second.Apart firstNew) :
    (∃ left right leftNew rightNew, TypeIndex.build first = .ok left ∧
      TypeIndex.build second = .ok right ∧ TypeIndex.build firstNew = .ok leftNew ∧
      TypeIndex.build secondNew = .ok rightNew ∧
      findings old new =
        (findings left leftNew).merge (findings right rightNew) Finding.pathLe) ∧
    ∀ (old' new' : TypeIndex) (path : String),
      (old'.find? path).map (·.definition) = (old.find? path).map (·.definition) →
      (new'.find? path).map (·.definition) = (new.find? path).map (·.definition) →
      ((findings old' new').filter fun finding => finding.typePath = path).map Finding.unfiled =
          ((findings old new).filter fun finding => finding.typePath = path).map Finding.unfiled ∧
        ((old'.find? path).map (·.file) = (old.find? path).map (·.file) →
          ((findings old' new').filter fun finding => finding.typePath = path) =
            (findings old new).filter fun finding => finding.typePath = path) := by
  obtain ⟨left, right, hleft, hright, hparts, hfind⟩ := TypeIndex.exists_build_of_merge hold
  obtain ⟨leftNew, rightNew, hleftNew, hrightNew, -, hfindNew⟩ :=
    TypeIndex.exists_build_of_merge hnew
  have hon := findingsOn_merge hleft hright hleftNew hrightNew hparts hfirst hsecond hfind hfindNew
  refine ⟨⟨left, right, leftNew, rightNew, hleft, hright, hleftNew, hrightNew, ?_⟩, ?_⟩
  · have hdiffer : ∀ x ∈ findings left leftNew, ∀ y ∈ findings right rightNew,
        x.typePath ≠ y.typePath := by
      intro x hx y hy hpath
      obtain ⟨entry, hentry⟩ := exists_entry_of_mem_findings hx
      obtain ⟨stranger, hstranger⟩ := exists_entry_of_mem_findings hy
      rw [← hpath, TypeIndex.find?_eq_none_of_apart hleft hright hparts hentry] at hstranger
      cases hstranger
    refine (pairwise_findings old new).eq_of_mem_iff (pairwise_merge_of_typePath_ne
      (pairwise_findings _ _) (pairwise_findings _ _) hdiffer) fun finding => ?_
    rw [List.mem_merge, mem_findings_iff_findingsOn, mem_findings_iff_findingsOn,
      mem_findings_iff_findingsOn, hon, List.mem_append]
  · intro old' new' path hdefinition hdefinitionNew
    rw [filter_findings, filter_findings]
    refine ⟨unfiled_findingsOn_congr hdefinition hdefinitionNew, fun hfile => ?_⟩
    exact findingsOn_congr (TypeEntry.eq_of_parts hdefinition hfile) hdefinitionNew

/-- Two packages of a schema, between which another one comes in order of path. -/
def harbourOuter : SchemaTree :=
  ⟨[{ path := "berth.proto", package := ["berth"]
      messages := [{ name := "Slot", fields := [⟨"id", 1, "string", false, none⟩,
        ⟨"depth", 2, "int32", false, none⟩] }] },
    { path := "tide.proto", package := ["tide"], enums := [{ name := "Phase" }] }]⟩

/-- The package between them. -/
def harbourInner : SchemaTree :=
  ⟨[{ path := "crane.proto", package := ["crane"]
      messages := [{ name := "Arm", fields := [⟨"reach", 1, "int32", false, none⟩]
                     reserved := ⟨[⟨4, 4⟩], []⟩ }] }]⟩

/-- A release of the outer packages without a field and without an enum. -/
def harbourOuterNext : SchemaTree :=
  ⟨[{ path := "berth.proto", package := ["berth"]
      messages := [{ name := "Slot", fields := [⟨"id", 1, "string", false, none⟩] }] }]⟩

/-- A release of the inner package that uses a reserved number. -/
def harbourInnerNext : SchemaTree :=
  ⟨[{ path := "crane.proto", package := ["crane"]
      messages := [{ name := "Arm", fields := [⟨"reach", 4, "int32", false, none⟩] }] }]⟩

/-- What is found on the inner package comes between what is found on the outer ones, and it is
found on the inner package alone as well. -/
theorem findings_merge_harbour :
    ∃ old new right rightNew, TypeIndex.build (harbourOuter.merge harbourInner) = .ok old ∧
      TypeIndex.build (harbourOuterNext.merge harbourInnerNext) = .ok new ∧
      harbourOuter.Apart harbourInnerNext ∧ harbourInner.Apart harbourOuterNext ∧
      TypeIndex.build harbourInner = .ok right ∧ TypeIndex.build harbourInnerNext = .ok rightNew ∧
      (findings old new).map (·.kind) = [.removedField, .tagConflict, .removedType] ∧
      (∃ left leftNew, TypeIndex.build harbourOuter = .ok left ∧
        TypeIndex.build harbourOuterNext = .ok leftNew ∧
        findings old new =
          (findings left leftNew).merge (findings right rightNew) Finding.pathLe) ∧
      ((findings right rightNew).filter fun finding => finding.typePath = "crane.Arm") =
        (findings old new).filter fun finding => finding.typePath = "crane.Arm" := by
  have hfirst : harbourOuter.Apart harbourInnerNext := by decide
  have hsecond : harbourInner.Apart harbourOuterNext := by decide
  obtain ⟨⟨left, right, leftNew, rightNew, hparts⟩, hlocal⟩ := findings_merge rfl rfl hfirst hsecond
  obtain ⟨hleft, hright, hleftNew, hrightNew, hmerge⟩ := hparts
  cases hright
  cases hrightNew
  exact ⟨_, _, _, _, rfl, rfl, hfirst, hsecond, rfl, rfl, rfl,
    ⟨left, leftNew, hleft, hleftNew, hmerge⟩, (hlocal _ _ "crane.Arm" rfl rfl).2 rfl⟩

end Parts

end SchemaGate

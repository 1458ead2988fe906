import SchemaGate.Proofs.Analysis.Compatible
import SchemaGate.Proofs.Policy.Judgement
import SchemaGate.Proofs.Schema.Rearrangement

/-!
# What the rules do not see

The rules see the paths and kinds of types, the names and numbers of members, and which numbers and
names are reserved; of the candidate they also see which enums allow aliases. `SchemaTree.SameRules`
says that two schemas are the same in this respect, however they are written down. The analysis
takes the first of several ranges and the last of several members, but that shows only in the
wording of findings. The main statement is `findings_eq_of_sameRules`.
-/

namespace SchemaGate

/-- Two versions of a type have the same members, numbers and names. -/
structure MemberSet.SameRules (version other : MemberSet) : Prop where
  members : ∀ member, member ∈ other.members ↔ member ∈ version.members
  numbers : ∀ number, other.reserved.CoversNumber number ↔ version.reserved.CoversNumber number
  names : ∀ name, name ∈ other.reserved.names ↔ name ∈ version.reserved.names

/-- Two declarations are of one path and kind, and the rules see the same of them. -/
structure Declaration.SameRules (declaration other : Declaration) : Prop where
  path : other.path = declaration.path
  kind : other.definition.kindName = declaration.definition.kindName
  rules : declaration.definition.memberSet.SameRules other.definition.memberSet

/-- Every declaration has a counterpart in the other list that looks the same to the rules. -/
def SameDeclarations (declarations others : List Declaration) : Prop :=
  (∀ declaration ∈ declarations, ∃ other ∈ others, declaration.SameRules other) ∧
    ∀ other ∈ others, ∃ declaration ∈ declarations, declaration.SameRules other

/-- Two schemas have the same paths with the same kinds, and at each path the same members, reserved
numbers and reserved names. -/
def SchemaTree.SameRules (tree other : SchemaTree) : Prop :=
  SameDeclarations tree.declarations other.declarations

/-- The types of two schemas under one path both allow aliases, or neither does. -/
def SchemaTree.SameAliases (tree other : SchemaTree) : Prop :=
  ∀ declaration ∈ tree.declarations, ∀ moved ∈ other.declarations,
    moved.path = declaration.path →
      moved.definition.memberSet.allowAlias = declaration.definition.memberSet.allowAlias

/-- Whether aliases are the same is decided type by type. -/
instance (tree other : SchemaTree) : Decidable (tree.SameAliases other) :=
  inferInstanceAs (Decidable (∀ declaration ∈ tree.declarations, ∀ moved ∈ other.declarations, _))

section Symmetry

/-- What looks the same looks the same from the other side. -/
theorem MemberSet.SameRules.symm {version other : MemberSet} (h : version.SameRules other) :
    other.SameRules version :=
  ⟨fun member => (h.members member).symm, fun number => (h.numbers number).symm,
    fun name => (h.names name).symm⟩

/-- Declarations that look the same look the same from the other side. -/
theorem Declaration.SameRules.symm {declaration other : Declaration}
    (h : declaration.SameRules other) : other.SameRules declaration :=
  ⟨h.path.symm, h.kind.symm, h.rules.symm⟩

/-- Schemas that look the same look the same from the other side. -/
theorem SchemaTree.SameRules.symm {tree other : SchemaTree} (h : tree.SameRules other) :
    other.SameRules tree := by
  refine ⟨fun moved hmoved => ?_, fun declaration hdeclared => ?_⟩
  · obtain ⟨declaration, hdeclared, hsame⟩ := h.2 moved hmoved
    exact ⟨declaration, hdeclared, hsame.symm⟩
  · obtain ⟨moved, hmoved, hsame⟩ := h.1 declaration hdeclared
    exact ⟨moved, hmoved, hsame.symm⟩

/-- Aliases that are the same are the same from the other side. -/
theorem SchemaTree.SameAliases.symm {tree other : SchemaTree} (h : tree.SameAliases other) :
    other.SameAliases tree :=
  fun moved hmoved declaration hdeclared hpath =>
    (h declaration hdeclared moved hmoved hpath.symm).symm

end Symmetry

section Transfer

/-- A name that one version lacks the other lacks as well. -/
theorem MemberSet.SameRules.lacks {version other : MemberSet} (h : version.SameRules other)
    {name : String} (hlacks : version.Lacks name) : other.Lacks name :=
  fun member hmember => hlacks member ((h.members member).1 hmember)

/-- Where names are declared once, a member that counts in one version counts in the other. -/
theorem MemberSet.SameRules.counts {version other : MemberSet} (h : version.SameRules other)
    (honce : (other.members.map (·.name)).Nodup) {member : Member}
    (hcounts : version.Counts member) : other.Counts member :=
  (counts_iff_mem honce).2 ((h.members member).2 hcounts.mem)

variable {old old' new new' : MemberSet}

/-- A number that is taken between two versions is taken between those that look the same. -/
theorem MemberSet.SameRules.numberTaken (hold : old.SameRules old') (hnew : new.SameRules new')
    (halias : new'.allowAlias = new.allowAlias) {member : Member}
    (h : NumberTaken old new member) : NumberTaken old' new' member := by
  obtain hbaseline | hcandidate | ⟨hunshared, other, hother, hnumber, hname⟩ := h
  · exact .inl ((hold.numbers _).2 hbaseline)
  · exact .inr (.inl ((hnew.numbers _).2 hcandidate))
  · exact .inr (.inr ⟨halias.trans hunshared, other, (hnew.members other).2 hother, hnumber,
      hname⟩)

/-- What breaks the rules for members breaks them between versions that look the same. -/
theorem MemberBreach.of_sameRules {terms : MemberTerms} {path : String} {breach : Breach}
    (hold : old.SameRules old') (hnew : new.SameRules new')
    (halias : new'.allowAlias = new.allowAlias) (honce : (old'.members.map (·.name)).Nodup)
    (honce' : (new'.members.map (·.name)).Nodup) (h : MemberBreach terms path old new breach) :
    MemberBreach terms path old' new' breach := by
  cases h with
  | removed member hcounts hgone hopen =>
      refine .removed member (hold.counts honce hcounts) (hnew.lacks hgone) ?_
      rw [hnew.numbers, hnew.names]
      exact hopen
  | conflict before after hbefore hafter hname htaken =>
      exact .conflict before after (hold.counts honce hbefore) (hnew.counts honce' hafter) hname
        (hold.numberTaken hnew halias htaken)
  | numberReuse member hcounts hlacks htaken =>
      exact .numberReuse member (hnew.counts honce' hcounts) (hold.lacks hlacks)
        (hold.numberTaken hnew halias htaken)
  | nameReuse member hcounts hlacks hreserved =>
      refine .nameReuse member (hnew.counts honce' hcounts) (hold.lacks hlacks) ?_
      rw [hold.names, hnew.names]
      exact hreserved

/-- What breaks the rules between two schemas breaks them between schemas that look the same. -/
theorem TypeBreach.of_sameRules {baseline candidate baseline' candidate' : SchemaTree}
    {breach : Breach} (hold : baseline.SameRules baseline') (hnew : candidate.SameRules candidate')
    (halias : candidate.SameAliases candidate') (honce : baseline'.NamesOnce)
    (honce' : candidate'.NamesOnce) (h : TypeBreach baseline candidate breach) :
    TypeBreach baseline' candidate' breach := by
  cases h with
  | missing before hbefore hgone =>
      obtain ⟨moved, hmoved, hsame⟩ := hold.1 before hbefore
      rw [← hsame.path]
      refine .missing moved hmoved fun after hafter hpath => ?_
      obtain ⟨found, hfound, hfoundSame⟩ := hnew.2 after hafter
      exact hgone found hfound (hfoundSame.path.symm.trans (hpath.trans hsame.path))
  | kindChanged before after hbefore hafter hpath hkind =>
      obtain ⟨moved, hmoved, hsame⟩ := hold.1 before hbefore
      obtain ⟨moved', hmoved', hsame'⟩ := hnew.1 after hafter
      rw [← hsame.path, ← hsame.kind, ← hsame'.kind]
      refine .kindChanged moved moved' hmoved hmoved' ?_ ?_
      · exact hsame'.path.trans (hpath.trans hsame.path.symm)
      · rw [hsame.kind, hsame'.kind]
        exact hkind
  | member before after hbefore hafter hpath hkind breach hbreach =>
      obtain ⟨moved, hmoved, hsame⟩ := hold.1 before hbefore
      obtain ⟨moved', hmoved', hsame'⟩ := hnew.1 after hafter
      refine .member moved moved' hmoved hmoved' ?_ ?_ breach ?_
      · exact hsame'.path.trans (hpath.trans hsame.path.symm)
      · exact hsame.kind.trans (hkind.trans hsame'.kind.symm)
      · rw [TypeDef.terms_eq hsame.kind, hsame.path]
        exact hbreach.of_sameRules hsame.rules hsame'.rules
          (halias after hafter moved' hmoved' hsame'.path) (honce moved hmoved)
          (honce' moved' hmoved')

end Transfer

section Findings

/-- The finding without its wording and its file. -/
def Finding.unworded (finding : Finding) : Finding :=
  { finding with message := "", file := none }

/-- The error that reports a breach, without wording and file. -/
def Breach.unworded (breach : Breach) : Finding :=
  { kind := breach.kind, typePath := breach.typePath, member := breach.member
    number := breach.number, message := "", expected := breach.expected, actual := breach.actual }

/-- Without wording and file an error is what it reports. -/
theorem Finding.unworded_eq {finding : Finding} (h : finding.severity = .error) :
    finding.unworded = finding.breach.unworded := by
  rw [unworded, Breach.unworded, breach, h]

/-- A policy does not look at wording and files. -/
theorem Policy.rewording_unworded : Policy.Rewording Finding.unworded :=
  ⟨fun _ => rfl, fun _ => rfl, fun _ _ => rfl⟩

variable {baseline candidate baseline' candidate' : SchemaTree} {old new old' new' : TypeIndex}

/-- Pairs of schemas that look the same have the same findings, one by one, but for wording and
files. -/
theorem unworded_findings_eq (hold : TypeIndex.build baseline = .ok old)
    (hnew : TypeIndex.build candidate = .ok new) (hold' : TypeIndex.build baseline' = .ok old')
    (hnew' : TypeIndex.build candidate' = .ok new') (honce : baseline.NamesOnce)
    (honceNew : candidate.NamesOnce) (honce' : baseline'.NamesOnce)
    (honceNew' : candidate'.NamesOnce) (hrules : baseline.SameRules baseline')
    (hrulesNew : candidate.SameRules candidate') (haliases : candidate.SameAliases candidate') :
    (findings old new).map Finding.unworded = (findings old' new').map Finding.unworded := by
  -- Both lists are in strict order, so it is enough that they hold the same breaches.
  have hbreaches : (findings old new).map Finding.breach =
      (findings old' new').map Finding.breach := by
    refine (pairwise_breaches_findings old new).eq_of_mem_iff
      (pairwise_breaches_findings old' new') fun breach => ?_
    rw [mem_breaches_findings hold hnew, mem_breaches_findings hold' hnew']
    constructor
    · exact TypeBreach.of_sameRules hrules hrulesNew haliases honce' honceNew'
    · exact TypeBreach.of_sameRules hrules.symm hrulesNew.symm haliases.symm honce honceNew
  have hunworded (old new : TypeIndex) : (findings old new).map Finding.unworded =
      ((findings old new).map Finding.breach).map Breach.unworded := by
    rw [List.map_map]
    exact List.map_congr_left fun finding hfinding =>
      Finding.unworded_eq (severity_of_mem_findings hfinding)
  rw [hunworded, hbreaches, ← hunworded]

end Findings

section Rearranging

namespace SameDeclarations

variable {declarations others declarations' others' : List Declaration}

/-- What looks the same piece by piece looks the same. -/
theorem append (h : SameDeclarations declarations others)
    (h' : SameDeclarations declarations' others') :
    SameDeclarations (declarations ++ declarations') (others ++ others') := by
  refine ⟨fun declaration hdeclared => ?_, fun other hother => ?_⟩
  · obtain hmem | hmem := List.mem_append.1 hdeclared
    · obtain ⟨other, hother, hsame⟩ := h.1 declaration hmem
      exact ⟨other, List.mem_append_left _ hother, hsame⟩
    · obtain ⟨other, hother, hsame⟩ := h'.1 declaration hmem
      exact ⟨other, List.mem_append_right _ hother, hsame⟩
  · obtain hmem | hmem := List.mem_append.1 hother
    · obtain ⟨declaration, hdeclared, hsame⟩ := h.2 other hmem
      exact ⟨declaration, List.mem_append_left _ hdeclared, hsame⟩
    · obtain ⟨declaration, hdeclared, hsame⟩ := h'.2 other hmem
      exact ⟨declaration, List.mem_append_right _ hdeclared, hsame⟩

/-- What looks the same does so in any order. -/
theorem of_perm (h : SameDeclarations declarations others)
    (hdeclarations : declarations'.Perm declarations) (hothers : others'.Perm others) :
    SameDeclarations declarations' others' := by
  refine ⟨fun declaration hdeclared => ?_, fun other hother => ?_⟩
  · obtain ⟨other, hother, hsame⟩ := h.1 declaration (hdeclarations.mem_iff.1 hdeclared)
    exact ⟨other, hothers.mem_iff.2 hother, hsame⟩
  · obtain ⟨declaration, hdeclared, hsame⟩ := h.2 other (hothers.mem_iff.1 hother)
    exact ⟨declaration, hdeclarations.mem_iff.2 hdeclared, hsame⟩

/-- If related items declare what looks the same, so do lists of such items in any order. -/
theorem flatMap {α β : Type} {R : α → β → Prop} {items : List α} {images : List β}
    (h : Shuffled R items images) {declare : α → List Declaration}
    {declare' : β → List Declaration}
    (hsame : ∀ item ∈ items, ∀ image, R item image →
      SameDeclarations (declare item) (declare' image)) :
    SameDeclarations (items.flatMap declare) (images.flatMap declare') := by
  refine ⟨fun declaration hdeclared => ?_, fun other hother => ?_⟩
  · obtain ⟨item, hitem, hdeclared⟩ := List.mem_flatMap.1 hdeclared
    obtain ⟨image, himage, hrelated⟩ := h.exists_right hitem
    obtain ⟨other, hother, hlook⟩ := (hsame item hitem image hrelated).1 declaration hdeclared
    exact ⟨other, List.mem_flatMap.2 ⟨image, himage, hother⟩, hlook⟩
  · obtain ⟨image, himage, hother⟩ := List.mem_flatMap.1 hother
    obtain ⟨item, hitem, hrelated⟩ := h.exists_left himage
    obtain ⟨declaration, hdeclared, hlook⟩ := (hsame item hitem image hrelated).2 other hother
    exact ⟨declaration, List.mem_flatMap.2 ⟨item, hitem, hdeclared⟩, hlook⟩

/-- Two declarations that look the same do so as lists. -/
theorem singleton {declaration other : Declaration} (h : declaration.SameRules other) :
    SameDeclarations [declaration] [other] := by
  refine ⟨fun first hfirst => ?_, fun second hsecond => ?_⟩
  · rw [List.mem_singleton.1 hfirst]
    exact ⟨other, List.mem_singleton_self other, h⟩
  · rw [List.mem_singleton.1 hsecond]
    exact ⟨declaration, List.mem_singleton_self declaration, h⟩

end SameDeclarations

/-- Members and reservations that are listed in another order look the same to the rules. -/
theorem MemberSet.SameRules.of_perm {version other : MemberSet}
    (hmembers : version.members.Perm other.members)
    (hreserved : version.reserved.Rearranged other.reserved) : version.SameRules other where
  members member := hmembers.mem_iff.symm
  numbers number := by
    simp only [Reservations.CoversNumber, hreserved.ranges.mem_iff]
  names name := hreserved.names.mem_iff.symm

/-- A rearranged enum declares what looks the same. -/
theorem EnumType.Rearranged.sameDeclarations {enumType other : EnumType}
    (h : enumType.Rearranged other) (file file' scope : String) :
    SameDeclarations (EnumType.declarationsOfAll file scope [enumType])
      (EnumType.declarationsOfAll file' scope [other]) := by
  refine .singleton ⟨?_, rfl, .of_perm ?_ h.reserved⟩
  · show qualify scope other.name = qualify scope enumType.name
    rw [h.name]
  · exact h.constants.map EnumConstant.member

/-- Several rearranged enums declare what looks the same. -/
theorem EnumType.sameDeclarations_of_shuffled {enums others : List EnumType}
    (h : Shuffled EnumType.Rearranged enums others) (file file' scope : String) :
    SameDeclarations (EnumType.declarationsOfAll file scope enums)
      (EnumType.declarationsOfAll file' scope others) := by
  rw [declarationsOfAll, declarationsOfAll, List.map_eq_flatMap, List.map_eq_flatMap]
  exact .flatMap h fun enumType _ other hsame => hsame.sameDeclarations file file' scope

/-- A rearranged message declares what looks the same. -/
theorem MessageType.Rearranged.sameDeclarations {message other : MessageType}
    (h : message.Rearranged other) (file file' scope : String) :
    SameDeclarations (message.declarations file scope) (other.declarations file' scope) := by
  induction message using nested_induction generalizing other scope with
  | step message ih =>
      obtain ⟨hname, hfields, shuffled, hperm, hmessages, henums, hreserved⟩ := h
      have hmembers : (message.fields.map Field.member).Perm (other.fields.map Field.member) := by
        have hview := hfields.map fun field => (⟨field.1, field.2.toNat⟩ : Member)
        rw [List.map_map, List.map_map] at hview
        exact hview
      rw [declarations_eq, declarations_eq, hname]
      refine .append (.append ?_ ?_) ?_
      · refine .flatMap ⟨shuffled, hperm, hmessages⟩ fun nested hnested image himage => ?_
        exact ih nested hnested himage _
      · exact EnumType.sameDeclarations_of_shuffled henums file file' _
      · exact .singleton ⟨rfl, rfl, .of_perm hmembers hreserved⟩

/-- A rearranged schema looks the same to the rules. -/
theorem SchemaTree.Rearranged.sameRules {tree other : SchemaTree} (h : tree.Rearranged other) :
    tree.SameRules other := by
  refine .of_perm (.append ?_ ?_) tree.declarations_perm_placed other.declarations_perm_placed
  · refine .flatMap h.messages fun placed _ moved hmoved => ?_
    rw [hmoved.1]
    exact hmoved.2.sameDeclarations _ _ _
  · refine .flatMap h.enums fun placed _ moved hmoved => ?_
    rw [hmoved.1]
    exact hmoved.2.sameDeclarations _ _ _

end Rearranging

/-- Two pairs of schemas, in which no type declares a name twice, have the same findings in the same
order, but for wording and files, and get the same verdicts under every policy, if the rules see the
same of the baselines and of the candidates, as they do of schemas that are only rearranged, and if
the enums of the candidates agree in whether they allow aliases. -/
theorem findings_eq_of_sameRules {baseline candidate baseline' candidate' : SchemaTree}
    {old new old' new' : TypeIndex} (hold : TypeIndex.build baseline = .ok old)
    (hnew : TypeIndex.build candidate = .ok new) (hold' : TypeIndex.build baseline' = .ok old')
    (hnew' : TypeIndex.build candidate' = .ok new') (honce : baseline.NamesOnce)
    (honceNew : candidate.NamesOnce) (honce' : baseline'.NamesOnce)
    (honceNew' : candidate'.NamesOnce)
    (hbaseline : baseline.SameRules baseline' ∨ baseline.Rearranged baseline')
    (hcandidate : candidate.SameRules candidate' ∨ candidate.Rearranged candidate')
    (haliases : candidate.SameAliases candidate') :
    (findings old new).map Finding.unworded = (findings old' new').map Finding.unworded ∧
      ∀ policy, ∃ verdict verdict', check policy baseline candidate = .ok verdict ∧
        check policy baseline' candidate' = .ok verdict' ∧
        verdict.map Finding.unworded = verdict'.map Finding.unworded ∧
        verdict.compatible = verdict'.compatible := by
  have hrules : baseline.SameRules baseline' := hbaseline.elim id fun h => h.sameRules
  have hrulesNew : candidate.SameRules candidate' := hcandidate.elim id fun h => h.sameRules
  have hfindings := unworded_findings_eq hold hnew hold' hnew' honce honceNew honce' honceNew'
    hrules hrulesNew haliases
  refine ⟨hfindings, fun policy => ?_⟩
  have hverdict : (policy.judge (findings old new)).map Finding.unworded =
      (policy.judge (findings old' new')).map Finding.unworded := by
    rw [← Policy.rewording_unworded.judge_map, ← Policy.rewording_unworded.judge_map, hfindings]
  refine ⟨_, _, check_of_build hold hnew, check_of_build hold' hnew', hverdict, ?_⟩
  rw [← Verdict.compatible_map Finding.unworded, hverdict, Verdict.compatible_map]

/-- A schema of two files with a message in each and an enum that allows aliases. -/
def shelfBefore : SchemaTree :=
  ⟨[{ path := "book.proto", package := ["shelf"]
      messages :=
        [{ name := "Book"
           fields := [⟨"id", 1, "string", false, none⟩, ⟨"title", 2, "string", false, some "text"⟩]
           oneofs := [⟨"text", ["title"]⟩]
           reserved := ⟨[⟨5, 6⟩, ⟨9, 9⟩], ["pages", "isbn"]⟩ }]
      enums := [{ name := "State", constants := [⟨"NEW", 0⟩, ⟨"LENT", 1⟩], allowAlias := true }] },
    { path := "loan.proto", package := ["shelf"], messages := [{ name := "Loan" }] }]⟩

/-- The same types in one file and in another order, with the oneof taken apart, another type and
label for a field, and an enum that does not allow aliases. -/
def shelfRearranged : SchemaTree :=
  ⟨[{ path := "shelf.proto", package := ["shelf"]
      messages :=
        [{ name := "Loan" },
         { name := "Book"
           fields := [⟨"title", 2, "bytes", true, none⟩, ⟨"id", 1, "string", false, none⟩]
           reserved := ⟨[⟨9, 9⟩, ⟨5, 6⟩], ["isbn", "pages"]⟩ }]
      enums := [{ name := "State", constants := [⟨"LENT", 1⟩, ⟨"NEW", 0⟩] }] }]⟩

/-- A release that retires a field, drops a message and uses a reserved number and a reserved name.
The ranges that it reserves are a parameter. -/
def shelfAfter (ranges : List ReservedRange) : SchemaTree :=
  ⟨[{ path := "book.proto", package := ["shelf"]
      messages :=
        [{ name := "Book"
           fields := [⟨"id", 1, "string", false, none⟩, ⟨"pages", 5, "int32", false, none⟩]
           reserved := ⟨ranges, ["title"]⟩ }]
      enums := [{ name := "State", constants := [⟨"NEW", 0⟩, ⟨"LENT", 1⟩] }] }]⟩

/-- The schema in one file is the schema in two files, rearranged. -/
theorem rearranged_shelf : shelfBefore.Rearranged shelfRearranged where
  messages := by
    refine ⟨shelfBefore.placedMessages.reverse, (List.reverse_perm _).symm, ?_⟩
    refine .cons ⟨rfl, ?_⟩ (.cons ⟨rfl, ?_⟩ .nil)
    · exact .intro rfl (.refl _) [] (.refl _) .nil ⟨[], .refl _, .nil⟩ ⟨.refl _, .refl _⟩
    · exact .intro rfl (.swap _ _ _) [] (.refl _) .nil ⟨[], .refl _, .nil⟩
        ⟨.swap _ _ _, .swap _ _ _⟩
  enums := ⟨shelfBefore.placedEnums, .refl _,
    .cons ⟨rfl, rfl, .swap _ _ _, .refl _, .refl _⟩ .nil⟩

/-- A range of reserved numbers that is cut in two reserves the same numbers. -/
theorem sameRules_shelf : (shelfAfter [⟨2, 4⟩]).SameRules (shelfAfter [⟨4, 4⟩, ⟨2, 3⟩]) := by
  have hends : (2 : Int32).toInt = 2 ∧ (3 : Int32).toInt = 3 ∧ (4 : Int32).toInt = 4 := by decide
  have hnumbers (number : Int) :
      (⟨[⟨4, 4⟩, ⟨2, 3⟩], ["title"]⟩ : Reservations).CoversNumber number ↔
        (⟨[⟨2, 4⟩], ["title"]⟩ : Reservations).CoversNumber number := by
    simp only [Reservations.CoversNumber, List.mem_cons, List.not_mem_nil, or_false,
      exists_eq_or_imp, exists_eq_left, hends]
    omega
  show SameDeclarations ([_] ++ [_]) ([_] ++ [_])
  exact .append (.singleton ⟨rfl, rfl, fun _ => Iff.rfl, hnumbers, fun _ => Iff.rfl⟩)
    (.singleton ⟨rfl, rfl, .of_perm (.refl _) ⟨.refl _, .refl _⟩⟩)

/-- The findings and the verdicts on the release do not depend on how the two schemas are written
down. -/
theorem findings_eq_of_sameRules_shelf :
    ∃ old new old' new', TypeIndex.build shelfBefore = .ok old ∧
      TypeIndex.build (shelfAfter [⟨2, 4⟩]) = .ok new ∧
      TypeIndex.build shelfRearranged = .ok old' ∧
      TypeIndex.build (shelfAfter [⟨4, 4⟩, ⟨2, 3⟩]) = .ok new' ∧
      (findings old new).map (·.kind) =
        [.reservedTagReuse, .reservedNameReuse, .removedType] ∧
      (findings old new).map Finding.unworded = (findings old' new').map Finding.unworded ∧
      ∀ policy, ∃ verdict verdict', check policy shelfBefore (shelfAfter [⟨2, 4⟩]) = .ok verdict ∧
        check policy shelfRearranged (shelfAfter [⟨4, 4⟩, ⟨2, 3⟩]) = .ok verdict' ∧
        verdict.map Finding.unworded = verdict'.map Finding.unworded ∧
        verdict.compatible = verdict'.compatible :=
  ⟨_, _, _, _, rfl, rfl, rfl, rfl, rfl,
    findings_eq_of_sameRules rfl rfl rfl rfl (by decide) (by decide) (by decide) (by decide)
      (.inr rearranged_shelf) (.inl sameRules_shelf) (by decide)⟩

end SchemaGate

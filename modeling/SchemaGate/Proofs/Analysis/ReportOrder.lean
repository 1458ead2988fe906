import Mathlib.Data.Prod.Lex
import SchemaGate.Proofs.Analysis.RuleTable
import SchemaGate.Proofs.Schema.Place
import SchemaGate.Proofs.Text.ByteOrder

/-!
# The order of a report

The findings between two indexes come in an order that depends on nothing but what they report. The
main statement is `findings_ordered`: the keys of the findings are strictly increasing, no two
findings are of one kind and about one member, and each is an error at a type of the baseline and
in the file of that type.
-/

namespace SchemaGate

/-- The turn of a kind within its step: of one member the number is reported before the name. -/
def FindingKind.turn : FindingKind → Nat
  | reservedNameReuse => 1
  | _ => 0

/-- The kind of reused names is the only one to come second. -/
theorem FindingKind.turn_of_ne {kind : FindingKind} (h : kind ≠ .reservedNameReuse) :
    kind.turn = 0 := by
  cases kind <;> first | rfl | exact absurd rfl h

/-- What the findings are in order of: the bytes of the path, the step, the bytes of the name of the
member, and the turn. -/
def Finding.orderKey (finding : Finding) : List UInt8 ×ₗ Nat ×ₗ Option (List UInt8) ×ₗ Nat :=
  toLex (Text.bytes finding.typePath, toLex (finding.kind.step,
    toLex (finding.member.map Text.bytes, finding.kind.turn)))

/-- A breach that precedes another has the smaller key. -/
theorem Finding.orderKey_lt {a b : Finding} (h : a.breach.Precedes b.breach) :
    a.orderKey < b.orderKey := by
  have hpath : a.breach.typePath = b.breach.typePath →
      Text.bytes a.typePath = Text.bytes b.typePath := congrArg Text.bytes
  simp only [orderKey, Prod.Lex.toLex_lt_toLex]
  rcases h with hlt | ⟨hsame, hstep | ⟨hstep, hname | hturn⟩⟩
  · exact .inl (Text.lt_iff_bytes_lt.1 hlt)
  · exact .inr ⟨hpath hsame, .inl hstep⟩
  · refine .inr ⟨hpath hsame, .inr ⟨hstep, .inl ?_⟩⟩
    obtain ⟨name, hname, other, hother, hlt⟩ := hname
    have hname : a.member = some name := hname
    have hother : b.member = some other := hother
    rw [hname, hother, Option.map_some, Option.map_some, Option.some_lt_some]
    exact Text.lt_iff_bytes_lt.1 hlt
  · obtain ⟨hmember, hnumber, hname⟩ := hturn
    have hfirst : a.kind.turn = 0 := FindingKind.turn_of_ne hnumber
    have hsecond : b.kind.turn = 1 := congrArg FindingKind.turn hname
    refine .inr ⟨hpath hsame, .inr ⟨hstep, .inr ⟨congrArg (Option.map Text.bytes) hmember, ?_⟩⟩⟩
    rw [hfirst, hsecond]
    exact Nat.zero_lt_one

/-- Breaches of which one precedes the other differ in path, member or kind. -/
theorem Breach.Precedes.ne {a b : Breach} (h : a.Precedes b) :
    (a.typePath, a.member, a.kind) ≠ (b.typePath, b.member, b.kind) := by
  intro hsame
  simp only [Prod.mk.injEq] at hsame
  obtain ⟨hpath, hmember, hkind⟩ := hsame
  refine h.asymm ?_
  simpa only [Breach.Precedes, hpath, hmember, hkind] using h

/-- The findings are in strictly increasing order of their keys. No two are of one kind and about
one member of one type. Each is an error at a type of the baseline, in the file that declares this
type. -/
theorem findings_ordered (old new : TypeIndex) :
    ((findings old new).map Finding.orderKey).Pairwise (· < ·) ∧
    ((findings old new).map fun finding =>
      (finding.typePath, finding.member, finding.kind)).Nodup ∧
    ∀ finding ∈ findings old new, finding.severity = .error ∧
      ∃ entry, old.find? finding.typePath = some entry ∧ finding.file = some entry.file ∧
        ∀ baseline, TypeIndex.build baseline = .ok old →
          ∃ position, baseline.Declares position
            ⟨finding.typePath, entry.definition, entry.file⟩ := by
  have hordered := List.pairwise_map.1 (pairwise_breaches_findings old new)
  refine ⟨List.pairwise_map.2 (hordered.imp Finding.orderKey_lt),
    List.pairwise_map.2 (hordered.imp fun h => h.ne), ?_⟩
  intro finding hfinding
  refine ⟨severity_of_mem_findings hfinding, ?_⟩
  obtain ⟨path, entry, bare, hentry, hbare, rfl⟩ := mem_findings_iff.1 hfinding
  have hpath : bare.typePath = path := (pairwise_breaches_compareTypes path entry.definition _).2 _
    (List.mem_map_of_mem hbare)
  subst hpath
  refine ⟨entry, hentry, rfl, fun baseline hbuild => ?_⟩
  rw [← baseline.declarations_inOrder.mem_iff]
  exact (TypeIndex.find?_iff_of_build hbuild).1 hentry

/-- A message with a reserved tag and a reserved name, and an enum. -/
def pantryBefore : SchemaTree :=
  ⟨[{ path := "pantry.proto", package := ["home"]
      messages :=
        [{ name := "Shelf"
           fields := [⟨"label", 2, "string", false, none⟩, ⟨"id", 1, "string", false, none⟩]
           reserved := ⟨[⟨5, 5⟩], ["owner"]⟩ }]
      enums := [{ name := "Kind" }] }]⟩

/-- The schema without the enum and a field, and with the tag and the name in use. -/
def pantryAfter : SchemaTree :=
  ⟨[{ path := "home.proto", package := ["home"]
      messages :=
        [{ name := "Shelf"
           fields := [⟨"owner", 5, "string", false, none⟩, ⟨"label", 5, "string", false, none⟩] }] }]⟩

/-- The enum comes first by its path, and then the steps of the message in turn. -/
theorem findings_ordered_pantry :
    ∃ old new, TypeIndex.build pantryBefore = .ok old ∧ TypeIndex.build pantryAfter = .ok new ∧
      (findings old new).map (·.kind) = [.removedType, .removedField, .tagConflict,
        .reservedTagReuse, .reservedNameReuse] ∧
      ((findings old new).map Finding.orderKey).Pairwise (· < ·) ∧
      ((findings old new).map fun finding =>
        (finding.typePath, finding.member, finding.kind)).Nodup ∧
      ∀ finding ∈ findings old new, finding.severity = .error ∧
        ∃ position definition file, finding.file = some file ∧
          pantryBefore.Declares position ⟨finding.typePath, definition, file⟩ := by
  refine ⟨_, _, rfl, rfl, rfl, (findings_ordered _ _).1, (findings_ordered _ _).2.1, ?_⟩
  intro finding hfinding
  obtain ⟨hseverity, entry, -, hfile, hdeclared⟩ := (findings_ordered _ _).2.2 finding hfinding
  obtain ⟨position, hposition⟩ := hdeclared pantryBefore rfl
  exact ⟨hseverity, position, _, _, hfile, hposition⟩

end SchemaGate

import SchemaGate.Proofs.Json.Scalars
import SchemaGate.Proofs.Report.Cells
import SchemaGate.Proofs.Text.Cutting

/-!
# The tables of a report in Markdown

The lines of a report that begin with a bar are those of its tables: one table for the blocking
findings and one for the advisories, each with a heading and a row for every finding. A row escapes
the bars of the message, but not those of the type and the member. The main statement is
`Report.tables_exact`.
-/

namespace SchemaGate.Report

/-- The lines of a text that belong to a table: those that begin with a bar. -/
def tableLines (text : List Char) : List (List Char) :=
  (Text.splitOn '\n' text).filter fun line => line.head? = some '|'

/-- The texts in the row of a finding: code, type, member and message. -/
def rowTexts (finding : Finding) : List (List Char) :=
  [("`" ++ finding.kind.code ++ "`").toList, ("`" ++ finding.typePath ++ "`").toList,
    (memberCell finding).toList, escapeBars finding.message.toList]

/-- The row of a finding without the line break behind it. -/
def rowLine (finding : Finding) : List Char :=
  row (rowTexts finding)

/-- The lines at the head of a table. -/
def heading : List String :=
  ["| Code | Type | Member | Message |", "|------|------|--------|---------|"]

/-- The lines of the table of some findings. There is no table without findings. -/
def table (findings : List Finding) : List (List Char) :=
  if findings = [] then []
  else heading.map String.toList ++ findings.flatMap fun finding => tableLines (rowLine finding)

/-- The texts of a finding that schemas have a part in hold no line break. -/
structure Unbroken (finding : Finding) : Prop where
  typePath : '\n' ∉ finding.typePath.toList
  member : ∀ member ∈ finding.member, '\n' ∉ member.toList
  message : '\n' ∉ finding.message.toList

section Lines

/-- Blocks of text, each with a line break behind it. -/
def unlines : List String → String
  | [] => ""
  | block :: blocks => block ++ "\n" ++ unlines blocks

/-- Blocks are written one after the other. -/
theorem unlines_append (blocks others : List String) :
    unlines (blocks ++ others) = unlines blocks ++ unlines others := by
  induction blocks with
  | nil => exact String.empty_append.symm
  | cons block blocks ih =>
      rw [List.cons_append, unlines, unlines, ih, ← String.append_assoc]

/-- The table lines before a line break and those behind it are the table lines of the text. -/
theorem tableLines_append (before after : List Char) :
    tableLines (before ++ '\n' :: after) = tableLines before ++ tableLines after := by
  rw [tableLines, Text.splitOn_append, List.filter_append]
  rfl

/-- The table lines of a text are those of its blocks. -/
theorem tableLines_unlines (blocks : List String) :
    tableLines (unlines blocks).toList =
      blocks.flatMap fun block => tableLines block.toList := by
  induction blocks with
  | nil => rfl
  | cons block blocks ih =>
      have hbreak : "\n".toList = ['\n'] := rfl
      rw [unlines, String.toList_append, String.toList_append, hbreak, List.append_assoc,
        List.singleton_append, tableLines_append, ih, List.flatMap_cons]

/-- A line that begins with a bar is one table line. -/
theorem tableLines_eq_singleton {line : List Char} (hbar : line.head? = some '|')
    (hbreak : '\n' ∉ line) : tableLines line = [line] := by
  rw [tableLines, Text.splitOn_eq_singleton hbreak]
  exact List.filter_cons_of_pos (decide_eq_true hbar)

/-- A line that does not begin with a bar. -/
def Plain (line : String) : Prop :=
  line.toList.head? ≠ some '|' ∧ '\n' ∉ line.toList

instance (line : String) : Decidable (Plain line) :=
  inferInstanceAs (Decidable (_ ∧ _))

/-- A line that does not begin with a bar is no table line. -/
theorem Plain.tableLines_eq_nil {line : String} (h : Plain line) : tableLines line.toList = [] := by
  rw [tableLines, Text.splitOn_eq_singleton h.2]
  exact List.filter_cons_of_neg (by simpa using h.1)

/-- Lines that do not begin with a bar hold no table lines. -/
theorem flatMap_tableLines_eq_nil {lines : List String} (h : ∀ line ∈ lines, Plain line) :
    lines.flatMap (fun line => tableLines line.toList) = [] :=
  List.flatMap_eq_nil_iff.2 fun line hline => (h line hline).tableLines_eq_nil

/-- A line stays one when a text without line breaks is put behind it. -/
theorem Plain.append {label value : String} (h : Plain label) (hsome : label.toList ≠ [])
    (hvalue : '\n' ∉ value.toList) : Plain (label ++ value) := by
  rw [Plain, String.toList_append, List.head?_append_of_ne_nil _ hsome, List.mem_append, not_or]
  exact ⟨h.1, h.2, hvalue⟩

/-- Nothing but digits and a sign stands in a written integer. -/
theorem not_mem_toString {c : Char} (hsign : c ≠ '-') (hdigit : c.isDigit = false) (value : Int) :
    c ∉ (toString value).toList := by
  have hnone : ∀ n : Nat, c ∉ Nat.toDigits 10 n := by
    intro n hmem
    rw [Nat.isDigit_of_mem_toDigits (by decide) (by decide) hmem] at hdigit
    cases hdigit
  cases value with
  | ofNat n =>
      rw [Json.toList_ofNat]
      exact hnone n
  | negSucc n =>
      rw [Json.toList_negSucc, List.mem_cons, not_or]
      exact ⟨hsign, hnone (n + 1)⟩

/-- A count is written without line breaks. -/
theorem not_mem_toString_nat (n : Nat) : '\n' ∉ (toString n).toList :=
  not_mem_toString (by decide) rfl (Int.ofNat n)

end Lines

section Document

/-- The lines of a report before its verdict, if its inputs are not known. -/
def opening (report : Report) : List String :=
  ["# Schema Compatibility Report", "", "**Version:** " ++ version, "",
    "**Timestamp:** " ++ report.timestamp, "", "## Summary", "",
    "- Types (baseline / candidate): " ++ toString report.baselineTypes ++ " / " ++
      toString report.candidateTypes,
    "- Breaking findings: " ++ toString report.verdict.findings.length,
    "- Advisories: " ++ toString report.verdict.advisories.length, ""]

/-- The blocks of the table of some findings, each row a block. -/
def tableBlocks (findings : List Finding) : List String :=
  heading ++ findings.map (fun finding => String.ofList (rowLine finding)) ++ [""]

/-- The blocks of the part of a report that tells the verdict. -/
def verdictBlocks (verdict : Verdict) : List String :=
  if verdict.compatible ∧ verdict.advisories = [] then
    ["✅ **Candidate is backward compatible.**"]
  else
    (if verdict.compatible then
        ["✅ **Candidate is backward compatible** (with advisories).", ""]
      else
        ["❌ **Candidate breaks backward compatibility.**", "", "## Breaking findings", ""] ++
          tableBlocks verdict.findings) ++
      if verdict.advisories = [] then []
      else ["## Advisories", ""] ++ tableBlocks verdict.advisories

/-- The row of a finding is one block. -/
theorem findingRow_eq (finding : Finding) :
    findingRow finding = String.ofList (rowLine finding) ++ "\n" := by
  refine String.toList_inj.1 ?_
  simp [findingRow, rowLine, rowTexts, row, cell]

/-- Texts joined without a separator follow one another. -/
theorem join_empty_cons (text : String) (texts : List String) :
    Text.join "" (text :: texts) = text ++ Text.join "" texts := by
  cases texts with
  | nil => exact String.append_empty.symm
  | cons next texts => rw [Text.join_cons_cons, String.append_empty]

/-- The rows of findings are blocks. -/
theorem join_findingRow (findings : List Finding) :
    Text.join "" (findings.map findingRow) =
      unlines (findings.map fun finding => String.ofList (rowLine finding)) := by
  induction findings with
  | nil => rfl
  | cons finding findings ih =>
      rw [List.map_cons, join_empty_cons, ih, findingRow_eq, List.map_cons, unlines]

/-- A table is written in its blocks. -/
theorem findingTable_eq (findings : List Finding) :
    findingTable findings = unlines (tableBlocks findings) := by
  unfold findingTable tableBlocks
  simp only [unlines_append, join_findingRow]
  refine congrArg₂ (· ++ ·) (congrArg (· ++ _) ?_) ?_
  · rfl
  · rfl

/-- The verdict is written in its blocks. -/
theorem verdictText_eq (verdict : Verdict) :
    verdictText verdict = unlines (verdictBlocks verdict) := by
  rw [verdictText, verdictBlocks]
  split
  · rfl
  · rw [unlines_append]
    congr 1
    · split
      · rfl
      · rw [unlines_append, findingTable_eq]
        rfl
    · split
      · rfl
      · rw [unlines_append, findingTable_eq]
        rfl

/-- A report on unknown inputs is written in its opening lines and the blocks of the verdict. -/
theorem markdown_eq {report : Report} (h : report.inputLines = "") :
    report.markdown = unlines (report.opening ++ verdictBlocks report.verdict) := by
  have htitle : "# Schema Compatibility Report\n\n" =
      "# Schema Compatibility Report" ++ "\n" ++ "" ++ "\n" := rfl
  have hsummary : "## Summary\n\n" = "## Summary" ++ "\n" ++ "" ++ "\n" := rfl
  have hgap : "\n\n" = "\n" ++ "" ++ "\n" := rfl
  unfold markdown
  simp only [unlines_append, ← verdictText_eq, h, opening, unlines, htitle, hsummary, hgap,
    String.append_assoc, String.empty_append, String.append_empty]

/-- No opening line belongs to a table, if the timestamp has no line break. -/
theorem plain_opening (report : Report) (h : '\n' ∉ report.timestamp.toList) :
    ∀ line ∈ report.opening, Plain line := by
  have hempty : Plain "" := by decide
  unfold opening
  simp only [List.forall_mem_cons]
  refine ⟨by decide, hempty, by decide, hempty, ?_, hempty, by decide, hempty, ?_, ?_, ?_, hempty,
    List.forall_mem_nil _⟩
  · exact Plain.append (by decide) (by decide) h
  · rw [String.append_assoc, String.append_assoc]
    refine Plain.append (by decide) (by decide) ?_
    simp only [String.toList_append, List.mem_append, not_or]
    exact ⟨not_mem_toString_nat _, by decide, not_mem_toString_nat _⟩
  · exact Plain.append (by decide) (by decide) (not_mem_toString_nat _)
  · exact Plain.append (by decide) (by decide) (not_mem_toString_nat _)

/-- The blocks of a table have its lines. -/
theorem tableLines_tableBlocks {findings : List Finding} (h : findings ≠ []) :
    (tableBlocks findings).flatMap (fun block => tableLines block.toList) = table findings := by
  have hheading : heading.flatMap (fun block => tableLines block.toList) =
      heading.map String.toList := rfl
  have hend : [""].flatMap (fun block => tableLines block.toList) = [] := rfl
  rw [tableBlocks, List.flatMap_append, List.flatMap_append, hheading, hend, List.append_nil,
    List.flatMap_map, table, if_neg h]
  simp only [String.toList_ofList]

/-- The table lines of the verdict are those of its two tables. -/
theorem tableLines_verdictBlocks (verdict : Verdict) :
    (verdictBlocks verdict).flatMap (fun block => tableLines block.toList) =
      table verdict.findings ++ table verdict.advisories := by
  rw [verdictBlocks]
  split
  · rename_i hboth
    rw [List.isEmpty_iff.1 hboth.1, hboth.2]
    exact flatMap_tableLines_eq_nil (by decide)
  · rw [List.flatMap_append]
    congr 1
    · split
      · rename_i hcompatible
        rw [List.isEmpty_iff.1 hcompatible]
        exact flatMap_tableLines_eq_nil (by decide)
      · rename_i hbreaking
        rw [List.flatMap_append, flatMap_tableLines_eq_nil (by decide), List.nil_append]
        exact tableLines_tableBlocks (mt List.isEmpty_iff.2 hbreaking)
    · split
      · rename_i hadvisories
        rw [hadvisories]
        rfl
      · rename_i hadvisories
        rw [List.flatMap_append, flatMap_tableLines_eq_nil (by decide), List.nil_append]
        exact tableLines_tableBlocks hadvisories

/-- The table lines of a report are those of its two tables. -/
theorem tableLines_markdown {timestamp : String} (h : '\n' ∉ timestamp.toList)
    (verdict : Verdict) :
    tableLines (markdown { timestamp, verdict }).toList =
      table verdict.findings ++ table verdict.advisories := by
  rw [markdown_eq rfl, tableLines_unlines, List.flatMap_append,
    flatMap_tableLines_eq_nil (plain_opening { timestamp, verdict } h), List.nil_append,
    tableLines_verdictBlocks]

end Document

section Rows

variable {finding : Finding}

/-- The cell of a member holds its name and an end without bars and line breaks, or is empty if
there is no member. -/
theorem exists_toList_memberCell (finding : Finding) :
    ∃ ending : List Char, '|' ∉ ending ∧ '\n' ∉ ending ∧
      (memberCell finding).toList =
        finding.member.elim [] fun member => member.toList ++ ending := by
  cases hmember : finding.member with
  | none => exact ⟨[], List.not_mem_nil, List.not_mem_nil, by rw [memberCell, hmember]; rfl⟩
  | some member =>
      cases hnumber : finding.number with
      | none =>
          refine ⟨[], List.not_mem_nil, List.not_mem_nil, ?_⟩
          rw [memberCell, hmember, hnumber]
          exact (List.append_nil _).symm
      | some number =>
          have hnot : ∀ c : Char, c ≠ '-' → c.isDigit = false → c ∉ " = ".toList →
              c ∉ (" = " ++ toString number).toList := by
            intro c hsign hdigit hequals
            rw [String.toList_append, List.mem_append, not_or]
            exact ⟨hequals, not_mem_toString hsign hdigit number⟩
          refine ⟨(" = " ++ toString number).toList, hnot '|' (by decide) rfl (by decide),
            hnot '\n' (by decide) rfl (by decide), ?_⟩
          rw [memberCell, hmember, hnumber, Option.elim_some, ← String.toList_append,
            ← String.append_assoc]

/-- The row of an unbroken finding is one table line. -/
theorem tableLines_rowLine (h : Unbroken finding) :
    tableLines (rowLine finding) = [rowLine finding] := by
  refine tableLines_eq_singleton rfl (not_mem_row (by decide) (by decide) ?_)
  simp only [rowTexts, List.forall_mem_cons]
  refine ⟨?_, ?_, ?_, ?_, List.forall_mem_nil _⟩
  · cases finding.kind <;> decide
  · simpa [String.toList_append] using h.typePath
  · obtain ⟨ending, -, hending, hcell⟩ := exists_toList_memberCell finding
    rw [hcell]
    cases hmember : finding.member with
    | none => exact List.not_mem_nil
    | some member =>
        rw [Option.elim_some, List.mem_append, not_or]
        exact ⟨h.member member hmember, hending⟩
  · exact fun hmem => h.message (mem_of_mem_escapeBars (by decide) hmem)

/-- A text between backquotes is one cell exactly when every bar in it is hidden. -/
theorem cells_quoted_iff {text : String} :
    cells ("`" ++ text ++ "`").toList = [("`" ++ text ++ "`").toList] ↔
      BarsHidden text.toList := by
  have hquote : "`".toList = ['`'] := rfl
  rw [String.toList_append, String.toList_append, hquote, List.append_assoc, List.singleton_append,
    cells_cons_eq_singleton_iff (by decide) (by decide), cells,
    cellsFrom_append_eq_singleton_iff (by decide)]
  exact cells_eq_singleton_iff

/-- A member stays in its cell exactly when every bar in its name is hidden. -/
theorem cells_memberCell_iff :
    cells (memberCell finding).toList = [(memberCell finding).toList] ↔
      ∀ member ∈ finding.member, BarsHidden member.toList := by
  obtain ⟨ending, hending, -, hcell⟩ := exists_toList_memberCell finding
  rw [hcell]
  cases hmember : finding.member with
  | none => exact iff_of_true rfl fun member hmem => nomatch hmem
  | some member =>
      rw [Option.elim_some, cells, cellsFrom_append_eq_singleton_iff hending]
      simp only [Option.mem_def, Option.some.injEq, forall_eq']
      exact cells_eq_singleton_iff

/-- The row of a finding has its four cells exactly when every bar in the type and the member is
hidden and none in the message is. -/
theorem cells_rowLine_iff :
    cells (rowLine finding) = [] :: (rowTexts finding).map cell ++ [[]] ↔
      BarsHidden finding.typePath.toList ∧ (∀ member ∈ finding.member, BarsHidden member.toList) ∧
        BarsBare finding.message.toList := by
  have hcode : BarsHidden finding.kind.code.toList := by
    refine cells_eq_singleton_iff.1 (cellsFrom_eq_singleton ?_)
    cases finding.kind <;> decide
  rw [rowLine, cells_row_iff]
  simp only [rowTexts, List.forall_mem_cons]
  rw [cells_quoted_iff, cells_quoted_iff, cells_memberCell_iff, cells_escapeBars_eq_singleton_iff,
    and_iff_right hcode, and_iff_left (List.forall_mem_nil _)]

/-- The table lines of a report are those of the tables of its blocking findings and of its
advisories, in this order. Each finding whose texts have no line break has one of them, which has
the four cells of the finding exactly when every bar in the type and the member has an odd number of
backslashes in front of it, and every bar in the message an even number. -/
theorem tables_exact {timestamp : String} (h : '\n' ∉ timestamp.toList) (verdict : Verdict) :
    tableLines (markdown { timestamp, verdict }).toList =
        table verdict.findings ++ table verdict.advisories ∧
      ∀ finding ∈ verdict.all, Unbroken finding →
        tableLines (rowLine finding) = [rowLine finding] ∧
        (cells (rowLine finding) = [] :: (rowTexts finding).map cell ++ [[]] ↔
          BarsHidden finding.typePath.toList ∧
            (∀ member ∈ finding.member, BarsHidden member.toList) ∧
            BarsBare finding.message.toList) :=
  ⟨tableLines_markdown h verdict, fun _ _ hunbroken =>
    ⟨tableLines_rowLine hunbroken, cells_rowLine_iff⟩⟩

end Rows

/-- A breach on a type whose name has a bar, with a member and a message without bars. -/
def barredFinding : Finding where
  kind := .removedField
  severity := .error
  typePath := "shop.A|B"
  member := some "size"
  number := some 1
  message := "Field 'size' was removed"

/-- The verdict with that breach. -/
def barredVerdict : Verdict where
  findings := [barredFinding]

/-- The texts of the breach have no line breaks. -/
theorem unbroken_barred : Unbroken barredFinding :=
  ⟨by decide, by decide, by decide⟩

/-- The table of the verdict is one row under the heading. -/
theorem table_barred :
    table barredVerdict.findings ++ table barredVerdict.advisories =
      heading.map String.toList ++ [rowLine barredFinding] := by
  have htable : table barredVerdict.findings =
      heading.map String.toList ++ (tableLines (rowLine barredFinding) ++ []) := rfl
  have hnone : table barredVerdict.advisories = [] := rfl
  rw [hnone, htable, tableLines_rowLine unbroken_barred, List.append_nil, List.append_nil]

/-- The bar in the type is not hidden. -/
theorem not_barsHidden_barred : ¬BarsHidden barredFinding.typePath.toList := by
  intro h
  exact absurd (h "shop.A".toList "B".toList rfl) (by decide)

/-- The report has one row for the breach, which does not have its four cells. -/
theorem tables_exact_barred :
    '\n' ∉ "T".toList ∧
      tableLines (markdown { timestamp := "T", verdict := barredVerdict }).toList =
        heading.map String.toList ++ [rowLine barredFinding] ∧
      cells (rowLine barredFinding) ≠ [] :: (rowTexts barredFinding).map cell ++ [[]] := by
  have htimestamp : '\n' ∉ "T".toList := by decide
  obtain ⟨htables, hrows⟩ := tables_exact htimestamp barredVerdict
  obtain ⟨-, hcells⟩ := hrows barredFinding (List.mem_singleton.2 rfl) unbroken_barred
  exact ⟨htimestamp, htables.trans table_barred, fun hfour =>
    not_barsHidden_barred (hcells.1 hfour).1⟩

/-- Not every finding without line breaks has a row with its four cells. -/
theorem row_without_four_cells :
    ¬∀ (timestamp : String) (verdict : Verdict), ∀ finding ∈ verdict.all, Unbroken finding →
      ∃ line ∈ tableLines (markdown { timestamp, verdict }).toList,
        cells line = [] :: (rowTexts finding).map cell ++ [[]] := by
  intro hall
  obtain ⟨line, hline, hcells⟩ :=
    hall "T" barredVerdict barredFinding (List.mem_singleton.2 rfl) unbroken_barred
  rw [tableLines_markdown (by decide), table_barred, List.mem_append, List.mem_singleton] at hline
  rcases hline with hline | rfl
  · -- The lines at the head of the table have four cells as well, but not with the right code.
    have hcode : ∀ line ∈ heading.map String.toList,
        (cells line)[1]? ≠ (rowTexts barredFinding).head?.map cell := by
      decide
    refine hcode line hline ?_
    rw [hcells]
    rfl
  · exact not_barsHidden_barred (cells_rowLine_iff.1 hcells).1

end SchemaGate.Report

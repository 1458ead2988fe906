import Mathlib.Data.List.Basic
import SchemaGate.Analysis.Comparison

/-!
# What becomes of the members

The comparison sorts what becomes of the names by rank. The main statements are
`MemberMatch.sortByRank_eq`, which says that the sort lists the ranks one after the other and keeps
the order within each, and `compareMembers_eq`: the findings are those on the members that are gone,
then those on the members that are kept, then those on the new ones.
-/

namespace SchemaGate

/-- The finding on a member of the baseline that the candidate does not have, unless the candidate
reserves both its number and its name. -/
def removal? (terms : MemberTerms) (path : String) (new : MemberSet) (member : Member) :
    Option Finding :=
  let numberReserved := new.reserved.reservesNumber member.number
  let nameReserved := new.reserved.reservesName member.name
  if numberReserved && nameReserved then none
  else some (removal terms path member numberReserved nameReserved)

/-- A removed member gives a finding exactly when the candidate does not reserve both its number and
its name. -/
theorem removal?_eq_some_iff {terms : MemberTerms} {path : String} {new : MemberSet}
    {member : Member} {finding : Finding} :
    removal? terms path new member = some finding ↔
      ¬(new.reserved.reservesNumber member.number = true ∧
          new.reserved.reservesName member.name = true) ∧
        removal terms path member (new.reserved.reservesNumber member.number)
          (new.reserved.reservesName member.name) = finding := by
  simp [removal?]

/-- The findings on members that only the baseline has. -/
def removedFindings (terms : MemberTerms) (path : String) (old new : MemberSet) : List Finding :=
  old.byName.values.filterMap fun member =>
    if new.byName.contains member.name then none else removal? terms path new member

/-- The findings on members that both versions have. -/
def keptFindings (terms : MemberTerms) (path : String) (old new : MemberSet) : List Finding :=
  old.byName.values.filterMap fun before =>
    (new.byName.find? before.name).bind fun after => conflict? terms path old new before after

/-- The findings on members that only the candidate has. -/
def addedFindings (terms : MemberTerms) (path : String) (old new : MemberSet) : List Finding :=
  new.byName.values.flatMap fun member =>
    if old.byName.contains member.name then []
    else
      (numberReuse? terms path old new member).toList ++
        (nameReuse? terms path old new member).toList

namespace MemberMatch

/-- The matches of one rank, in the order in which they come. -/
def ofRank (rank : Nat) (items : List MemberMatch) : List MemberMatch :=
  items.filter fun item => item.rank = rank

section Sorting

variable {item : MemberMatch} {front back items : List MemberMatch} {rank : Nat}

/-- A match is put behind all of lower rank. -/
theorem insert_append (h : ∀ other ∈ front, other.rank < item.rank) :
    insert item (front ++ back) = front ++ insert item back := by
  induction front with
  | nil => rfl
  | cons other front ih =>
      obtain ⟨hother, hfront⟩ := List.forall_mem_cons.1 h
      rw [List.cons_append, insert, if_neg (Nat.not_le.2 hother), ih hfront, List.cons_append]

/-- A match is put in front of all of no lower rank. -/
theorem insert_eq_cons (h : ∀ other ∈ back, item.rank ≤ other.rank) :
    insert item back = item :: back := by
  cases back with
  | nil => rfl
  | cons other back => rw [insert, if_pos (h other List.mem_cons_self)]

/-- The matches of a rank have this rank. -/
theorem rank_of_mem_ofRank (h : item ∈ ofRank rank items) : item.rank = rank := by
  simpa using (List.mem_filter.1 h).2

/-- A match is one of those of its rank. -/
theorem ofRank_cons_of_eq (h : item.rank = rank) :
    ofRank rank (item :: items) = item :: ofRank rank items :=
  List.filter_cons_of_pos (decide_eq_true h)

/-- A match is none of those of another rank. -/
theorem ofRank_cons_of_ne (h : item.rank ≠ rank) :
    ofRank rank (item :: items) = ofRank rank items :=
  List.filter_cons_of_neg (by simpa using h)

/-- The matches of a rank in a list of two parts are those of the first part and those of the
second. -/
theorem ofRank_append : ofRank rank (front ++ back) = ofRank rank front ++ ofRank rank back :=
  List.filter_append front back

/-- Sorting lists the matches rank by rank and keeps the order within a rank. -/
theorem sortByRank_eq (items : List MemberMatch) :
    sortByRank items = ofRank 0 items ++ (ofRank 1 items ++ ofRank 2 items) := by
  induction items with
  | nil => rfl
  | cons item items ih =>
      have hinsert : sortByRank (item :: items) = insert item (sortByRank items) := rfl
      rw [hinsert, ih]
      have hbelow : ∀ {lower}, lower < item.rank →
          ∀ other ∈ ofRank lower items, other.rank < item.rank :=
        fun hlt other hother => lt_of_eq_of_lt (rank_of_mem_ofRank hother) hlt
      have habove : ∀ {upper}, item.rank ≤ upper →
          ∀ other ∈ ofRank upper items, item.rank ≤ other.rank :=
        fun hle other hother => le_of_le_of_eq hle (rank_of_mem_ofRank hother).symm
      have hrank : item.rank = 0 ∨ item.rank = 1 ∨ item.rank = 2 := by
        cases item <;> simp [MemberMatch.rank]
      -- The match goes behind the lower ranks and in front of its own.
      obtain hrank | hrank | hrank := hrank
      · rw [ofRank_cons_of_eq hrank, ofRank_cons_of_ne (by omega), ofRank_cons_of_ne (by omega)]
        exact insert_eq_cons fun other _ => by omega
      · rw [ofRank_cons_of_ne (by omega), ofRank_cons_of_eq hrank, ofRank_cons_of_ne (by omega),
          insert_append (hbelow (by omega)), insert_eq_cons, List.cons_append]
        intro other hother
        obtain hother | hother := List.mem_append.1 hother
        · exact habove (by omega) other hother
        · exact habove (by omega) other hother
      · rw [ofRank_cons_of_ne (by omega), ofRank_cons_of_ne (by omega), ofRank_cons_of_eq hrank,
          insert_append (hbelow (by omega)), insert_append (hbelow (by omega)),
          insert_eq_cons (habove (by omega))]

end Sorting

section Findings

variable {terms : MemberTerms} {path : String} {old new : MemberSet}

/-- What filtered items report is what all items report if the others report nothing. -/
theorem flatMap_filter {α β : Type} (keeps : α → Bool) (report : α → List β) (items : List α) :
    (items.filter keeps).flatMap report =
      items.flatMap fun item => if keeps item then report item else [] := by
  induction items with
  | nil => rfl
  | cons item items ih =>
      rw [List.flatMap_cons, ← ih]
      by_cases hkeeps : keeps item = true
      · rw [List.filter_cons_of_pos hkeeps, if_pos hkeeps, List.flatMap_cons]
      · rw [List.filter_cons_of_neg hkeeps, if_neg hkeeps, List.nil_append]

/-- What the matches of a rank report, where the matches are those of members. -/
theorem flatMap_ofRank_map {β : Type} (rank : Nat) (toMatch : Member → MemberMatch)
    (report : MemberMatch → List β) (members : List Member) :
    (ofRank rank (members.map toMatch)).flatMap report =
      members.flatMap fun member =>
        if (toMatch member).rank = rank then report (toMatch member) else [] := by
  rw [ofRank, flatMap_filter, List.flatMap_map]
  simp only [decide_eq_true_eq]

/-- Only the last rank has new members. -/
theorem ofRank_map_added {rank : Nat} (h : 2 ≠ rank) (members : List Member) :
    ofRank rank (members.map added) = [] := by
  rw [ofRank, List.filter_eq_nil_iff]
  intro item hitem hrank
  obtain ⟨member, -, rfl⟩ := List.mem_map.1 hitem
  exact h (of_decide_eq_true hrank)

/-- A member of the baseline is never of the last rank. -/
theorem ofRank_map_ofOld (members : List Member) : ofRank 2 (members.map (ofOld new)) = [] := by
  rw [ofRank, List.filter_eq_nil_iff]
  intro item hitem
  obtain ⟨member, -, rfl⟩ := List.mem_map.1 hitem
  unfold ofOld
  cases new.byName.find? member.name with
  | some after => simp [MemberMatch.rank]
  | none => dsimp only; split <;> simp [MemberMatch.rank]

/-- The first rank reports the members that only the baseline has. -/
theorem flatMap_ofRank_zero :
    (ofRank 0 (all old new)).flatMap (·.findings terms path old new) =
      removedFindings terms path old new := by
  rw [all, ofRank_append, ofRank_map_added (by omega), List.append_nil, flatMap_ofRank_map,
    removedFindings, List.filterMap_eq_flatMap_toList]
  refine List.flatMap_congr fun member _ => ?_
  unfold ofOld NameMap.contains removal?
  cases new.byName.find? member.name with
  | some after => rfl
  | none =>
      cases new.reserved.reservesNumber member.number <;>
        cases new.reserved.reservesName member.name <;> rfl

/-- The second rank reports the members that both versions have. -/
theorem flatMap_ofRank_one :
    (ofRank 1 (all old new)).flatMap (·.findings terms path old new) =
      keptFindings terms path old new := by
  rw [all, ofRank_append, ofRank_map_added (by omega), List.append_nil, flatMap_ofRank_map,
    keptFindings, List.filterMap_eq_flatMap_toList]
  refine List.flatMap_congr fun member _ => ?_
  unfold ofOld
  cases new.byName.find? member.name with
  | some after => rfl
  | none =>
      cases new.reserved.reservesNumber member.number <;>
        cases new.reserved.reservesName member.name <;> rfl

/-- The last rank reports the members that only the candidate has. -/
theorem flatMap_ofRank_two :
    (ofRank 2 (all old new)).flatMap (·.findings terms path old new) =
      addedFindings terms path old new := by
  rw [all, ofRank_append, ofRank_map_ofOld, List.nil_append, flatMap_ofRank_map, flatMap_filter,
    addedFindings]
  refine List.flatMap_congr fun member _ => ?_
  cases old.byName.contains member.name with
  | true => rfl
  | false => rfl

end Findings

end MemberMatch

/-- The findings on the members of a type are those on the members that are gone, then those on the
members that are kept, then those on the new ones. -/
theorem compareMembers_eq (terms : MemberTerms) (path : String) (old new : MemberSet) :
    compareMembers terms path old new =
      removedFindings terms path old new ++ keptFindings terms path old new ++
        addedFindings terms path old new := by
  rw [compareMembers, MemberMatch.sortByRank_eq, List.flatMap_append, List.flatMap_append,
    MemberMatch.flatMap_ofRank_zero, MemberMatch.flatMap_ofRank_one,
    MemberMatch.flatMap_ofRank_two, List.append_assoc]

end SchemaGate

import SchemaGate.Analysis.Member

/-!
# Comparing the members of two versions

Members are matched by name: a number may change between versions, a name may not. A member that is
gone must leave both its number and its name reserved. A member that is there must not use a number
that either version reserves or that another member uses, and a new member must not use a reserved
name. `compareMembers` says of each name what becomes of it, puts what is gone before what is kept
and what is kept before what is new, and lists the findings on each in this order.
-/

namespace SchemaGate

/-- The two versions that a check compares. -/
inductive Version where
  | baseline
  | candidate
  deriving DecidableEq, Repr

/-- The word for a version. -/
def Version.text : Version → String
  | baseline => "baseline"
  | candidate => "candidate"

/-- The version that reserves a number, with the range that holds it. The baseline is asked first.
-/
def reservedIn? (old new : Reservations) (number : Int) : Option (Version × ReservedRange) :=
  match old.rangeContaining? number with
  | some range => some (.baseline, range)
  | none => (new.rangeContaining? number).map fun range => (.candidate, range)

/-- The version that reserves a name. The baseline is asked first. -/
def nameReservedIn? (old new : Reservations) (name : String) : Option Version :=
  if old.reservesName name then some .baseline
  else if new.reservesName name then some .candidate
  else none

/-- Why a number may not be used: a version reserves it, or another member uses it. -/
inductive NumberClash where
  | reserved (version : Version) (range : ReservedRange)
  | inUse (holder : Member)
  deriving DecidableEq, Repr

/-- The clash of a member of the candidate with the reservations of both versions or with another
member of the candidate. -/
def numberClash? (old new : MemberSet) (member : Member) : Option NumberClash :=
  match reservedIn? old.reserved new.reserved member.number with
  | some (version, range) => some (.reserved version range)
  | none => (new.liveHolder? member.number member.name).map .inUse

/-- A clash in words; `verb` says how another member uses the number. -/
def NumberClash.text (terms : MemberTerms) (verb : String) (number : Int) : NumberClash → String
  | reserved version range =>
      terms.numberNoun ++ " " ++ toString number ++ " is reserved in the " ++ version.text ++
        " (reserved " ++ range.text ++ ")"
  | inUse holder =>
      terms.numberNoun ++ " " ++ toString number ++ " " ++ verb ++ " '" ++ holder.name ++ "'"

/-- The finding on a member of the baseline that the candidate does not have, given whether the
candidate reserves its number and its name. -/
def removal (terms : MemberTerms) (path : String) (member : Member)
    (numberReserved nameReserved : Bool) : Finding :=
  let missing :=
    if numberReserved then "its name is not reserved"
    else if nameReserved then "its " ++ terms.numberNoun ++ " is not reserved"
    else "neither its " ++ terms.numberNoun ++ " nor its name is reserved"
  Finding.aboutMember
    { kind := terms.removed
      typePath := path
      message := terms.nounTitle ++ " '" ++ member.name ++ "' (" ++ terms.numberNoun ++ " " ++
        toString member.number ++ ") was removed or renamed and " ++ missing }
    member.name member.number

/-- The finding on a member of both versions whose number in the candidate clashes. -/
def conflict? (terms : MemberTerms) (path : String) (old new : MemberSet) (before after : Member) :
    Option Finding :=
  (numberClash? old new after).map fun clash =>
    (Finding.aboutMember
      { kind := terms.conflict
        typePath := path
        message := terms.nounTitle ++ " '" ++ after.name ++ "': " ++
          clash.text terms "is also used by" after.number }
      after.name after.number).comparing (toString before.number) (toString after.number)

/-- The finding on a new member whose number clashes. -/
def numberReuse? (terms : MemberTerms) (path : String) (old new : MemberSet) (member : Member) :
    Option Finding :=
  (numberClash? old new member).map fun clash =>
    Finding.aboutMember
      { kind := terms.numberReuse
        typePath := path
        message := "New " ++ terms.noun ++ " '" ++ member.name ++ "': " ++
          clash.text terms "is already used by" member.number }
      member.name member.number

/-- The finding on a new member whose name a version reserves. -/
def nameReuse? (terms : MemberTerms) (path : String) (old new : MemberSet) (member : Member) :
    Option Finding :=
  (nameReservedIn? old.reserved new.reserved member.name).map fun version =>
    Finding.aboutMember
      { kind := .reservedNameReuse
        typePath := path
        message := "New " ++ terms.noun ++ " '" ++ member.name ++ "': name is reserved in the " ++
          version.text }
      member.name member.number

/-- What becomes of a name from the baseline to the candidate. -/
inductive MemberMatch where
  /-- The member is gone, and both its number and its name are reserved. -/
  | retired (old : Member)
  /-- The member is gone, and not both are reserved. -/
  | removed (old : Member) (numberReserved nameReserved : Bool)
  /-- Both versions have a member of the name. -/
  | retained (old new : Member)
  /-- The member is new. -/
  | added (new : Member)
  deriving DecidableEq, Repr

namespace MemberMatch

/-- What becomes of a member of the baseline. -/
def ofOld (new : MemberSet) (member : Member) : MemberMatch :=
  match new.byName.find? member.name with
  | some after => retained member after
  | none =>
      let numberReserved := new.reserved.reservesNumber member.number
      let nameReserved := new.reserved.reservesName member.name
      if numberReserved && nameReserved then retired member
      else removed member numberReserved nameReserved

/-- What becomes of all names: first those of the baseline, then those that only the candidate has,
both in order of name. -/
def all (old new : MemberSet) : List MemberMatch :=
  old.byName.values.map (ofOld new) ++
    (new.byName.values.filter fun member => !old.byName.contains member.name).map added

/-- Members that are gone come first, then those that are kept, then new ones. -/
def rank : MemberMatch → Nat
  | retired _ | removed .. => 0
  | retained .. => 1
  | added _ => 2

/-- Puts a match in front of the first one whose rank is not lower. -/
def insert (item : MemberMatch) : List MemberMatch → List MemberMatch
  | [] => [item]
  | other :: others =>
      if item.rank ≤ other.rank then item :: other :: others else other :: insert item others

/-- Matches in order of rank. Those of one rank stay in the order in which they come. -/
def sortByRank (items : List MemberMatch) : List MemberMatch :=
  items.foldr insert []

/-- The findings on a match. -/
def findings (terms : MemberTerms) (path : String) (old new : MemberSet) :
    MemberMatch → List Finding
  | retired _ => []
  | removed member numberReserved nameReserved =>
      [removal terms path member numberReserved nameReserved]
  | retained before after => (conflict? terms path old new before after).toList
  | added member =>
      (numberReuse? terms path old new member).toList ++
        (nameReuse? terms path old new member).toList

end MemberMatch

/-- All findings on the members of a type. -/
def compareMembers (terms : MemberTerms) (path : String) (old new : MemberSet) : List Finding :=
  (MemberMatch.sortByRank (MemberMatch.all old new)).flatMap (·.findings terms path old new)

end SchemaGate

import SchemaGate.Proofs.Json.Scalars

/-!
# A written value is read back

`Value.document` is the document of a value. What is written for a value without doubles and with
integers of 64 bits is read as this document, whatever follows it, and with any fuel that is not
less than the length of its text: `Document.readValue_chars`. The main statement is
`Document.read_chars`, which says so of a text that is one value.
-/

namespace SchemaGate.Json

namespace Value

mutual

/-- The document of a value. -/
def document : Value → Document
  | null => .null
  | bool value => .bool value
  | int value => .num (.integer value)
  | float _ => .num .floating
  | str text => .str (some text)
  | arr items => .arr (documents items) true
  | obj members => .obj (memberDocuments members) true

/-- The documents of several values. -/
def documents : List Value → List Document
  | [] => []
  | item :: items => item.document :: documents items

/-- The documents of the values of several members, with the keys. -/
def memberDocuments : List (String × Value) → List (Option String × Document)
  | [] => []
  | (key, value) :: members => (some key, value.document) :: memberDocuments members

end

/-- Values have their documents one by one. -/
theorem documents_eq_map (items : List Value) : documents items = items.map document := by
  induction items with
  | nil => rfl
  | cons item items ih => rw [documents, ih, List.map_cons]

mutual

/-- A value without doubles whose integers have 64 bits. -/
def Exact : Value → Prop
  | null | bool _ | str _ => True
  | int value => -0x8000000000000000 ≤ value ∧ value < 0x10000000000000000
  | float _ => False
  | arr items => AllExact items
  | obj members => MembersExact members

/-- Several values without doubles whose integers have 64 bits. -/
def AllExact : List Value → Prop
  | [] => True
  | item :: items => item.Exact ∧ AllExact items

/-- Members whose values have no doubles and only integers of 64 bits. -/
def MembersExact : List (String × Value) → Prop
  | [] => True
  | (_, value) :: members => value.Exact ∧ MembersExact members

end

/-- A written value begins neither with a blank nor with a closing bracket. -/
theorem chars_eq_cons {value : Value} (h : value.Exact) (level : Nat) :
    ∃ c tail, value.chars level = c :: tail ∧ isSpace c = false ∧ c ≠ ']' := by
  cases value with
  | null => exact ⟨_, _, rfl, rfl, by decide⟩
  | bool value => cases value <;> exact ⟨_, _, rfl, rfl, by decide⟩
  | int value =>
      obtain ⟨c, tail, htext, hc⟩ := toString_eq_cons value
      exact ⟨c, tail, htext, hc.isSpace_eq_false, hc.ne (by decide)⟩
  | float bits => exact absurd h id
  | str text => exact ⟨_, _, rfl, rfl, by decide⟩
  | arr items => cases items <;> exact ⟨_, _, rfl, rfl, by decide⟩
  | obj members => cases members <;> exact ⟨_, _, rfl, rfl, by decide⟩

section Texts

variable (level : Nat) (rest : List Char)

/-- The items of an array after the first, with what follows them. -/
theorem charsItems_cons_append (item : Value) (items : List Value) :
    charsItems level (item :: items) ++ rest =
      ',' :: (newline level ++ (item.chars level ++ (charsItems level items ++ rest))) := by
  show ',' :: newline level ++ item.chars level ++ charsItems level items ++ rest = _
  simp only [List.cons_append, List.append_assoc]

/-- The members of an object after the first, with what follows them. -/
theorem charsMembers_cons_append (key : String) (value : Value)
    (members : List (String × Value)) :
    charsMembers level ((key, value) :: members) ++ rest =
      ',' :: (newline level ++ (stringText key ++ ([':', ' '] ++ (value.chars level ++
        (charsMembers level members ++ rest))))) := by
  show ',' :: newline level ++ stringText key ++ [':', ' '] ++ value.chars level ++
    charsMembers level members ++ rest = _
  simp only [List.cons_append, List.append_assoc]

/-- An array that is not empty, with what follows it. -/
theorem chars_arr_cons_append (item : Value) (items : List Value) :
    chars level (.arr (item :: items)) ++ rest =
      '[' :: (newline (level + 1) ++ (item.chars (level + 1) ++
        (charsItems (level + 1) items ++ (newline level ++ ']' :: rest)))) := by
  show '[' :: newline (level + 1) ++ item.chars (level + 1) ++
    charsItems (level + 1) items ++ newline level ++ [']'] ++ rest = _
  simp only [List.cons_append, List.nil_append, List.append_assoc]

/-- An object that is not empty, with what follows it. -/
theorem chars_obj_cons_append (key : String) (value : Value) (members : List (String × Value)) :
    chars level (.obj ((key, value) :: members)) ++ rest =
      '\x7b' :: (newline (level + 1) ++ (stringText key ++ ([':', ' '] ++
        (value.chars (level + 1) ++ (charsMembers (level + 1) members ++
          (newline level ++ '\x7d' :: rest)))))) := by
  show '\x7b' :: newline (level + 1) ++ stringText key ++ [':', ' '] ++ value.chars (level + 1) ++
    charsMembers (level + 1) members ++ newline level ++ ['\x7d'] ++ rest = _
  simp only [List.cons_append, List.nil_append, List.append_assoc]

end Texts

end Value

section Blanks

/-- A line break and an indentation are skipped. -/
theorem skipSpace_newline (level : Nat) (text : List Char) :
    skipSpace (newline level ++ text) = skipSpace text := by
  have hblank : ∀ c ∈ newline level, isSpace c = true := by
    intro c hc
    rcases List.mem_cons.1 hc with rfl | hindent
    · rfl
    · rw [List.eq_of_mem_replicate hindent]
      rfl
  rw [skipSpace, List.dropWhile_append_of_pos hblank, skipSpace]

/-- A text that begins with no blank is left alone. -/
theorem skipSpace_cons {c : Char} (h : isSpace c = false) (text : List Char) :
    skipSpace (c :: text) = c :: text :=
  List.dropWhile_cons_of_neg (by simp [h])

/-- Blanks are skipped at once. -/
theorem skipSpace_skipSpace (text : List Char) : skipSpace (skipSpace text) = skipSpace text := by
  have hhead := List.head?_dropWhile_not isSpace text
  cases htext : skipSpace text with
  | nil => rfl
  | cons c tail =>
      rw [← skipSpace, htext] at hhead
      exact skipSpace_cons (by simpa using hhead) tail

end Blanks

namespace Document

/-- Blanks before a value do not matter. -/
theorem readValue_congr {text other : List Char} (h : skipSpace text = skipSpace other)
    (fuel : Nat) : readValue fuel text = readValue fuel other := by
  cases fuel with
  | zero => rfl
  | succ fuel => rw [readValue, readValue, h]

/-- Blanks before the items of an array do not matter. -/
theorem readItems_congr {text other : List Char} (h : skipSpace text = skipSpace other)
    (fuel : Nat) : readItems fuel text = readItems fuel other := by
  cases fuel with
  | zero => rfl
  | succ fuel => rw [readItems, readItems, readValue_congr h]

/-- Blanks before the members of an object do not matter. -/
theorem readMembers_congr {text other : List Char} (h : skipSpace text = skipSpace other)
    (fuel : Nat) : readMembers fuel text = readMembers fuel other := by
  cases fuel with
  | zero => rfl
  | succ fuel => rw [readMembers, readMembers, h]

/-- A text that begins with no blank, bracket or brace is read as a word, a string or a number. -/
theorem readValue_scalar {c : Char} (hspace : isSpace c = false) (harray : c ≠ '[')
    (hobject : c ≠ '\x7b') (fuel : Nat) (tail : List Char) :
    readValue (fuel + 1) (c :: tail) = readScalar (c :: tail) := by
  rw [readValue, skipSpace_cons hspace]
  split
  · rename_i heq
    exact absurd (List.cons.inj heq).1 harray
  · rename_i heq
    exact absurd (List.cons.inj heq).1 hobject
  · rfl

/-- An array that is not empty is read item by item. -/
theorem readValue_items {text : List Char} {c : Char} {tail : List Char}
    (htext : skipSpace text = c :: tail) (hclosing : c ≠ ']') (fuel : Nat) :
    readValue (fuel + 1) ('[' :: text) =
      (.arr (readItems fuel text).1 (readItems fuel text).2.isSome, (readItems fuel text).2) := by
  have hsame : skipSpace (c :: tail) = skipSpace text := by
    rw [← htext, skipSpace_skipSpace]
  rw [readValue, skipSpace_cons (by decide), ← readItems_congr hsame]
  simp only [htext]
  split
  · rename_i heq
    exact absurd (List.cons.inj heq).1 hclosing
  · rfl

/-- An object that is not empty is read member by member. -/
theorem readValue_members {text tail : List Char} (htext : skipSpace text = '\"' :: tail)
    (fuel : Nat) :
    readValue (fuel + 1) ('\x7b' :: text) =
      (.obj (readMembers fuel text).1 (readMembers fuel text).2.isSome,
        (readMembers fuel text).2) := by
  have hsame : skipSpace ('\"' :: tail) = skipSpace text := by
    rw [← htext, skipSpace_skipSpace]
  rw [readValue, skipSpace_cons (by decide), ← readMembers_congr hsame]
  simp only [htext]
  rfl

section Sequences

variable {text rest : List Char} {fuel : Nat}

/-- An item before the closing bracket is the last one. -/
theorem readItems_last {item : Document} {after : List Char}
    (hitem : readValue fuel text = (item, some rest)) (hrest : skipSpace rest = ']' :: after) :
    readItems (fuel + 1) text = ([item], some after) := by
  rw [readItems, hitem]
  simp only [hrest]

/-- After an item and a comma come the other items. -/
theorem readItems_comma {item : Document} {after : List Char}
    (hitem : readValue fuel text = (item, some (',' :: after))) :
    readItems (fuel + 1) text =
      (item :: (readItems fuel after).1, (readItems fuel after).2) := by
  rw [readItems, hitem]
  rfl

/-- A key and what stands between it and its value, with what follows them. -/
theorem stringText_append (key : String) (text : List Char) :
    stringText key ++ ([':', ' '] ++ text) =
      '\"' :: (escape key.toList ++ '\"' :: ':' :: ' ' :: text) := by
  rw [stringText, List.append_assoc]
  rfl

/-- A key is read back. -/
theorem readString?_key (key : String) (text : List Char) :
    readString? (escape key.toList ++ '\"' :: text) = some (some key, text) := by
  rw [readString?_escape, String.ofList_toList]

/-- A blank before a value does not matter. -/
theorem readValue_blank (text : List Char) (fuel : Nat) :
    readValue fuel (' ' :: text) = readValue fuel text :=
  readValue_congr (List.dropWhile_cons_of_pos rfl) fuel

variable {value : Document} {after : List Char} (key : String)

/-- A member before the closing brace is the last one. -/
theorem readMembers_last (hvalue : readValue fuel text = (value, some rest))
    (hrest : skipSpace rest = '\x7d' :: after) :
    readMembers (fuel + 1) (stringText key ++ ([':', ' '] ++ text)) =
      ([(some key, value)], some after) := by
  rw [stringText_append, readMembers, skipSpace_cons (by decide)]
  simp only [readString?_key, skipSpace_cons (show isSpace ':' = false by decide),
    readValue_blank, hvalue, hrest]

/-- After a member and a comma come the other members. -/
theorem readMembers_comma (hvalue : readValue fuel text = (value, some (',' :: after))) :
    readMembers (fuel + 1) (stringText key ++ ([':', ' '] ++ text)) =
      ((some key, value) :: (readMembers fuel after).1, (readMembers fuel after).2) := by
  rw [stringText_append, readMembers, skipSpace_cons (by decide)]
  simp only [readString?_key, skipSpace_cons (show isSpace ':' = false by decide),
    readValue_blank, hvalue, skipSpace_cons (show isSpace ',' = false by decide)]

end Sequences

/-- What is written for a value is read as its document, whatever follows it. -/
def ReadsBack (value : Value) : Prop :=
  ∀ (level fuel : Nat) (rest : List Char), (value.chars level).length ≤ fuel → EndsNumber rest →
    readValue fuel (value.chars level ++ rest) = (value.document, some rest)

/-- The text after an item, up to the end of the array, does not belong to a number. -/
theorem endsNumber_charsItems (items : List Value) (level outer : Nat) (rest : List Char) :
    EndsNumber (Value.charsItems level items ++ (newline outer ++ ']' :: rest)) := by
  cases items with
  | nil => exact endsNumber_cons (by decide)
  | cons item items => exact endsNumber_cons (by decide)

/-- The text after a member, up to the end of the object, does not belong to a number. -/
theorem endsNumber_charsMembers (members : List (String × Value)) (level outer : Nat)
    (rest : List Char) :
    EndsNumber (Value.charsMembers level members ++ (newline outer ++ '\x7d' :: rest)) := by
  cases members with
  | nil => exact endsNumber_cons (by decide)
  | cons member members => exact endsNumber_cons (by decide)

/-- The written items of an array are read up to the bracket. -/
theorem readItems_chars {item : Value} {items : List Value}
    (h : ∀ value ∈ item :: items, ReadsBack value) {level fuel : Nat} (outer : Nat)
    (rest : List Char)
    (hfuel : (item.chars level).length + (Value.charsItems level items).length < fuel) :
    readItems fuel (item.chars level ++
      (Value.charsItems level items ++ (newline outer ++ ']' :: rest))) =
        (Value.documents (item :: items), some rest) := by
  induction items generalizing item fuel with
  | nil =>
      obtain ⟨fuel, rfl⟩ : ∃ n, fuel = n + 1 := ⟨fuel - 1, by omega⟩
      have hclosing : skipSpace (newline outer ++ ']' :: rest) = ']' :: rest := by
        rw [skipSpace_newline, skipSpace_cons (by decide)]
      have hitem := h item List.mem_cons_self level fuel _ (by omega)
        (endsNumber_charsItems [] level outer rest)
      exact readItems_last hitem hclosing
  | cons next items ih =>
      obtain ⟨fuel, rfl⟩ : ∃ n, fuel = n + 1 := ⟨fuel - 1, by omega⟩
      have hlength := congrArg List.length (Value.charsItems_cons_append level [] next items)
      simp only [List.append_nil, List.length_cons, List.length_append] at hlength
      have hitem := h item List.mem_cons_self level fuel _ (by omega)
        (endsNumber_charsItems (next :: items) level outer rest)
      have hothers := ih (fun value hvalue => h value (List.mem_cons_of_mem _ hvalue))
        (show (next.chars level).length + (Value.charsItems level items).length < fuel by omega)
      rw [Value.charsItems_cons_append] at hitem ⊢
      rw [readItems_comma hitem, readItems_congr (skipSpace_newline level _), hothers]
      rfl

/-- The written members of an object are read up to the brace. -/
theorem readMembers_chars {key : String} {value : Value} {members : List (String × Value)}
    (h : ∀ member ∈ (key, value) :: members, ReadsBack member.2) {level fuel : Nat} (outer : Nat)
    (rest : List Char)
    (hfuel : (value.chars level).length + (Value.charsMembers level members).length < fuel) :
    readMembers fuel (stringText key ++ ([':', ' '] ++ (value.chars level ++
      (Value.charsMembers level members ++ (newline outer ++ '\x7d' :: rest))))) =
        (Value.memberDocuments ((key, value) :: members), some rest) := by
  induction members generalizing key value fuel with
  | nil =>
      obtain ⟨fuel, rfl⟩ : ∃ n, fuel = n + 1 := ⟨fuel - 1, by omega⟩
      have hclosing : skipSpace (newline outer ++ '\x7d' :: rest) = '\x7d' :: rest := by
        rw [skipSpace_newline, skipSpace_cons (by decide)]
      have hback : ReadsBack value := h (key, value) List.mem_cons_self
      have hvalue := hback level fuel _ (by omega)
        (endsNumber_charsMembers [] level outer rest)
      exact readMembers_last key hvalue hclosing
  | cons next members ih =>
      obtain ⟨nextKey, next⟩ := next
      obtain ⟨fuel, rfl⟩ : ∃ n, fuel = n + 1 := ⟨fuel - 1, by omega⟩
      have hlength := congrArg List.length
        (Value.charsMembers_cons_append level [] nextKey next members)
      simp only [List.append_nil, List.length_cons, List.length_append] at hlength
      have hback : ReadsBack value := h (key, value) List.mem_cons_self
      have hvalue := hback level fuel _ (by omega)
        (endsNumber_charsMembers ((nextKey, next) :: members) level outer rest)
      have hothers := ih (fun member hmember => h member (List.mem_cons_of_mem _ hmember))
        (show (next.chars level).length + (Value.charsMembers level members).length < fuel by omega)
      rw [Value.charsMembers_cons_append] at hvalue ⊢
      rw [readMembers_comma key hvalue, readMembers_congr (skipSpace_newline level _), hothers]
      rfl

/-- A word that is no array and no object is read back if `readScalar` does so. -/
theorem readsBack_of_scalar {value : Value} {c : Char} {tail : List Char}
    (htext : ∀ level, value.chars level = c :: tail) (hspace : isSpace c = false)
    (harray : c ≠ '[') (hobject : c ≠ '\x7b')
    (hread : ∀ rest, EndsNumber rest →
      readScalar (c :: tail ++ rest) = (value.document, some rest)) : ReadsBack value := by
  intro level fuel rest hfuel hends
  rw [htext, List.length_cons] at hfuel
  obtain ⟨fuel, rfl⟩ : ∃ n, fuel = n + 1 := ⟨fuel - 1, by omega⟩
  rw [htext, List.cons_append, readValue_scalar hspace harray hobject]
  exact hread rest hends

/-- An integer of 64 bits is read back. -/
theorem readsBack_int {value : Int} (h : (Value.int value).Exact) : ReadsBack (.int value) := by
  obtain ⟨c, tail, htext, hc⟩ := toString_eq_cons value
  have hchars (level : Nat) : Value.chars level (.int value) = c :: tail := htext
  refine readsBack_of_scalar hchars hc.isSpace_eq_false (hc.ne (by decide))
    (hc.ne (by decide)) fun rest hends => ?_
  have hnumber := readNumber?_toString h.1 h.2 hends
  rw [htext] at hnumber
  rw [readScalar, hnumber]
  · rfl
  · exact fun _ heq => hc.ne (by decide) (List.cons.inj heq).1
  · exact fun _ heq => hc.ne (by decide) (List.cons.inj heq).1
  · exact fun _ heq => hc.ne (by decide) (List.cons.inj heq).1
  · exact fun _ heq => hc.ne (by decide) (List.cons.inj heq).1

/-- A string is read back. -/
theorem readsBack_str (text : String) : ReadsBack (.str text) := by
  refine readsBack_of_scalar (c := '\"') (fun _ => rfl) (by decide) (by decide) (by decide)
    fun rest _ => ?_
  show readScalar ('\"' :: (escape text.toList ++ ['\"'] ++ rest)) = _
  rw [List.append_assoc, List.singleton_append, readScalar, readString?_escape,
    String.ofList_toList]
  rfl

/-- An array is read back if its items are. -/
theorem readsBack_arr {items : List Value} (hexact : Value.AllExact items)
    (h : ∀ item ∈ items, ReadsBack item) : ReadsBack (.arr items) := by
  intro level fuel rest hfuel hends
  cases items with
  | nil =>
      obtain ⟨fuel, rfl⟩ : ∃ n, fuel = n + 1 := ⟨fuel - 1, by
        have : (Value.chars level (.arr [])).length = 2 := rfl
        omega⟩
      rfl
  | cons item items =>
      obtain ⟨c, tail, hfirst, hspace, hclosing⟩ := Value.chars_eq_cons hexact.1 (level + 1)
      have hlength := congrArg List.length (Value.chars_arr_cons_append level [] item items)
      simp only [List.append_nil, List.length_cons, List.length_append] at hlength
      obtain ⟨fuel, rfl⟩ : ∃ n, fuel = n + 1 := ⟨fuel - 1, by omega⟩
      have hitems := readItems_chars h level rest (show (item.chars (level + 1)).length +
        (Value.charsItems (level + 1) items).length < fuel by omega)
      have hbegins : skipSpace (newline (level + 1) ++ (item.chars (level + 1) ++
          (Value.charsItems (level + 1) items ++ (newline level ++ ']' :: rest)))) =
            c :: (tail ++
              (Value.charsItems (level + 1) items ++ (newline level ++ ']' :: rest))) := by
        rw [skipSpace_newline, hfirst, List.cons_append, skipSpace_cons hspace]
      rw [Value.chars_arr_cons_append, readValue_items hbegins hclosing,
        readItems_congr (skipSpace_newline _ _), hitems]
      rfl

/-- An object is read back if the values of its members are. -/
theorem readsBack_obj {members : List (String × Value)}
    (h : ∀ member ∈ members, ReadsBack member.2) : ReadsBack (.obj members) := by
  intro level fuel rest hfuel hends
  cases members with
  | nil =>
      obtain ⟨fuel, rfl⟩ : ∃ n, fuel = n + 1 := ⟨fuel - 1, by
        have : (Value.chars level (.obj [])).length = 2 := rfl
        omega⟩
      rfl
  | cons member members =>
      obtain ⟨key, value⟩ := member
      have hlength := congrArg List.length (Value.chars_obj_cons_append level [] key value members)
      simp only [List.append_nil, List.length_cons, List.length_append] at hlength
      obtain ⟨fuel, rfl⟩ : ∃ n, fuel = n + 1 := ⟨fuel - 1, by omega⟩
      have hmembers := readMembers_chars h level rest (show (value.chars (level + 1)).length +
        (Value.charsMembers (level + 1) members).length < fuel by omega)
      have hbegins := skipSpace_newline (level + 1) (stringText key ++ ([':', ' '] ++
            (value.chars (level + 1) ++ (Value.charsMembers (level + 1) members ++
              (newline level ++ '\x7d' :: rest)))))
      rw [Value.chars_obj_cons_append,
        readValue_members (hbegins.trans (skipSpace_cons (by decide) _)),
        readMembers_congr (skipSpace_newline _ _), hmembers]
      rfl

mutual

/-- A value without doubles whose integers have 64 bits is read back. -/
theorem readValue_chars : ∀ value : Value, value.Exact → ReadsBack value
  | .null, _ => readsBack_of_scalar (fun _ => rfl) (by decide) (by decide) (by decide)
      fun _ _ => rfl
  | .bool true, _ => readsBack_of_scalar (fun _ => rfl) (by decide) (by decide) (by decide)
      fun _ _ => rfl
  | .bool false, _ => readsBack_of_scalar (fun _ => rfl) (by decide) (by decide) (by decide)
      fun _ _ => rfl
  | .int _, h => readsBack_int h
  | .float _, h => absurd h id
  | .str text, _ => readsBack_str text
  | .arr items, h => readsBack_arr h (allReadBack items h)
  | .obj members, h => readsBack_obj (membersReadBack members h)

/-- Several values without doubles whose integers have 64 bits are read back. -/
theorem allReadBack : ∀ items : List Value, Value.AllExact items → ∀ item ∈ items, ReadsBack item
  | [], _, _, hmem => absurd hmem List.not_mem_nil
  | first :: items, h, item, hmem => by
      rcases List.mem_cons.1 hmem with heq | hmem
      · rw [heq]
        exact readValue_chars first h.1
      · exact allReadBack items h.2 item hmem

/-- The values of members without doubles whose integers have 64 bits are read back. -/
theorem membersReadBack : ∀ members : List (String × Value), Value.MembersExact members →
    ∀ member ∈ members, ReadsBack member.2
  | [], _, _, hmem => absurd hmem List.not_mem_nil
  | (key, value) :: members, h, member, hmem => by
      rcases List.mem_cons.1 hmem with heq | hmem
      · rw [heq]
        exact readValue_chars value h.1
      · exact membersReadBack members h.2 member hmem

end

/-- A text that is one written value is read as its document. -/
theorem read_chars {value : Value} (h : value.Exact) :
    read (value.chars 0) = (value.document, true) := by
  have hread := readValue_chars value h 0 (2 * (value.chars 0).length + 2) [] (by omega)
    (by intro c hc; cases hc)
  rw [List.append_nil] at hread
  rw [read, hread]
  rfl

end Document

end SchemaGate.Json

import Mathlib.Data.List.Forall2

/-!
# Reading lists

Steps that may fail are taken one after the other (`ok_bind`, `exists_of_bind_eq_ok`). A list is
read item by item, and reading stops at the first fault. The main statements are `mapM_map_eq_ok`,
for lists that have been written before, `forall₂_of_mapM_eq_ok`, which relates what has been
read to what it was read from, and `foldlM_eq_error_iff` and `faultOf?_mapM`, which say where a fold
and a reading stop.
-/

namespace SchemaGate

/-- If every item of a list is read as its image once it has been written, so is the list. -/
theorem mapM_map_eq_ok {α β γ ε : Type} {items : List α} {write : α → γ} {read : γ → Except ε β}
    {image : α → β} (h : ∀ item ∈ items, read (write item) = .ok (image item)) :
    (items.map write).mapM read = .ok (items.map image) := by
  induction items with
  | nil => rfl
  | cons item items ih =>
      have hitem := h item List.mem_cons_self
      have hitems := ih fun other hother => h other (List.mem_cons_of_mem _ hother)
      rw [List.map_cons, List.mapM_cons, hitem, hitems]
      rfl

/-- After a step that succeeds the next one goes on with its result. -/
theorem ok_bind {α β ε : Type} (value : α) (next : α → Except ε β) :
    (Except.ok value >>= next) = next value := rfl

/-- If two steps succeed one after the other, the first does and the second does with its result. -/
theorem exists_of_bind_eq_ok {α β ε : Type} {first : Except ε α} {next : α → Except ε β} {value : β}
    (h : first >>= next = .ok value) : ∃ result, first = .ok result ∧ next result = .ok value := by
  cases first with
  | error fault => cases h
  | ok result => exact ⟨result, rfl, h⟩

/-- If two steps fail one after the other, the first does or the second does with its result. -/
theorem bind_eq_error_iff {α β ε : Type} {first : Except ε α} {next : α → Except ε β} {fault : ε} :
    first >>= next = .error fault ↔
      first = .error fault ∨ ∃ result, first = .ok result ∧ next result = .error fault := by
  cases first with
  | error other =>
      show Except.error other = .error fault ↔ _
      simp
  | ok result =>
      show next result = .error fault ↔ _
      simp

/-- Every item that has been read was read from the item at its place. -/
theorem forall₂_of_mapM_eq_ok {α β ε : Type} {read : α → Except ε β} {items : List α}
    {values : List β} (h : items.mapM read = .ok values) :
    List.Forall₂ (fun item value => read item = .ok value) items values := by
  induction items generalizing values with
  | nil =>
      cases h
      exact .nil
  | cons item items ih =>
      rw [List.mapM_cons] at h
      cases hitem : read item with
      | error fault => rw [hitem] at h; cases h
      | ok value =>
          cases hitems : items.mapM read with
          | error fault => rw [hitem, hitems] at h; cases h
          | ok others =>
              rw [hitem, hitems] at h
              cases h
              exact .cons hitem (ih hitems)

/-- If every value that is read is related to its item, so are all that are read from a list. -/
theorem forall₂_of_reads {α β ε : Type} {R : α → β → Prop} {read : α → Except ε β} {items : List α}
    {values : List β} (h : items.mapM read = .ok values)
    (hread : ∀ item ∈ items, ∀ value, read item = .ok value → R item value) :
    List.Forall₂ R items values := by
  have hboth := (List.forall₂_and_left items values).2 ⟨hread, forall₂_of_mapM_eq_ok h⟩
  exact hboth.imp fun _ value hitem => hitem.1 value hitem.2

/-- If two lists are related item by item, every item of the second is related to one of the first.
-/
theorem exists_of_mem_of_forall₂ {α β : Type} {R : α → β → Prop} {items : List α} {others : List β}
    (h : List.Forall₂ R items others) {other : β} (hother : other ∈ others) :
    ∃ item ∈ items, R item other := by
  induction h with
  | nil => cases hother
  | cons hitem _ ih =>
      rcases List.mem_cons.1 hother with rfl | hother
      · exact ⟨_, List.mem_cons_self, hitem⟩
      · obtain ⟨item, hmem, hrelated⟩ := ih hother
        exact ⟨item, List.mem_cons_of_mem _ hmem, hrelated⟩

/-- A value of a list that has been read was read from some item. -/
theorem exists_of_mem_of_mapM_eq_ok {α β ε : Type} {read : α → Except ε β} {items : List α}
    {values : List β} (h : items.mapM read = .ok values) {value : β} (hvalue : value ∈ values) :
    ∃ item ∈ items, read item = .ok value :=
  exists_of_mem_of_forall₂ (forall₂_of_mapM_eq_ok h) hvalue

/-- Every item of a list that has been read was read. -/
theorem exists_read_of_mapM_eq_ok {α β ε : Type} {read : α → Except ε β} {items : List α}
    {values : List β} (h : items.mapM read = .ok values) {item : α} (hitem : item ∈ items) :
    ∃ value, read item = .ok value := by
  obtain ⟨value, -, hread⟩ := exists_of_mem_of_forall₂ (forall₂_of_mapM_eq_ok h).flip hitem
  exact ⟨value, hread⟩

/-- If a list cannot be read, some item of it cannot. -/
theorem exists_of_mapM_eq_error {α β ε : Type} {read : α → Except ε β} {items : List α} {fault : ε}
    (h : items.mapM read = .error fault) : ∃ item ∈ items, read item = .error fault := by
  induction items with
  | nil => cases h
  | cons item items ih =>
      rw [List.mapM_cons, bind_eq_error_iff] at h
      rcases h with hitem | ⟨value, -, hothers⟩
      · exact ⟨item, List.mem_cons_self, hitem⟩
      · rcases bind_eq_error_iff.1 hothers with hitems | ⟨values, -, hend⟩
        · obtain ⟨other, hother, hread⟩ := ih hitems
          exact ⟨other, List.mem_cons_of_mem _ hother, hread⟩
        · cases hend

/-- A fold stops with a fault exactly if it goes through the items before some item and the step at
this item fails. -/
theorem foldlM_eq_error_iff {α σ ε : Type} {step : σ → α → Except ε σ} {items : List α} {state : σ}
    {fault : ε} :
    items.foldlM step state = .error fault ↔
      ∃ earlier item later reached, items = earlier ++ item :: later ∧
        earlier.foldlM step state = .ok reached ∧ step reached item = .error fault := by
  constructor
  · intro h
    induction items generalizing state with
    | nil => cases h
    | cons item items ih =>
        rw [List.foldlM_cons, bind_eq_error_iff] at h
        rcases h with hitem | ⟨next, hnext, hitems⟩
        · exact ⟨[], item, items, state, rfl, rfl, hitem⟩
        · obtain ⟨earlier, other, later, reached, rfl, hearlier, hother⟩ := ih hitems
          refine ⟨item :: earlier, other, later, reached, rfl, ?_, hother⟩
          rw [List.foldlM_cons, hnext]
          exact hearlier
  · rintro ⟨earlier, item, later, reached, rfl, hearlier, hitem⟩
    rw [List.foldlM_append, hearlier, ok_bind, List.foldlM_cons, hitem]
    rfl

/-- The fault of a step, if it fails. -/
def faultOf? {α ε : Type} : Except ε α → Option ε
  | .ok _ => none
  | .error fault => some fault

/-- The fault of a step is the one with which it fails. -/
theorem faultOf?_eq_some_iff {α ε : Type} {step : Except ε α} {fault : ε} :
    faultOf? step = some fault ↔ step = .error fault := by
  cases step <;> simp [faultOf?]

/-- If the fault of the second of two steps does not depend on the result of the first, their fault
is that of the first step or else that of the second. -/
theorem faultOf?_bind {α β ε : Type} {first : Except ε α} {next : α → Except ε β}
    {fault : Option ε} (h : ∀ value, faultOf? (next value) = fault) :
    faultOf? (first >>= next) = (faultOf? first).or fault := by
  cases first with
  | error other => rfl
  | ok value => exact h value

/-- A second step that cannot fail adds no fault. -/
theorem faultOf?_bind_of_none {α β ε : Type} {first : Except ε α} {next : α → Except ε β}
    (h : ∀ value, faultOf? (next value) = none) : faultOf? (first >>= next) = faultOf? first := by
  rw [faultOf?_bind h, Option.or_none]

/-- The fault of a list that is read is that of the first item that cannot be read. -/
theorem faultOf?_mapM {α β ε : Type} (read : α → Except ε β) (items : List α) :
    faultOf? (items.mapM read) = items.findSome? fun item => faultOf? (read item) := by
  induction items with
  | nil => rfl
  | cons item items ih =>
      have hothers (value : β) :
          faultOf? (items.mapM read >>= fun values => pure (value :: values)) =
            faultOf? (items.mapM read) := by
        rw [faultOf?_bind_of_none fun values => rfl]
      rw [List.mapM_cons, faultOf?_bind hothers, ih, List.findSome?_cons]
      cases faultOf? (read item) <;> rfl

/-- A search through several lists finds what the first of them has in which something is found. -/
theorem findSome?_flatMap {α β γ : Type} (items : List α) (inside : α → List β)
    (find : β → Option γ) :
    (items.flatMap inside).findSome? find =
      items.findSome? fun item => (inside item).findSome? find := by
  induction items with
  | nil => rfl
  | cons item items ih =>
      rw [List.flatMap_cons, List.findSome?_append, ih, List.findSome?_cons]
      cases (inside item).findSome? find <;> rfl

/-- Searches that find the same in every item find the same in the list. -/
theorem findSome?_congr {α β : Type} {items : List α} {find other : α → Option β}
    (h : ∀ item ∈ items, find item = other item) :
    items.findSome? find = items.findSome? other := by
  induction items with
  | nil => rfl
  | cons item items ih =>
      rw [List.findSome?_cons, List.findSome?_cons, h item List.mem_cons_self,
        ih fun later hlater => h later (List.mem_cons_of_mem _ hlater)]

end SchemaGate

/-! # Tables

A finite map from names to values, listed by name in code point order. Two tables with the same
look-ups are equal (`Table.ext_get?`).
-/

namespace Dialogue

structure Table (α : Type) where
  entries : List (String × α)
  sorted : entries.Pairwise fun a b => a.1 < b.1

namespace Table

variable {α : Type}

/-- Puts an entry into its place in a sorted list, over an entry of the same name. -/
def insertEntry (name : String) (value : α) : List (String × α) → List (String × α)
  | [] => [(name, value)]
  | (n, v) :: rest =>
    if name < n then (name, value) :: (n, v) :: rest
    else if name = n then (name, value) :: rest
    else (n, v) :: insertEntry name value rest

theorem mem_insertEntry {name : String} {value : α} {a : String × α} {l : List (String × α)}
    (h : a ∈ insertEntry name value l) : a = (name, value) ∨ a ∈ l := by
  induction l with
  | nil => simpa [insertEntry] using h
  | cons e rest ih =>
    obtain ⟨n, v⟩ := e
    rw [insertEntry] at h
    split at h
    · simpa using h
    · split at h
      · rcases List.mem_cons.1 h with h | h
        · exact .inl h
        · exact .inr (List.mem_cons_of_mem _ h)
      · rcases List.mem_cons.1 h with h | h
        · exact .inr (h ▸ List.mem_cons_self)
        · exact (ih h).imp_right (List.mem_cons_of_mem _)

theorem sorted_insertEntry {name : String} {value : α} {l : List (String × α)}
    (h : l.Pairwise fun a b => a.1 < b.1) :
    (insertEntry name value l).Pairwise fun a b => a.1 < b.1 := by
  induction l with
  | nil => simp [insertEntry]
  | cons e rest ih =>
    obtain ⟨n, v⟩ := e
    obtain ⟨hhead, hrest⟩ := List.pairwise_cons.1 h
    rw [insertEntry]
    split
    · next hlt =>
      refine List.pairwise_cons.2 ⟨fun a ha => ?_, h⟩
      rcases List.mem_cons.1 ha with rfl | ha
      · exact hlt
      · exact String.lt_trans hlt (hhead a ha)
    · split
      · next heq => exact List.pairwise_cons.2 ⟨fun a ha => heq ▸ hhead a ha, hrest⟩
      · next hlt hne =>
        refine List.pairwise_cons.2 ⟨fun a ha => ?_, ih hrest⟩
        rcases mem_insertEntry ha with rfl | ha
        · exact Classical.byContradiction fun hgt => hne (String.le_antisymm hgt hlt)
        · exact hhead a ha

def empty : Table α := ⟨[], .nil⟩

instance : Inhabited (Table α) := ⟨empty⟩

def insert (t : Table α) (name : String) (value : α) : Table α :=
  ⟨insertEntry name value t.entries, sorted_insertEntry t.sorted⟩

/-- The table of some entries; of two with one name the later counts. -/
def ofList (entries : List (String × α)) : Table α :=
  entries.foldl (fun t e => t.insert e.1 e.2) empty

def get? (t : Table α) (name : String) : Option α :=
  t.entries.lookup name

def contains (t : Table α) (name : String) : Bool :=
  (t.get? name).isSome

def names (t : Table α) : List String :=
  t.entries.map (·.1)

@[simp] theorem get?_empty (name : String) : (empty : Table α).get? name = none := rfl

theorem lookup_insertEntry (name other : String) (value : α) (l : List (String × α)) :
    (insertEntry name value l).lookup other =
      if other = name then some value else l.lookup other := by
  induction l with
  | nil => simp only [insertEntry, List.lookup_cons, List.lookup_nil]; split <;> simp_all
  | cons e rest ih =>
    obtain ⟨n, v⟩ := e
    rw [insertEntry]
    split
    · simp only [List.lookup_cons]; split <;> simp_all
    · split
      · next heq =>
        subst heq
        simp only [List.lookup_cons]
        split <;> simp_all
      · next hne =>
        simp only [List.lookup_cons, ih]
        split
        · next heq =>
          have : other ≠ name := fun h => hne (h.symm.trans (beq_iff_eq.1 heq))
          simp [this]
        · rfl

@[simp] theorem get?_insert (t : Table α) (name other : String) (value : α) :
    (t.insert name value).get? other = if other = name then some value else t.get? other :=
  lookup_insertEntry name other value t.entries

/-- Of the entries with a name the last one counts, and any of them before those of the table. -/
theorem get?_foldl_insert (entries : List (String × α)) (t : Table α) (name : String) :
    (entries.foldl (fun t e => t.insert e.1 e.2) t).get? name =
      (entries.reverse.lookup name).or (t.get? name) := by
  induction entries generalizing t with
  | nil => rfl
  | cons e rest ih =>
    obtain ⟨n, v⟩ := e
    rw [List.foldl_cons, ih, get?_insert, List.reverse_cons, List.lookup_append, Option.or_assoc]
    by_cases h : name = n
    · simp [h]
    · simp [h, List.lookup_cons, beq_eq_false_iff_ne.2 h]

theorem get?_ofList (entries : List (String × α)) (name : String) :
    (ofList entries).get? name = entries.reverse.lookup name := by
  rw [ofList, get?_foldl_insert, get?_empty, Option.or_none]

theorem mem_of_lookup {name : String} {value : α} {l : List (String × α)}
    (h : l.lookup name = some value) : (name, value) ∈ l := by
  induction l with
  | nil => simp at h
  | cons e rest ih =>
    obtain ⟨n, v⟩ := e
    rw [List.lookup_cons] at h
    split at h
    · next heq =>
      rw [beq_iff_eq.1 heq, Option.some.inj h]
      exact List.mem_cons_self
    · exact List.mem_cons_of_mem _ (ih h)

theorem lookup_of_mem {name : String} {value : α} {l : List (String × α)}
    (hl : l.Pairwise fun a b => a.1 < b.1) (h : (name, value) ∈ l) :
    l.lookup name = some value := by
  induction l with
  | nil => simp at h
  | cons e rest ih =>
    obtain ⟨hhead, hrest⟩ := List.pairwise_cons.1 hl
    rw [List.lookup_cons]
    rcases List.mem_cons.1 h with rfl | h
    · simp
    · have hne : (name == e.1) = false :=
        beq_eq_false_iff_ne.2 fun he => String.lt_irrefl _ (he ▸ hhead _ h)
      rw [hne]
      exact ih hrest h

theorem get?_eq_some_iff (t : Table α) {name : String} {value : α} :
    t.get? name = some value ↔ (name, value) ∈ t.entries :=
  ⟨mem_of_lookup, lookup_of_mem t.sorted⟩

theorem entries_eq_of_mem_iff {l m : List (String × α)}
    (hl : l.Pairwise fun a b => a.1 < b.1) (hm : m.Pairwise fun a b => a.1 < b.1)
    (h : ∀ e, e ∈ l ↔ e ∈ m) : l = m := by
  induction l generalizing m with
  | nil =>
    cases m with
    | nil => rfl
    | cons e rest => exact absurd ((h e).2 List.mem_cons_self) List.not_mem_nil
  | cons a l ih =>
    cases m with
    | nil => exact absurd ((h a).1 List.mem_cons_self) List.not_mem_nil
    | cons b m =>
      obtain ⟨ha, hl'⟩ := List.pairwise_cons.1 hl
      obtain ⟨hb, hm'⟩ := List.pairwise_cons.1 hm
      have hab : a = b := by
        rcases List.mem_cons.1 ((h a).1 List.mem_cons_self) with hab | hab
        · exact hab
        · rcases List.mem_cons.1 ((h b).2 List.mem_cons_self) with hba | hba
          · exact hba.symm
          · exact absurd (ha b hba) (String.lt_asymm (hb a hab))
      subst hab
      refine congrArg (a :: ·) (ih hl' hm' fun e => ⟨fun he => ?_, fun he => ?_⟩)
      · rcases List.mem_cons.1 ((h e).1 (List.mem_cons_of_mem _ he)) with rfl | he'
        · exact absurd (ha _ he) (String.lt_irrefl _)
        · exact he'
      · rcases List.mem_cons.1 ((h e).2 (List.mem_cons_of_mem _ he)) with rfl | he'
        · exact absurd (hb _ he) (String.lt_irrefl _)
        · exact he'

theorem ext_get? {s t : Table α} (h : ∀ name, s.get? name = t.get? name) : s = t := by
  obtain ⟨l, hl⟩ := s
  obtain ⟨m, hm⟩ := t
  have : l = m := entries_eq_of_mem_iff hl hm fun e => by
    have := h e.1
    rw [← get?_eq_some_iff ⟨l, hl⟩, ← get?_eq_some_iff ⟨m, hm⟩, this]
  subst this
  rfl

theorem insert_of_get? {t : Table α} {name : String} {value : α} (h : t.get? name = some value) :
    t.insert name value = t := by
  apply ext_get?
  intro other
  rw [get?_insert]
  split
  · next hName => rw [hName, h]
  · rfl

@[simp] theorem ofList_entries (t : Table α) : ofList t.entries = t := by
  apply ext_get?
  intro name
  rw [get?_ofList]
  cases h : t.entries.reverse.lookup name with
  | some v =>
    have hMem := List.mem_reverse.1 (mem_of_lookup h)
    exact (t.get?_eq_some_iff.2 hMem).symm
  | none =>
    symm
    refine List.lookup_eq_none_iff.2 fun e he => ?_
    exact List.lookup_eq_none_iff.1 h e (List.mem_reverse.2 he)

end Table

/-- A set of names is a table that holds nothing under them. -/
abbrev NameSet := Table Unit

def NameSet.ofNames (names : List String) : NameSet :=
  Table.ofList (names.map (·, ()))

end Dialogue

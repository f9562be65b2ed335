/-! # Values kept under text keys

A `Keyed` holds at most one value per key and lists its entries in the order of
the keys. The order is part of the type, so two of them with the same look-ups
are equal (`Keyed.ext_get?`). Each operation is described by what it does to
the look-up `get?`. -/

namespace Workbench

universe u v

/-- Values under text keys, in key order. -/
structure Keyed (α : Type u) where
  entries : List (String × α)
  sorted : entries.Pairwise fun a b => a.1 < b.1
  deriving DecidableEq

namespace Keyed

variable {α : Type u} {β : Type v}

/-- The value under a key in a list of entries. -/
def find (key : String) : List (String × α) → Option α
  | [] => none
  | (k, a) :: rest => if k = key then some a else find key rest

/-- Puts an entry in its place, over an entry with the same key. -/
def put (key : String) (a : α) : List (String × α) → List (String × α)
  | [] => [(key, a)]
  | (k, b) :: rest =>
      if key < k then (key, a) :: (k, b) :: rest
      else if key = k then (key, a) :: rest
      else (k, b) :: put key a rest

theorem eq_or_mem_of_mem_put {key : String} {a : α} {e : String × α}
    {l : List (String × α)} (h : e ∈ put key a l) : e = (key, a) ∨ e ∈ l := by
  induction l with
  | nil => simpa [put] using h
  | cons head rest ih =>
      obtain ⟨k, b⟩ := head
      rw [put] at h
      split at h
      · simpa using h
      · split at h
        · rcases List.mem_cons.mp h with h | h
          · exact .inl h
          · exact .inr (List.mem_cons_of_mem _ h)
        · rcases List.mem_cons.mp h with h | h
          · exact .inr (by simp [h])
          · exact (ih h).imp id (List.mem_cons_of_mem _)

theorem lt_of_not_lt_of_ne {a b : String} (h : ¬ a < b) (hne : a ≠ b) : b < a :=
  Decidable.byContradiction fun hba =>
    hne (String.le_antisymm (String.not_lt.mp hba) (String.not_lt.mp h))

theorem pairwise_put (key : String) (a : α) {l : List (String × α)}
    (h : l.Pairwise fun a b => a.1 < b.1) :
    (put key a l).Pairwise fun a b => a.1 < b.1 := by
  induction l with
  | nil => simp [put]
  | cons head rest ih =>
      obtain ⟨k, b⟩ := head
      obtain ⟨hhead, hrest⟩ := List.pairwise_cons.mp h
      rw [put]
      split
      next hlt =>
        refine List.pairwise_cons.mpr ⟨?_, h⟩
        intro e he
        rcases List.mem_cons.mp he with rfl | he
        · exact hlt
        · exact String.lt_trans hlt (hhead e he)
      next hnot =>
        split
        next heq =>
          subst heq
          exact List.pairwise_cons.mpr ⟨hhead, hrest⟩
        next hne =>
          refine List.pairwise_cons.mpr ⟨?_, ih hrest⟩
          intro e he
          rcases eq_or_mem_of_mem_put he with rfl | he
          · exact lt_of_not_lt_of_ne hnot hne
          · exact hhead e he

def empty : Keyed α := ⟨[], .nil⟩

instance : Inhabited (Keyed α) := ⟨empty⟩

def get? (m : Keyed α) (key : String) : Option α := find key m.entries

def contains (m : Keyed α) (key : String) : Bool := (m.get? key).isSome

/-- Stores a value under a key, in place of an older one. -/
def insert (m : Keyed α) (key : String) (a : α) : Keyed α :=
  ⟨put key a m.entries, pairwise_put key a m.sorted⟩

/-- Keeps the entries that satisfy a test. -/
def filter (p : String → α → Bool) (m : Keyed α) : Keyed α :=
  ⟨m.entries.filter fun e => p e.1 e.2, m.sorted.filter _⟩

def erase (m : Keyed α) (key : String) : Keyed α :=
  m.filter fun k _ => k != key

/-- Changes the value under a key, if there is one. -/
def modify (m : Keyed α) (key : String) (f : α → α) : Keyed α :=
  match m.get? key with
  | some a => m.insert key (f a)
  | none => m

def keys (m : Keyed α) : List String := m.entries.map (·.1)

def values (m : Keyed α) : List α := m.entries.map (·.2)

/-- The number of entries. -/
def size (m : Keyed α) : Nat := m.entries.length

/-- The entries of a list, where of two with one key the later is kept. -/
def ofList (l : List (String × α)) : Keyed α :=
  l.foldl (fun m e => m.insert e.1 e.2) empty

theorem find_put_self (key : String) (a : α) (l : List (String × α)) :
    find key (put key a l) = some a := by
  induction l with
  | nil => simp [put, find]
  | cons head rest ih =>
      obtain ⟨k, b⟩ := head
      rw [put]
      split
      · simp [find]
      · split
        · simp [find]
        next hne => simp [find, Ne.symm hne, ih]

theorem find_put_ne {key other : String} (h : key ≠ other) (a : α) (l : List (String × α)) :
    find other (put key a l) = find other l := by
  induction l with
  | nil => simp [put, find, h]
  | cons head rest ih =>
      obtain ⟨k, b⟩ := head
      rw [put]
      split
      · simp [find, h]
      · split
        next heq =>
          subst heq
          simp [find, h]
        next => simp [find, ih]

theorem find_eq_some_iff {key : String} {a : α} {l : List (String × α)}
    (h : l.Pairwise fun a b => a.1 < b.1) : find key l = some a ↔ (key, a) ∈ l := by
  induction l with
  | nil => simp [find]
  | cons head rest ih =>
      obtain ⟨k, b⟩ := head
      obtain ⟨hhead, hrest⟩ := List.pairwise_cons.mp h
      rw [find]
      split
      next heq =>
        subst heq
        simp only [Option.some.injEq, List.mem_cons, Prod.mk.injEq, true_and]
        constructor
        · exact fun hab => .inl hab.symm
        · rintro (hab | hmem)
          · exact hab.symm
          · exact absurd (hhead _ hmem) (String.lt_irrefl _)
      next hne =>
        rw [ih hrest]
        simp [Ne.symm hne]

/-- An entry is listed exactly if its key finds its value. -/
theorem get?_eq_some_iff (m : Keyed α) {key : String} {a : α} :
    m.get? key = some a ↔ (key, a) ∈ m.entries :=
  find_eq_some_iff m.sorted

@[simp] theorem get?_empty (key : String) : (empty : Keyed α).get? key = none := rfl

@[simp] theorem get?_insert_self (m : Keyed α) (key : String) (a : α) :
    (m.insert key a).get? key = some a :=
  find_put_self key a m.entries

theorem get?_insert_ne (m : Keyed α) {key other : String} (h : key ≠ other) (a : α) :
    (m.insert key a).get? other = m.get? other :=
  find_put_ne h a m.entries

theorem get?_insert (m : Keyed α) (key other : String) (a : α) :
    (m.insert key a).get? other = if key = other then some a else m.get? other := by
  by_cases h : key = other
  · subst h
    simp
  · simp [h, get?_insert_ne]

theorem get?_filter (p : String → α → Bool) (m : Keyed α) (key : String) :
    (m.filter p).get? key = (m.get? key).filter (p key) := by
  apply Option.ext
  intro a
  rw [get?_eq_some_iff, Option.filter_eq_some_iff, get?_eq_some_iff]
  exact List.mem_filter

@[simp] theorem get?_erase_self (m : Keyed α) (key : String) : (m.erase key).get? key = none := by
  rw [erase, get?_filter]
  simp

theorem get?_erase_ne (m : Keyed α) {key other : String} (h : key ≠ other) :
    (m.erase key).get? other = m.get? other := by
  rw [erase, get?_filter]
  cases m.get? other <;> simp [Option.filter, Ne.symm h]

theorem contains_iff (m : Keyed α) {key : String} :
    m.contains key = true ↔ ∃ a, m.get? key = some a :=
  Option.isSome_iff_exists

theorem contains_of_get? {m : Keyed α} {key : String} {a : α} (h : m.get? key = some a) :
    m.contains key = true :=
  m.contains_iff.mpr ⟨a, h⟩

theorem contains_eq_false (m : Keyed α) {key : String} :
    m.contains key = false ↔ m.get? key = none :=
  Option.isSome_eq_false_iff.trans Option.isNone_iff_eq_none

@[simp] theorem contains_empty (key : String) : (empty : Keyed α).contains key = false := rfl

theorem contains_insert (m : Keyed α) {key other : String} (a : α) :
    (m.insert key a).contains other = true ↔ key = other ∨ m.contains other = true := by
  rw [contains, get?_insert]
  split
  next h => simp [h]
  next h => simp [h, contains]

theorem contains_filter (m : Keyed α) (p : String → Bool) {key : String} :
    (m.filter fun k _ => p k).contains key = true ↔ m.contains key = true ∧ p key = true := by
  rw [contains, get?_filter, contains]
  cases m.get? key <;> simp [Option.filter]

theorem contains_erase (m : Keyed α) {key other : String} :
    (m.erase key).contains other = true ↔ m.contains other = true ∧ other ≠ key := by
  rw [erase, contains_filter, bne_iff_ne]

theorem mem_keys_iff (m : Keyed α) {key : String} : key ∈ m.keys ↔ (m.get? key).isSome := by
  rw [keys, List.mem_map, Option.isSome_iff_exists]
  constructor
  · rintro ⟨⟨k, a⟩, hmem, rfl⟩
    exact ⟨a, m.get?_eq_some_iff.mpr hmem⟩
  · rintro ⟨a, ha⟩
    exact ⟨(key, a), m.get?_eq_some_iff.mp ha, rfl⟩

theorem nodup_keys (m : Keyed α) : m.keys.Nodup := by
  have hsorted : m.keys.Pairwise (· < ·) := List.pairwise_map.mpr m.sorted
  refine List.Pairwise.imp ?_ hsorted
  rintro key _ hlt rfl
  exact String.lt_irrefl key hlt

theorem entries_eq_of_mem_iff {l₁ l₂ : List (String × α)}
    (h₁ : l₁.Pairwise fun a b => a.1 < b.1) (h₂ : l₂.Pairwise fun a b => a.1 < b.1)
    (h : ∀ e, e ∈ l₁ ↔ e ∈ l₂) : l₁ = l₂ := by
  induction l₁ generalizing l₂ with
  | nil =>
      cases l₂ with
      | nil => rfl
      | cons e _ => exact absurd ((h e).mpr List.mem_cons_self) List.not_mem_nil
  | cons e₁ r₁ ih =>
      cases l₂ with
      | nil => exact absurd ((h e₁).mp List.mem_cons_self) List.not_mem_nil
      | cons e₂ r₂ =>
          obtain ⟨hhead₁, hrest₁⟩ := List.pairwise_cons.mp h₁
          obtain ⟨hhead₂, hrest₂⟩ := List.pairwise_cons.mp h₂
          have heads : e₁ = e₂ := by
            rcases List.mem_cons.mp ((h e₁).mp List.mem_cons_self) with heq | hmem₁
            · exact heq
            rcases List.mem_cons.mp ((h e₂).mpr List.mem_cons_self) with heq | hmem₂
            · exact heq.symm
            exact absurd (hhead₁ _ hmem₂) (String.lt_asymm (hhead₂ _ hmem₁))
          subst heads
          congr 1
          refine ih hrest₁ hrest₂ ?_
          intro e
          constructor
          · intro he
            rcases List.mem_cons.mp ((h e).mp (List.mem_cons_of_mem _ he)) with rfl | he'
            · exact absurd (hhead₁ _ he) (String.lt_irrefl _)
            · exact he'
          · intro he
            rcases List.mem_cons.mp ((h e).mpr (List.mem_cons_of_mem _ he)) with rfl | he'
            · exact absurd (hhead₂ _ he) (String.lt_irrefl _)
            · exact he'

/-- Two with the same look-ups are the same. -/
theorem ext_get? {m₁ m₂ : Keyed α} (h : ∀ key, m₁.get? key = m₂.get? key) : m₁ = m₂ := by
  have heq : m₁.entries = m₂.entries := by
    refine entries_eq_of_mem_iff m₁.sorted m₂.sorted ?_
    rintro ⟨key, a⟩
    rw [← get?_eq_some_iff, ← get?_eq_some_iff, h key]
  cases m₁
  cases m₂
  cases heq
  rfl

end Keyed

end Workbench

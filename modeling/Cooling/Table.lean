/-!
# Tables with names as keys

A finite table keyed by strings whose entries stand in ascending order of their keys.  The
order of strings is that of their code points, hence also that of their bytes in UTF-8.
Order is kept in the type, so a table's entries can be listed as they are and two tables
that answer every look-up alike are equal (`Table.ext_get?`).

`update` is the one way to change a table; `get?_update_self` and `get?_update_of_ne` say
what it does.
-/

namespace Cooling

/-- Entries by ascending key. -/
structure Table (α : Type) where
  entries : List (String × α)
  ascending : entries.Pairwise fun a b => a.1 < b.1

namespace Table

variable {α : Type}

/-- The table without entries. -/
def empty : Table α := ⟨[], .nil⟩

/-- The value under a key. -/
def get? (t : Table α) (key : String) : Option α := t.entries.lookup key

/-- The keys, ascending. -/
def keys (t : Table α) : List String := t.entries.map (·.1)

/-- Whether a key is in the table. -/
def contains (t : Table α) (key : String) : Bool := (t.get? key).isSome

/-- The number of entries. -/
def size (t : Table α) : Nat := t.entries.length

/-! ## 1. Updating entries -/

/-- Entries with the one under `key` changed by `f`, or added in its place. -/
def updateEntries (key : String) (f : Option α → α) : List (String × α) → List (String × α)
  | [] => [(key, f none)]
  | (k, x) :: rest =>
    if key < k then (key, f none) :: (k, x) :: rest
    else if key = k then (key, f (some x)) :: rest
    else (k, x) :: updateEntries key f rest

theorem mem_updateEntries {key : String} {f : Option α → α} {e : String × α}
    {entries : List (String × α)} (h : e ∈ updateEntries key f entries) :
    e.1 = key ∨ e ∈ entries := by
  induction entries with
  | nil =>
    rw [updateEntries, List.mem_singleton] at h
    exact .inl (by rw [h])
  | cons hd rest ih =>
    obtain ⟨k, x⟩ := hd
    rw [updateEntries] at h
    split at h
    · rcases List.mem_cons.mp h with rfl | h
      · exact .inl rfl
      · exact .inr h
    · split at h
      · rcases List.mem_cons.mp h with rfl | h
        · exact .inl rfl
        · exact .inr (List.mem_cons_of_mem _ h)
      · rcases List.mem_cons.mp h with rfl | h
        · exact .inr List.mem_cons_self
        · exact (ih h).imp_right (List.mem_cons_of_mem _)

/-- Updating keeps the order. -/
theorem ascending_updateEntries (key : String) (f : Option α → α)
    {entries : List (String × α)} (h : entries.Pairwise fun a b => a.1 < b.1) :
    (updateEntries key f entries).Pairwise fun a b => a.1 < b.1 := by
  induction entries with
  | nil => exact List.pairwise_singleton _ _
  | cons hd rest ih =>
    obtain ⟨k, x⟩ := hd
    rw [updateEntries]
    have hrest := List.pairwise_cons.mp h
    split
    · rename_i hlt
      refine List.pairwise_cons.mpr ⟨?_, h⟩
      intro e he
      rcases List.mem_cons.mp he with rfl | he
      · exact hlt
      · exact String.lt_trans hlt (hrest.1 e he)
    · split
      · rename_i heq
        subst heq
        exact List.pairwise_cons.mpr ⟨hrest.1, hrest.2⟩
      · rename_i hge hne
        refine List.pairwise_cons.mpr ⟨?_, ih hrest.2⟩
        intro e he
        rcases mem_updateEntries he with hkey | he
        · rcases Std.lt_trichotomy key k with hlt | heq | hgt
          · exact absurd hlt hge
          · exact absurd heq hne
          · exact hkey ▸ hgt
        · exact hrest.1 e he

/-- The table with the value under a key changed by `f`, which is given what is there. -/
def update (t : Table α) (key : String) (f : Option α → α) : Table α :=
  ⟨updateEntries key f t.entries, ascending_updateEntries key f t.ascending⟩

/-- The table with a value under a key. -/
def insert (t : Table α) (key : String) (x : α) : Table α := t.update key fun _ => x

/-! ## 2. Look-up -/

/-- A key below every other is not there. -/
theorem lookup_eq_none {key : String} {entries : List (String × α)}
    (h : ∀ e ∈ entries, key < e.1) : entries.lookup key = none := by
  induction entries with
  | nil => rfl
  | cons e rest ih =>
    have hne : key ≠ e.1 := by
      intro heq
      exact String.lt_irrefl _ (heq ▸ h e List.mem_cons_self)
    rw [List.lookup_cons, beq_false_of_ne hne]
    exact ih fun e he => h e (List.mem_cons_of_mem _ he)

/-- A key below the first one is not there. -/
theorem lookup_eq_none_of_lt {key k : String} {x : α} {rest : List (String × α)}
    (h : ((k, x) :: rest).Pairwise fun a b => a.1 < b.1) (hlt : key < k) :
    List.lookup key ((k, x) :: rest) = none := by
  refine lookup_eq_none fun e he => ?_
  rcases List.mem_cons.mp he with rfl | he
  · exact hlt
  · exact String.lt_trans hlt ((List.pairwise_cons.mp h).1 e he)

@[simp] theorem get?_empty (key : String) : (empty : Table α).get? key = none := rfl

@[simp] theorem get?_update_self (t : Table α) (key : String) (f : Option α → α) :
    (t.update key f).get? key = some (f (t.get? key)) := by
  obtain ⟨entries, h⟩ := t
  simp only [get?, update]
  induction entries with
  | nil => simp [updateEntries]
  | cons hd rest ih =>
    obtain ⟨k, x⟩ := hd
    rw [updateEntries]
    split
    · rename_i hlt
      rw [lookup_eq_none_of_lt h hlt]
      simp
    · split
      · rename_i heq
        subst heq
        simp
      · rename_i hne
        rw [List.lookup_cons, List.lookup_cons, beq_false_of_ne hne]
        exact ih (List.pairwise_cons.mp h).2

theorem get?_update_of_ne (t : Table α) {key other : String} (f : Option α → α)
    (hne : other ≠ key) : (t.update key f).get? other = t.get? other := by
  obtain ⟨entries, h⟩ := t
  simp only [get?, update]
  induction entries with
  | nil => simp [updateEntries, List.lookup_cons, beq_false_of_ne hne]
  | cons hd rest ih =>
    obtain ⟨k, x⟩ := hd
    rw [updateEntries]
    split
    · rw [List.lookup_cons, beq_false_of_ne hne]
    · split
      · rename_i heq
        subst heq
        rw [List.lookup_cons, List.lookup_cons, beq_false_of_ne hne]
      · rw [List.lookup_cons, List.lookup_cons, ih (List.pairwise_cons.mp h).2]

/-- Two tables that answer every look-up alike are equal. -/
theorem ext_get? {s t : Table α} (h : ∀ key, s.get? key = t.get? key) : s = t := by
  obtain ⟨es, hs⟩ := s
  obtain ⟨et, ht⟩ := t
  simp only [get?] at h
  suffices es = et by subst this; rfl
  induction es generalizing et with
  | nil =>
    cases et with
    | nil => rfl
    | cons e rest =>
      obtain ⟨k, x⟩ := e
      simpa using h k
  | cons e rest ih =>
    obtain ⟨k, x⟩ := e
    cases et with
    | nil => simpa using h k
    | cons e' rest' =>
      obtain ⟨k', x'⟩ := e'
      have hkey : k = k' := by
        rcases Std.lt_trichotomy k k' with hlt | heq | hgt
        · have := h k
          rw [lookup_eq_none_of_lt ht hlt] at this
          simp at this
        · exact heq
        · have := h k'
          rw [lookup_eq_none_of_lt hs hgt] at this
          simp at this
      subst hkey
      have hx : x = x' := by simpa using h k
      subst hx
      rw [ih (List.pairwise_cons.mp hs).2 _ (List.pairwise_cons.mp ht).2]
      intro key
      by_cases hk : key = k
      · subst hk
        rw [lookup_eq_none (List.pairwise_cons.mp hs).1,
          lookup_eq_none (List.pairwise_cons.mp ht).1]
      · have := h key
        rwa [List.lookup_cons, List.lookup_cons, beq_false_of_ne hk] at this

/-- The entries are what the look-ups find. -/
theorem mem_entries_iff {t : Table α} {key : String} {x : α} :
    (key, x) ∈ t.entries ↔ t.get? key = some x := by
  obtain ⟨entries, h⟩ := t
  simp only [get?]
  induction entries with
  | nil => simp
  | cons e rest ih =>
    obtain ⟨k, y⟩ := e
    have hrest := List.pairwise_cons.mp h
    rw [List.mem_cons, List.lookup_cons, Prod.mk.injEq]
    by_cases hk : key = k
    · subst hk
      have hnot : (key, x) ∉ rest := fun hmem => String.lt_irrefl key (hrest.1 _ hmem)
      simp [hnot, eq_comm]
    · rw [beq_false_of_ne hk, ← ih hrest.2]
      simp [hk]

/-! ## 3. Keys -/

/-- The keys ascend. -/
theorem pairwise_keys (t : Table α) : t.keys.Pairwise (· < ·) :=
  List.pairwise_map.mpr t.ascending

/-- A look-up finds something exactly if the key is among the entries'. -/
theorem isSome_lookup_iff {key : String} {entries : List (String × α)} :
    (entries.lookup key).isSome ↔ key ∈ entries.map (·.1) := by
  induction entries with
  | nil => simp
  | cons e rest ih =>
    obtain ⟨k, x⟩ := e
    rw [List.map_cons, List.mem_cons, List.lookup_cons]
    by_cases hk : key = k
    · simp [hk]
    · rw [beq_false_of_ne hk, ih]
      exact (or_iff_right hk).symm

theorem contains_iff {t : Table α} {key : String} : t.contains key = true ↔ key ∈ t.keys :=
  isSome_lookup_iff

/-- What is under a key after another value was put somewhere. -/
theorem get?_insert (t : Table α) (key other : String) (x : α) :
    (t.insert key x).get? other = if other = key then some x else t.get? other := by
  by_cases h : other = key
  · rw [if_pos h, h, insert, get?_update_self]
  · rw [if_neg h, insert, get?_update_of_ne _ _ h]

end Table
end Cooling

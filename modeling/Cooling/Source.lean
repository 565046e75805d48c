import Cooling.Property

/-!
# Known property values

Actions judge objects by the latest known values of their properties.  A `Source` answers
which value is known in a place, if any; a `Cache` is a source that is written to.
-/

namespace Cooling

/-- Where a property is found: a property of an interface of an object. -/
structure Place where
  path : String
  interface : String
  property : String
deriving DecidableEq, Repr

/-- The value known in a place, if one is. -/
abbrev Source := Place → Option Property

/-- Values by place, at most one in each. -/
structure Cache where
  entries : List (Place × Property) := []

namespace Cache

/-- What the cache knows. -/
def source (cache : Cache) : Source := fun place => cache.entries.lookup place

/-- The cache with nothing in a place. -/
def erase (cache : Cache) (place : Place) : Cache :=
  ⟨cache.entries.filter fun e => e.1 != place⟩

/-- The cache with a value in a place, whatever was there. -/
def set (cache : Cache) (place : Place) (value : Property) : Cache :=
  ⟨(place, value) :: (cache.erase place).entries⟩

theorem source_erase (cache : Cache) (place other : Place) :
    (cache.erase place).source other = if other = place then none else cache.source other := by
  obtain ⟨entries⟩ := cache
  simp only [source, erase]
  induction entries with
  | nil => simp
  | cons e rest ih =>
    obtain ⟨p, x⟩ := e
    by_cases hp : p = place
    · subst hp
      rw [List.filter_cons_of_neg (by simp), ih, List.lookup_cons]
      split
      · rfl
      · rename_i hne
        rw [beq_false_of_ne hne]
    · rw [List.filter_cons_of_pos (by simpa using hp), List.lookup_cons, List.lookup_cons, ih]
      by_cases ho : other = p
      · subst ho
        simp [hp]
      · rw [beq_false_of_ne ho]

theorem source_set (cache : Cache) (place other : Place) (value : Property) :
    (cache.set place value).source other =
      if other = place then some value else cache.source other := by
  show List.lookup other ((place, value) :: (cache.erase place).entries) = _
  rw [List.lookup_cons]
  by_cases ho : other = place
  · simp [ho]
  · rw [beq_false_of_ne ho, if_neg ho]
    exact (source_erase cache place other).trans (if_neg ho)

end Cache
end Cooling

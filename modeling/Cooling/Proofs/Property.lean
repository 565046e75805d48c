import Cooling.Property
import Cooling.Proofs.Json.Scalars
import Mathlib.Algebra.Group.Int.Defs

/-!
# Property values and JSON

A value that is written as JSON and read again is the value that it was, kind included, except a
double that is not finite, which is written as `null` and refused.  The other way, a JSON value
that is decoded and encoded again is the same, except a whole number past the signed 64 bits,
which becomes its nearest double.

The kinds are tried in order, so the first needs that no text written for one kind is a text of
an earlier one.  `Json.value?_text` is what it rests on: the text of a single JSON value is read
as that value, whatever the value.
-/

namespace Cooling.Property

open Binary64 (Nearest)

/-! ## 1. Encoding -/

/-- Whether a value has a form in JSON: a double that is not finite has none. -/
def hasForm : Property → Bool
  | float x => x.isFinite
  | _ => true

theorem toJson_float {x : Binary64} (h : x.isFinite = true) :
    (float x).toJson = .number (.real x h) := by
  rw [toJson, Json.Number.ofBinary64?, dif_pos h]
  rfl

theorem toJson_eq_null {p : Property} (h : p.hasForm = false) : p.toJson = .null := by
  cases p with
  | float x =>
    have hx : ¬ x.isFinite = true := by simpa [hasForm] using h
    rw [toJson, Json.Number.ofBinary64?, dif_neg hx]
    rfl
  | _ => cases h

theorem isScalar_toJson (p : Property) : p.toJson.isScalar = true := by
  cases p with
  | float x =>
    by_cases h : x.isFinite = true
    · rw [toJson_float h]
      rfl
    · rw [toJson_eq_null (p := float x) (by simpa [hasForm] using h)]
      rfl
  | _ => rfl

/-- The text of a value is that of its JSON form. -/
theorem read?_toJson_text (p : Property) : Json.read? p.toJson.text = some p.toJson := by
  have hvalue := Json.value?_text Json.maxDepth p.isScalar_toJson Json.ends_nil
  rw [List.append_nil] at hvalue
  rw [Json.read?, hvalue]
  rfl

/-! ## 2. Decoding -/

theorem ofJson?_whole_of_lt {n : Int} (h : n < 2 ^ 63) (hrange) :
    ofJson? (.number (.whole n hrange)) = some (.int (Int64.ofInt n)) := by
  rw [ofJson?, if_pos (by omega)]

theorem ofJson?_whole_of_le {n : Int} (h : 2 ^ 63 ≤ n) (hrange) :
    ofJson? (.number (.whole n hrange)) = some (.float (.ofInt n)) := by
  rw [ofJson?, if_neg (by omega)]

/-- What is decoded: truth values, numbers and strings. -/
theorem exists_ofJson?_iff (j : Json) :
    (∃ p, ofJson? j = some p) ↔
      (∃ b, j = .bool b) ∨ (∃ n, j = .number n) ∨ (∃ s, j = .string s) := by
  constructor
  · rintro ⟨p, hp⟩
    cases j with
    | bool b => exact .inl ⟨b, rfl⟩
    | number n => exact .inr (.inl ⟨n, rfl⟩)
    | string s => exact .inr (.inr ⟨s, rfl⟩)
    | _ => cases hp
  · rintro (⟨b, rfl⟩ | ⟨n, rfl⟩ | ⟨s, rfl⟩)
    · exact ⟨_, rfl⟩
    · cases n with
      | whole n h => exact ⟨_, rfl⟩
      | real x h => exact ⟨_, rfl⟩
    · exact ⟨_, rfl⟩

/-- Whether a JSON value is a whole number of signed 64 bits. -/
def IsInt64 (j : Json) : Prop := ∃ n h, j = .number (.whole n h) ∧ -2 ^ 63 ≤ n ∧ n < 2 ^ 63

/-- **Whole numbers of signed 64 bits are the ones that stay whole.** -/
theorem exists_int_iff (j : Json) : (∃ n, ofJson? j = some (.int n)) ↔ IsInt64 j := by
  constructor
  · rintro ⟨m, hm⟩
    cases j with
    | number n =>
      cases n with
      | whole n h =>
        by_cases hlt : n < 2 ^ 63
        · exact ⟨n, h, rfl, by omega, hlt⟩
        · rw [ofJson?_whole_of_le (by omega)] at hm
          cases hm
      | real x h => cases hm
    | _ => cases hm
  · rintro ⟨n, h, rfl, -, hlt⟩
    exact ⟨_, ofJson?_whole_of_lt hlt h⟩

/-- Every other number is a double. -/
theorem exists_float {n : Json.Number} (h : ¬ IsInt64 (.number n)) :
    ∃ x, ofJson? (.number n) = some (.float x) := by
  cases n with
  | whole n hrange =>
    refine ⟨_, ofJson?_whole_of_le ?_ hrange⟩
    refine Int.not_lt.mp fun hlt => h ⟨n, hrange, rfl, by omega, hlt⟩
  | real x hx => exact ⟨x, rfl⟩

/-! ## 3. There and back -/

theorem ofJson?_toJson {p : Property} (h : p.hasForm = true) : ofJson? p.toJson = some p := by
  cases p with
  | bool b => rfl
  | int n =>
    have hlt : n.toInt < 2 ^ 63 := n.toInt_lt
    rw [toJson, intNumber, ofJson?_whole_of_lt hlt, Int64.ofInt_toInt]
  | float x =>
    rw [toJson_float h]
    rfl
  | string s => rfl

/-- Decoding and encoding again, for all but the numbers that become doubles. -/
theorem toJson_ofJson? {j : Json} {p : Property} (hp : ofJson? j = some p)
    (hsmall : ∀ n h, j = .number (.whole n h) → n < 2 ^ 63) : p.toJson = j := by
  match j, hp with
  | .bool b, hp =>
    cases hp
    rfl
  | .number (.whole n h), hp =>
    have hlt : n < 2 ^ 63 := hsmall n h rfl
    rw [ofJson?_whole_of_lt hlt] at hp
    cases hp
    have hback : (Int64.ofInt n).toInt = n := Int64.toInt_ofInt_of_le (by omega) hlt
    simp only [toJson, intNumber, hback]
  | .number (.real x h), hp =>
    cases hp
    exact toJson_float h
  | .string s, hp =>
    cases hp
    rfl

/-- A whole number of 64 bits has a double. -/
theorem isFinite_ofInt64 {n : Int} (h : -0x8000000000000000 ≤ n ∧ n ≤ 0xffffffffffffffff) :
    (Binary64.ofInt n).isFinite = true := by
  have hle : n.natAbs ≤ 2 ^ 64 := by omega
  exact Binary64.isFinite_ofInt (by decide) hle

/-! ## 4. Text -/

/-- **Reading a text is decoding the JSON value that it writes.** -/
theorem read_of_read? {s : List Char} {j : Json} (h : Json.read? s = some j) :
    read s = (ofJson? j).elim (.error .noKind) .ok := by
  unfold Json.read? at h
  unfold read
  split at h
  · rename_i hvalue
    rw [hvalue]
    split at h
    · rename_i hrest
      cases h
      dsimp only
      split
      · rename_i hnone
        rw [hnone]
        rfl
      · rename_i hsome
        rw [hsome, if_pos hrest]
        rfl
    · cases h
  · cases h

/-- A text that is read as a value is JSON. -/
theorem exists_read?_of_read {s : List Char} {p : Property} (h : read s = .ok p) :
    ∃ j, Json.read? s = some j ∧ ofJson? j = some p := by
  unfold read at h
  split at h
  · cases h
  · rename_i j rest hvalue
    split at h
    · cases h
    · rename_i q hq
      split at h
      · rename_i hrest
        cases h
        refine ⟨j, ?_, hq⟩
        rw [Json.read?, hvalue]
        exact if_pos hrest
      · cases h

/-- **Property values and their JSON forms.**  A value that has a form comes back from its text
as it was, any other is written as `null`, which is refused.  Of JSON values the truth values,
the numbers and the strings are decoded, and of the numbers exactly those of signed 64 bits as
whole ones.  Encoding again gives the same JSON value, or the nearest double of a whole number
past those. -/
theorem json_forms :
    -- from a value to its text and back
    (∀ x : Binary64, x.isFinite = true → '.' ∈ x.text .data ∨ 'e' ∈ x.text .data) ∧
    (∀ p : Property, p.hasForm = true → read p.toJson.text = .ok p) ∧
    (∀ p : Property, p.hasForm = false →
      p.toJson = .null ∧ read p.toJson.text = .error .noKind) ∧
    -- which texts and JSON values are decoded, and as what
    (∀ s p, read s = .ok p ↔ ∃ j, Json.read? s = some j ∧ ofJson? j = some p) ∧
    (∀ j, (∃ p, ofJson? j = some p) ↔
      (∃ b, j = .bool b) ∨ (∃ n, j = .number n) ∨ (∃ s, j = .string s)) ∧
    (∀ j, (∃ n, ofJson? j = some (.int n)) ↔ IsInt64 j) ∧
    (∀ n, ¬ IsInt64 (.number n) → ∃ x, ofJson? (.number n) = some (.float x)) ∧
    -- from a JSON value and back
    (∀ j p, ofJson? j = some p → (∀ n h, j = .number (.whole n h) → n < 2 ^ 63) → p.toJson = j) ∧
    (∀ n h p, 2 ^ 63 ≤ n → ofJson? (.number (.whole n h)) = some p →
      ∃ x hx, p = .float x ∧ Nearest n x ∧ p.toJson = .number (.real x hx)) := by
  refine ⟨fun _ => Json.mem_text_data, ?_, ?_, ?_, exists_ofJson?_iff, exists_int_iff,
    fun _ => exists_float, fun _ _ => toJson_ofJson?, ?_⟩
  · intro p hp
    rw [read_of_read? p.read?_toJson_text, ofJson?_toJson hp]
    rfl
  · intro p hp
    refine ⟨toJson_eq_null hp, ?_⟩
    rw [read_of_read? p.read?_toJson_text, toJson_eq_null hp]
    rfl
  · intro s p
    refine ⟨exists_read?_of_read, ?_⟩
    rintro ⟨j, hj, hp⟩
    rw [read_of_read? hj, hp]
    rfl
  · intro n h p hle hp
    rw [ofJson?_whole_of_le hle] at hp
    cases hp
    have hx := isFinite_ofInt64 h
    exact ⟨_, hx, rfl, Binary64.nearest_ofInt hx, toJson_float hx⟩

end Cooling.Property

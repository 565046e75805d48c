import Cooling.Table
import Mathlib.Tactic.SplitIfs

/-!
# The order of strings in bytes

Tables order their keys by code points.  A string that is stored or sent is bytes in UTF-8, and
whoever sorts those gets the same order: of two characters the one with the greater code point
has the greater bytes, at the first byte in which the two differ.

* `before_utf8EncodeChar`: the bytes of a lesser character come before those of a greater one,
  whatever follows either;
* `lt_iff_bytes_lt`: strings are ordered as their bytes are;
* `Table.pairwise_keys_bytes`: the keys of a table ascend in bytes.
-/

namespace Cooling

open String (utf8EncodeChar)

namespace Text

/-! ## 1. Bytes that decide -/

/-- Bytes that sort before others, whatever comes after either. -/
def Before (p q : List UInt8) : Prop := ∀ u v : List UInt8, p ++ u < q ++ v

theorem before_of_lt {a b : Nat} (h : a < b) (hb : b < 256) (p q : List UInt8) :
    Before (UInt8.ofNat a :: p) (UInt8.ofNat b :: q) := by
  intro u v
  refine List.cons_lt_cons_iff.mpr (.inl ?_)
  rw [UInt8.lt_iff_toNat_lt, UInt8.toNat_ofNat', UInt8.toNat_ofNat', Nat.mod_eq_of_lt hb,
    Nat.mod_eq_of_lt (Nat.lt_trans h hb)]
  exact h

/-- A character goes on with six bits in each byte.  The bytes for the bits above the last six
decide, unless they are the same. -/
theorem before_append_lastBits {m n : Nat} {p q : List UInt8} (h : m < n)
    (hlt : m / 64 < n / 64 → Before p q) (heq : m / 64 = n / 64 → p = q) :
    Before (p ++ [UInt8.ofNat (m % 64 + 128)]) (q ++ [UInt8.ofNat (n % 64 + 128)]) := by
  intro u v
  rw [List.append_assoc, List.append_assoc]
  rcases Nat.lt_or_eq_of_le (Nat.div_le_div_right (c := 64) (Nat.le_of_lt h)) with hhigh | hhigh
  · exact hlt hhigh _ _
  · rw [heq hhigh]
    exact List.append_left_lt (before_of_lt (by omega) (by omega) [] [] u v)

/-! ## 2. Characters of one length -/

theorem before_two {m n : Nat} (h : m < n) (hn : n ≤ 0x7ff) :
    Before [UInt8.ofNat (m / 64 % 32 + 192), UInt8.ofNat (m % 64 + 128)]
      [UInt8.ofNat (n / 64 % 32 + 192), UInt8.ofNat (n % 64 + 128)] :=
  before_append_lastBits (p := [_]) (q := [_]) h
    (fun hlt => before_of_lt (by omega) (by omega) _ _) (fun heq => by rw [heq])

theorem before_three {m n : Nat} (h : m < n) (hn : n ≤ 0xffff) :
    Before
      [UInt8.ofNat (m / 4096 % 16 + 224), UInt8.ofNat (m / 64 % 64 + 128),
        UInt8.ofNat (m % 64 + 128)]
      [UInt8.ofNat (n / 4096 % 16 + 224), UInt8.ofNat (n / 64 % 64 + 128),
        UInt8.ofNat (n % 64 + 128)] := by
  have hdiv (k : Nat) : k / 4096 = k / 64 / 64 := (Nat.div_div_eq_div_mul k 64 64).symm
  rw [hdiv m, hdiv n]
  refine before_append_lastBits (p := [_, _]) (q := [_, _]) h (fun hlt => ?_) fun heq => by rw [heq]
  exact before_append_lastBits (p := [_]) (q := [_]) hlt
    (fun hlt => before_of_lt (by omega) (by omega) _ _) fun heq => by rw [heq]

theorem before_four {m n : Nat} (h : m < n) (hn : n < 0x110000) :
    Before
      [UInt8.ofNat (m / 262144 % 8 + 240), UInt8.ofNat (m / 4096 % 64 + 128),
        UInt8.ofNat (m / 64 % 64 + 128), UInt8.ofNat (m % 64 + 128)]
      [UInt8.ofNat (n / 262144 % 8 + 240), UInt8.ofNat (n / 4096 % 64 + 128),
        UInt8.ofNat (n / 64 % 64 + 128), UInt8.ofNat (n % 64 + 128)] := by
  have hdiv (k : Nat) : k / 4096 = k / 64 / 64 := (Nat.div_div_eq_div_mul k 64 64).symm
  have hdiv' (k : Nat) : k / 262144 = k / 64 / 64 / 64 := by simp only [Nat.div_div_eq_div_mul]
  rw [hdiv m, hdiv n, hdiv' m, hdiv' n]
  refine before_append_lastBits (p := [_, _, _]) (q := [_, _, _]) h (fun hlt => ?_)
    fun heq => by rw [heq]
  refine before_append_lastBits (p := [_, _]) (q := [_, _]) hlt (fun hlt => ?_)
    fun heq => by rw [heq]
  exact before_append_lastBits (p := [_]) (q := [_]) hlt
    (fun hlt => before_of_lt (by omega) (by omega) _ _) fun heq => by rw [heq]

/-! ## 3. Characters and strings -/

/-- **A lesser character has lesser bytes**, whatever follows.  Characters of fewer bytes start
with a lesser one; among those of one length the first six bits that differ decide. -/
theorem before_utf8EncodeChar {c d : Char} (h : c < d) :
    Before (utf8EncodeChar c) (utf8EncodeChar d) := by
  have hlt : c.val.toNat < d.val.toNat := h
  have hmax : d.val.toNat < 0x110000 := by
    rcases d.valid with hd | ⟨-, hd⟩
    · exact Nat.lt_trans hd (by decide)
    · exact hd
  unfold utf8EncodeChar
  dsimp only
  generalize c.val.toNat = m at hlt
  generalize d.val.toNat = n at hlt hmax
  by_cases hn : n ≤ 0x7f
  · rw [if_pos hn, if_pos (by omega)]
    exact before_of_lt hlt (by omega) _ _
  rw [if_neg hn]
  by_cases hm : m ≤ 0x7f
  · rw [if_pos hm]
    split_ifs
    all_goals exact before_of_lt (by omega) (by omega) _ _
  rw [if_neg hm]
  by_cases hn' : n ≤ 0x7ff
  · rw [if_pos hn', if_pos (by omega)]
    exact before_two hlt hn'
  rw [if_neg hn']
  by_cases hm' : m ≤ 0x7ff
  · rw [if_pos hm']
    split_ifs
    all_goals exact before_of_lt (by omega) (by omega) _ _
  rw [if_neg hm']
  by_cases hn'' : n ≤ 0xffff
  · rw [if_pos hn'', if_pos (by omega)]
    exact before_three hlt hn''
  rw [if_neg hn'']
  by_cases hm'' : m ≤ 0xffff
  · rw [if_pos hm'']
    exact before_of_lt (by omega) (by omega) _ _
  rw [if_neg hm'']
  exact before_four hlt hmax

/-- The bytes of a string in UTF-8. -/
def bytes (s : String) : List UInt8 := s.toUTF8.data.toList

theorem bytes_eq (s : String) : bytes s = s.toList.flatMap utf8EncodeChar := by
  rw [bytes, String.toUTF8, ← String.utf8Encode_toList, List.utf8Encode, List.data_toByteArray,
    List.toList_toArray]

/-- Lists of characters ascend in bytes. -/
theorem flatMap_utf8EncodeChar_lt : ∀ {s t : List Char}, s < t →
    s.flatMap utf8EncodeChar < t.flatMap utf8EncodeChar
  | [], [], h => absurd h (List.not_lt_nil _)
  | [], d :: t, _ => by
    have hne : utf8EncodeChar d ≠ [] := List.ne_nil_of_length_pos (String.length_utf8EncodeChar d ▸
      Char.utf8Size_pos d)
    obtain ⟨byte, rest, hd⟩ := List.exists_cons_of_ne_nil hne
    rw [List.flatMap_cons, hd]
    exact List.nil_lt_cons _ _
  | c :: s, [], h => absurd h (List.not_lt_nil _)
  | c :: s, d :: t, h => by
    rw [List.flatMap_cons, List.flatMap_cons]
    rcases List.cons_lt_cons_iff.mp h with hcd | ⟨rfl, hst⟩
    · exact before_utf8EncodeChar hcd _ _
    · exact List.append_left_lt (flatMap_utf8EncodeChar_lt hst)

/-- **Strings are ordered as their bytes are.** -/
theorem lt_iff_bytes_lt {s t : String} : s < t ↔ bytes s < bytes t := by
  have hlt {s t : String} (h : s < t) : bytes s < bytes t := by
    rw [bytes_eq, bytes_eq]
    exact flatMap_utf8EncodeChar_lt h
  refine ⟨hlt, fun h => ?_⟩
  -- the order of strings is total, so any other order of the two is against `h`
  rcases Std.lt_trichotomy s t with hst | rfl | hts
  · exact hst
  · exact absurd h (List.lt_irrefl _)
  · exact absurd (hlt hts) (List.lt_asymm h)

end Text

/-- The keys of a table ascend in bytes. -/
theorem Table.pairwise_keys_bytes {α : Type} (t : Table α) :
    t.keys.Pairwise fun a b => Text.bytes a < Text.bytes b :=
  t.pairwise_keys.imp Text.lt_iff_bytes_lt.mp

end Cooling

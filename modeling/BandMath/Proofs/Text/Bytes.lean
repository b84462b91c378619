/-
# The order of texts

Texts are ordered by their characters, and characters by their numbers.  Written in UTF-8, a
character is a first byte and up to three bytes that continue it, each with one digit of the number
to the base 64, the most significant digits first (`utf8EncodeChar_eq`).  Of two characters with
equally many bytes the one of the greater number therefore has the greater bytes; and the more bytes
there are, the greater is the first of them.  So the order of texts is that of their bytes
(`Text.bytes_lt_bytes_iff`).

This matters because maps with texts as keys are listed in the order of their keys.  Texts compare
by characters here, while an order by bytes is what keys are commonly listed by; that the two are
the same is what makes "the least key" mean one thing.

The order of two texts is decided at the first place where they differ, so the step from characters
to texts needs a statement about characters with any bytes after them
(`utf8EncodeChar_append_lt`).  Within a character the bytes that continue it compare like the digits
of a number (`continuation_append_lt`).
-/
import Mathlib.Data.String.Basic

namespace BandMath.Text

/-- The bytes of a text in UTF-8. -/
def bytes (s : String) : List UInt8 :=
  s.toUTF8.data.toList

theorem bytes_eq_flatMap (s : String) : bytes s = s.toList.flatMap String.utf8EncodeChar := by
  have hbytes : s.toByteArray = (s.toList.flatMap String.utf8EncodeChar).toByteArray := by
    rw [← List.utf8Encode, ← String.toByteArray_ofList, String.ofList_toList]
  rw [bytes, String.toUTF8_eq_toByteArray, hbytes, List.data_toByteArray]

/-! ## 1. The bytes of a character -/

/-- The last `k` digits of a number to the base 64, each as a byte that continues a character. -/
def continuation (v : Nat) : Nat → List UInt8
  | 0 => []
  | k + 1 => .ofNat (v / 64 ^ k % 64 + 128) :: continuation v k

/-- How many bytes continue the character of a number. -/
def continuationLength (v : Nat) : Nat :=
  if v ≤ 127 then 0 else if v ≤ 2047 then 1 else if v ≤ 65535 then 2 else 3

/-- The first byte of the character of a number. -/
def firstByte (v : Nat) : Nat :=
  if v ≤ 127 then v
  else if v ≤ 2047 then v / 64 + 192
  else if v ≤ 65535 then v / 4096 + 224
  else v / 262144 + 240

theorem toNat_lt (c : Char) : c.toNat < 1114112 := by
  rcases c.valid with h | ⟨-, h⟩
  · exact Nat.lt_trans h (by decide)
  · exact h

theorem utf8EncodeChar_eq (c : Char) : String.utf8EncodeChar c =
    .ofNat (firstByte c.toNat) :: continuation c.toNat (continuationLength c.toNat) := by
  have hlt := toNat_lt c
  have hnat : c.val.toNat = c.toNat := rfl
  unfold String.utf8EncodeChar firstByte continuationLength
  simp only [hnat]
  split
  · rfl
  · split
    · have hfirst : c.toNat / 64 % 32 = c.toNat / 64 := by omega
      simp [continuation, hfirst]
    · split
      · have hfirst : c.toNat / 4096 % 16 = c.toNat / 4096 := by omega
        simp [continuation, hfirst]
      · have hfirst : c.toNat / 262144 % 8 = c.toNat / 262144 := by omega
        simp [continuation, hfirst]

/-! ## 2. The order of characters -/

variable {v w : Nat}

theorem ofNat_lt_ofNat (hw : w < 256) (h : v < w) : UInt8.ofNat v < UInt8.ofNat w := by
  rw [UInt8.lt_iff_toNat_lt, UInt8.toNat_ofNat', UInt8.toNat_ofNat',
    Nat.mod_eq_of_lt (Nat.lt_trans h hw), Nat.mod_eq_of_lt hw]
  exact h

/-- Of two numbers that differ in their last `k` digits only, the greater one has the greater
digits. -/
theorem continuation_append_lt (h : v < w) (l m : List UInt8) : ∀ k, v / 64 ^ k = w / 64 ^ k →
    continuation v k ++ l < continuation w k ++ m
  | 0, heq => by
    rw [Nat.pow_zero, Nat.div_one, Nat.div_one] at heq
    exact absurd heq (Nat.ne_of_lt h)
  | k + 1, heq => by
    rw [Nat.pow_succ, ← Nat.div_div_eq_div_mul, ← Nat.div_div_eq_div_mul] at heq
    have hle : v / 64 ^ k ≤ w / 64 ^ k := Nat.div_le_div_right (Nat.le_of_lt h)
    rw [continuation, continuation, List.cons_append, List.cons_append, List.cons_lt_cons_iff]
    -- the digits before are the same, so either this one decides or it is the same as well
    rcases Nat.lt_or_eq_of_le hle with hdigit | hdigit
    · exact .inl (ofNat_lt_ofNat (by omega) (by omega))
    · exact .inr ⟨by rw [hdigit], continuation_append_lt h l m k hdigit⟩

/-- The first byte is greater for a greater number, unless the numbers differ only in the digits
that continue it. -/
theorem firstByte_lt_or_eq (h : v < w) : firstByte v < firstByte w ∨
    firstByte v = firstByte w ∧ continuationLength v = continuationLength w ∧
      v / 64 ^ continuationLength v = w / 64 ^ continuationLength v := by
  unfold firstByte continuationLength
  split_ifs
  all_goals omega

theorem firstByte_lt (h : v < 1114112) : firstByte v < 256 := by
  unfold firstByte
  split_ifs
  all_goals omega

/-- Whatever follows, the bytes of the greater character are greater. -/
theorem utf8EncodeChar_append_lt {c d : Char} (h : c < d) (l m : List UInt8) :
    String.utf8EncodeChar c ++ l < String.utf8EncodeChar d ++ m := by
  have hval : c.toNat < d.toNat := h
  rw [utf8EncodeChar_eq, utf8EncodeChar_eq, List.cons_append, List.cons_append,
    List.cons_lt_cons_iff]
  rcases firstByte_lt_or_eq hval with hfirst | ⟨hfirst, hlength, hrest⟩
  · exact .inl (ofNat_lt_ofNat (firstByte_lt (toNat_lt d)) hfirst)
  · rw [hfirst, ← hlength]
    exact .inr ⟨rfl, continuation_append_lt hval l m _ hrest⟩

/-! ## 3. The order of texts -/

theorem flatMap_utf8EncodeChar_lt : ∀ {cs ds : List Char}, cs < ds →
    cs.flatMap String.utf8EncodeChar < ds.flatMap String.utf8EncodeChar
  | [], d :: ds, _ => by
    rw [List.flatMap_nil, List.flatMap_cons, utf8EncodeChar_eq]
    exact List.nil_lt_cons ..
  | c :: cs, d :: ds, h => by
    rw [List.flatMap_cons, List.flatMap_cons]
    rcases List.cons_lt_cons_iff.mp h with hhead | ⟨rfl, htail⟩
    · exact utf8EncodeChar_append_lt hhead _ _
    · exact List.append_left_lt (flatMap_utf8EncodeChar_lt htail)

/-- **The order of texts is that of their bytes.** -/
theorem bytes_lt_bytes_iff {s t : String} : bytes s < bytes t ↔ s < t := by
  have hmono : ∀ {s t : String}, s < t → bytes s < bytes t := fun h => by
    rw [bytes_eq_flatMap, bytes_eq_flatMap]
    exact flatMap_utf8EncodeChar_lt (String.lt_iff_toList_lt.mp h)
  refine ⟨fun h => ?_, hmono⟩
  rcases lt_trichotomy s t with hlt | rfl | hgt
  · exact hlt
  · exact absurd h (List.lt_irrefl _)
  · exact absurd (hmono hgt) (List.lt_asymm h)

end BandMath.Text

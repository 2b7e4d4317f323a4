/-
# Cvf.Library.Utf8 — text compared by its UTF-8 bytes.

The lexicographic order of the UTF-8 bytes of two texts is the lexicographic order of their code points
(`utf8Bytes_lt_iff`), so a store that compares bytes sorts text as a language that compares characters.
-/
import Mathlib

namespace Cvf.Library

def utf8Bytes (text : String) : List UInt8 := text.toList.flatMap String.utf8EncodeChar

/-- The four groups of bits of a longest code compare as the numbers do. -/
theorem four_groups_lt {v w : Nat} (hlt : v < w) (hw : w < 0x200000) :
    v / 262144 % 8 < w / 262144 % 8 ∨ v / 262144 % 8 = w / 262144 % 8 ∧
      (v / 4096 % 64 < w / 4096 % 64 ∨ v / 4096 % 64 = w / 4096 % 64 ∧
        (v / 64 % 64 < w / 64 % 64 ∨ v / 64 % 64 = w / 64 % 64 ∧ v % 64 < w % 64)) := by
  have groups : ∀ n < 0x200000, n = 262144 * (n / 262144 % 8) + 4096 * (n / 4096 % 64) +
      64 * (n / 64 % 64) + n % 64 := by
    intro n hn
    omega
  have bound : ∀ n : Nat, n % 64 < 64 := fun n => Nat.mod_lt n (by omega)
  have hv := groups v (hlt.trans hw)
  have hw := groups w hw
  have hv2 := bound (v / 4096)
  have hv3 := bound (v / 64)
  have hv4 := bound v
  have hw2 := bound (w / 4096)
  have hw3 := bound (w / 64)
  have hw4 := bound w
  generalize v / 262144 % 8 = v1 at *
  generalize v / 4096 % 64 = v2 at *
  generalize v / 64 % 64 = v3 at *
  generalize v % 64 = v4 at *
  generalize w / 262144 % 8 = w1 at *
  generalize w / 4096 % 64 = w2 at *
  generalize w / 64 % 64 = w3 at *
  generalize w % 64 = w4 at *
  omega

/-- The code of a smaller character is smaller, whatever follows the two. -/
theorem utf8EncodeChar_append_lt {c d : Char} (h : c < d) (x y : List UInt8) :
    String.utf8EncodeChar c ++ x < String.utf8EncodeChar d ++ y := by
  have hlt : c.val.toNat < d.val.toNat := h
  have hd : d.val.toNat < 0x110000 := by
    have hvalid := d.valid
    simp only [UInt32.isValidChar, Nat.isValidChar] at hvalid
    omega
  unfold String.utf8EncodeChar
  dsimp only
  generalize c.val.toNat = v at hlt ⊢
  generalize d.val.toNat = w at hlt hd ⊢
  have hlong : ¬ w ≤ 0xffff → ¬ v ≤ 0xffff →
      v / 262144 % 8 + 240 < w / 262144 % 8 + 240 ∨ v / 262144 % 8 + 240 = w / 262144 % 8 + 240 ∧
        (v / 4096 % 64 + 128 < w / 4096 % 64 + 128 ∨ v / 4096 % 64 + 128 = w / 4096 % 64 + 128 ∧
          (v / 64 % 64 + 128 < w / 64 % 64 + 128 ∨ v / 64 % 64 + 128 = w / 64 % 64 + 128 ∧
            (v % 64 + 128 < w % 64 + 128 ∨ v % 64 + 128 = w % 64 + 128 ∧ x < y))) := by
    intro _ _
    have hgroups := four_groups_lt hlt (hd.trans (by omega))
    simp only [Nat.add_lt_add_iff_right, Nat.add_right_cancel_iff]
    tauto
  have hlead : ∀ n, (n % 8 + 240) % 2 ^ 8 = n % 8 + 240 := by omega
  have htrail : ∀ n, (n % 64 + 128) % 2 ^ 8 = n % 64 + 128 := by omega
  -- the codes of different lengths differ in the leading byte
  split_ifs
  all_goals
    simp only [List.cons_append, List.nil_append, List.cons_lt_cons_iff, UInt8.lt_iff_toNat_lt,
      ← UInt8.toNat_inj, UInt8.toNat_ofNat', hlead, htrail]
  all_goals first | exact hlong ‹_› ‹_› | (clear hlong; omega)

theorem utf8Bytes_lt_of_lt {s t : List Char} (h : s < t) :
    s.flatMap String.utf8EncodeChar < t.flatMap String.utf8EncodeChar := by
  induction s generalizing t with
  | nil =>
      cases t with
      | nil => exact absurd h (lt_irrefl _)
      | cons d t =>
          rw [List.flatMap_nil, List.flatMap_cons]
          have hne : String.utf8EncodeChar d ≠ [] := by simp
          obtain ⟨b, bs, hbs⟩ := List.exists_cons_of_ne_nil hne
          rw [hbs]
          exact List.nil_lt_cons _ _
  | cons c s ih =>
      cases t with
      | nil => exact absurd h (List.not_lt_nil _)
      | cons d t =>
          rw [List.flatMap_cons, List.flatMap_cons]
          rcases List.cons_lt_cons_iff.mp h with hcd | ⟨rfl, hst⟩
          · exact utf8EncodeChar_append_lt hcd _ _
          · exact List.append_left_lt (ih hst)

/-- Byte order is code-point order. -/
theorem utf8Bytes_lt_iff {s t : String} : utf8Bytes s < utf8Bytes t ↔ s < t := by
  constructor
  · intro h
    rcases lt_trichotomy s t with hlt | rfl | hgt
    · exact hlt
    · exact absurd h (List.lt_irrefl _)
    · exact absurd h (List.lt_asymm (utf8Bytes_lt_of_lt (String.lt_iff_toList_lt.mp hgt)))
  · exact fun h => utf8Bytes_lt_of_lt (String.lt_iff_toList_lt.mp h)

theorem utf8Bytes_inj {s t : String} : utf8Bytes s = utf8Bytes t ↔ s = t := by
  constructor
  · intro h
    rcases lt_trichotomy s t with hlt | rfl | hgt
    · have hbytes := utf8Bytes_lt_iff.mpr hlt
      exact absurd (h ▸ hbytes) (List.lt_irrefl _)
    · rfl
    · have hbytes := utf8Bytes_lt_iff.mpr hgt
      exact absurd (h ▸ hbytes) (List.lt_irrefl _)
  · exact fun h => h ▸ rfl

end Cvf.Library

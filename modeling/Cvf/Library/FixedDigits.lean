/-
# Cvf.Library.FixedDigits — numbers written with a fixed number of digits.

`fixedDigits b width n` is the zero-padded positional text of a number below `b ^ width`, most
significant digit first; reading the digits back gives the number.  `hexText` is the same with the
characters of lower-case hexadecimal.
-/
import Mathlib

namespace Cvf.Library

/-- The `width` low digits of `n` in base `b`, most significant first. -/
def fixedDigits (b : Nat) : Nat → Nat → List Nat
  | 0, _ => []
  | width + 1, n => fixedDigits b width (n / b) ++ [n % b]

/-- The number a list of digits spells in base `b`. -/
def ofDigits (b : Nat) (ds : List Nat) : Nat :=
  ds.foldl (fun n d => b * n + d) 0

@[simp]
theorem length_fixedDigits (b width n : Nat) : (fixedDigits b width n).length = width := by
  induction width generalizing n with
  | zero => rfl
  | succ width ih => simp [fixedDigits, ih]

theorem lt_of_mem_fixedDigits {b width n d : Nat} (hb : 0 < b) (h : d ∈ fixedDigits b width n) :
    d < b := by
  induction width generalizing n with
  | zero => cases h
  | succ width ih =>
      rcases List.mem_append.mp h with h | h
      · exact ih h
      · obtain rfl : d = n % b := by simpa using h
        exact Nat.mod_lt n hb

/-- Reading back gives the number, up to the digits that were cut off. -/
theorem ofDigits_fixedDigits (b width n : Nat) :
    ofDigits b (fixedDigits b width n) = n % b ^ width := by
  induction width generalizing n with
  | zero => simp [fixedDigits, ofDigits, Nat.mod_one]
  | succ width ih =>
      have hrest : ofDigits b (fixedDigits b width (n / b)) = n / b % b ^ width := ih (n / b)
      unfold ofDigits at hrest ⊢
      rw [fixedDigits, List.foldl_append, hrest, List.foldl_cons, List.foldl_nil, pow_succ',
        Nat.mod_mul]
      exact Nat.add_comm _ _

/-- The lower-case hexadecimal digit. -/
def hexChar (d : Nat) : Char :=
  if d < 10 then Char.ofNat (48 + d) else Char.ofNat (87 + d)

/-- `format(n, "0{width}x")`, for a number that fits. -/
def hexText (width n : Nat) : List Char :=
  (fixedDigits 16 width n).map hexChar

@[simp]
theorem length_hexText (width n : Nat) : (hexText width n).length = width := by
  simp [hexText]

theorem exists_hexChar_of_mem {width n : Nat} {c : Char} (h : c ∈ hexText width n) :
    ∃ d < 16, c = hexChar d := by
  obtain ⟨d, hd, rfl⟩ := List.mem_map.mp h
  exact ⟨d, lt_of_mem_fixedDigits (by omega) hd, rfl⟩

theorem hexChar_inj {d e : Nat} (hd : d < 16) (he : e < 16) (h : hexChar d = hexChar e) : d = e := by
  have hall : ∀ d < 16, ∀ e < 16, hexChar d = hexChar e → d = e := by decide
  exact hall d hd e he h

theorem map_hexChar_inj {ds es : List Nat} (hds : ∀ d ∈ ds, d < 16) (hes : ∀ e ∈ es, e < 16)
    (h : ds.map hexChar = es.map hexChar) : ds = es := by
  induction ds generalizing es with
  | nil => exact (List.map_eq_nil_iff.mp h.symm).symm
  | cons d ds ih =>
    obtain ⟨e, es', rfl, hchar, hrest⟩ := List.map_eq_cons_iff.mp h.symm
    rw [hexChar_inj (hds d List.mem_cons_self) (hes e List.mem_cons_self) hchar.symm,
      ih (fun d hd => hds d (List.mem_cons_of_mem _ hd)) (fun e he => hes e (List.mem_cons_of_mem _ he))
        hrest.symm]

/-- Numbers that fit are told apart by their text. -/
theorem hexText_inj {width m n : Nat} (hm : m < 16 ^ width) (hn : n < 16 ^ width)
    (h : hexText width m = hexText width n) : m = n := by
  have hdigits : fixedDigits 16 width m = fixedDigits 16 width n :=
    map_hexChar_inj (fun _ => lt_of_mem_fixedDigits (by norm_num))
      (fun _ => lt_of_mem_fixedDigits (by norm_num)) h
  have hread := congrArg (ofDigits 16) hdigits
  rwa [ofDigits_fixedDigits, ofDigits_fixedDigits, Nat.mod_eq_of_lt hm, Nat.mod_eq_of_lt hn] at hread

end Cvf.Library

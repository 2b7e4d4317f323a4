/-
# Cvf.Symbol — canonical perpetual symbols.

`validate_canonical_symbol` strips, upper-cases and matches `BASE-QUOTE-PERP`; the wildcard `*` is
admitted on request.  What it returns is a fixed point of it (`validateCanonicalSymbol_idem`), so a
record built from a validated key passes its own symbol check unchanged.
-/
import Cvf.Text

namespace Cvf

/-- Is every character whitespace: `not value or value.isspace()`. -/
def isBlank (value : String) : Bool := value.toList.all isPySpace

/-- `str.upper` on one character.  Listed are the characters outside ASCII whose upper case is ASCII;
the upper case of every other one keeps a character outside ASCII, which the pattern refuses, so it
stands for itself here. -/
def pyUpper (c : Char) : List Char :=
  match c.toNat with
  | 0xdf => ['S', 'S']
  | 0x131 => ['I']
  | 0x17f => ['S']
  | 0xfb00 => ['F', 'F']
  | 0xfb01 => ['F', 'I']
  | 0xfb02 => ['F', 'L']
  | 0xfb03 => ['F', 'F', 'I']
  | 0xfb04 => ['F', 'F', 'L']
  | 0xfb05 => ['S', 'T']
  | 0xfb06 => ['S', 'T']
  | _ => [c.toUpper]

/-- `[A-Z0-9]`. -/
def isSymbolChar (c : Char) : Bool :=
  (65 ≤ c.toNat && c.toNat ≤ 90) || (48 ≤ c.toNat && c.toNat ≤ 57)

/-- `^[A-Z0-9]+-[A-Z0-9]+-PERP$`, matched against the whole text. -/
def matchesPerpetualPattern (cs : List Char) : Bool :=
  match cs.splitOn '-' with
  | [base, quote, perp] =>
    !base.isEmpty && base.all isSymbolChar && !quote.isEmpty && quote.all isSymbolChar &&
      perp == ['P', 'E', 'R', 'P']
  | _ => false

/-- `value.strip().upper()`. -/
def normalizedSymbol (value : String) : List Char := (pyStrip value.toList).flatMap pyUpper

/-- `validate_canonical_symbol`. -/
def validateCanonicalSymbol (value : String) (allowWildcard : Bool) : Except String String :=
  let normalized := normalizedSymbol value
  if allowWildcard ∧ normalized = ['*'] then .ok (String.ofList normalized)
  else if matchesPerpetualPattern normalized then .ok (String.ofList normalized)
  else .error s!"invalid canonical perpetual symbol '{value}'; expected BASE-QUOTE-PERP"

example : validateCanonicalSymbol " btc-usdt-perp " false = .ok "BTC-USDT-PERP" := by decide +kernel
example : validateCanonicalSymbol "*" true = .ok "*" := by decide +kernel

/-! ## The validated text is a fixed point -/

/-- The characters a canonical symbol is made of. -/
def isCanonicalChar (c : Char) : Bool := isSymbolChar c || c == '-' || c == '*'

theorem canonicalChars_of_matches {cs : List Char} (h : matchesPerpetualPattern cs = true) :
    ∀ c ∈ cs, isCanonicalChar c = true := by
  unfold matchesPerpetualPattern at h
  split at h
  case h_2 => cases h
  case h_1 base quote perp hsplit =>
    simp only [Bool.and_eq_true, beq_iff_eq, List.all_eq_true] at h
    obtain ⟨⟨⟨⟨-, hbase⟩, -⟩, hquote⟩, rfl⟩ := h
    have hcs : cs = base ++ '-' :: (quote ++ '-' :: ['P', 'E', 'R', 'P']) := by
      have hrejoined : ['-'].intercalate (cs.splitOn '-') = cs := List.intercalate_splitOn '-'
      rw [← hrejoined, hsplit]
      simp [List.intercalate]
    subst hcs
    intro c hc
    simp only [List.mem_append, List.mem_cons, List.not_mem_nil, or_false] at hc
    rcases hc with hc | rfl | hc | rfl | rfl | rfl | rfl | rfl
    · simp [isCanonicalChar, hbase c hc]
    · decide
    · simp [isCanonicalChar, hquote c hc]
    all_goals decide

/-- A canonical character is its own upper case and no whitespace. -/
theorem pyUpper_of_canonical {c : Char} (h : isCanonicalChar c = true) :
    pyUpper c = [c] ∧ isPySpace c = false := by
  have hbound : c.toNat < 91 := by
    simp only [isCanonicalChar, isSymbolChar, Bool.or_eq_true, Bool.and_eq_true, decide_eq_true_eq,
      beq_iff_eq] at h
    rcases h with (⟨-, h⟩ | ⟨-, h⟩) | rfl | rfl
    · omega
    · omega
    · decide
    · decide
  have hbelow : ∀ n < 91, isCanonicalChar (Char.ofNat n) = true →
      pyUpper (Char.ofNat n) = [Char.ofNat n] ∧ isPySpace (Char.ofNat n) = false := by
    decide +kernel
  have hc := hbelow c.toNat hbound
  rw [Char.ofNat_toNat] at hc
  exact hc h

theorem pyStrip_of_canonical {cs : List Char} (h : ∀ c ∈ cs, isCanonicalChar c = true) :
    pyStrip cs = cs := by
  have hkeep : ∀ ds : List Char, (∀ c ∈ ds, isCanonicalChar c = true) →
      ds.dropWhile isPySpace = ds := by
    intro ds hds
    apply List.dropWhile_eq_self_iff.mpr
    intro hlength
    simp [(pyUpper_of_canonical (hds _ (List.getElem_mem hlength))).2]
  have hreverse : ∀ c ∈ cs.reverse, isCanonicalChar c = true :=
    fun c hc => h c (List.mem_reverse.mp hc)
  rw [pyStrip, hkeep cs h, hkeep cs.reverse hreverse, List.reverse_reverse]

theorem normalizedSymbol_of_canonical {cs : List Char} (h : ∀ c ∈ cs, isCanonicalChar c = true) :
    normalizedSymbol (String.ofList cs) = cs := by
  rw [normalizedSymbol, String.toList_ofList, pyStrip_of_canonical h]
  induction cs with
  | nil => rfl
  | cons c cs ih =>
      rw [List.flatMap_cons, (pyUpper_of_canonical (h c (by simp))).1,
        ih fun c' hc' => h c' (by simp [hc'])]
      rfl

theorem validateCanonicalSymbol_ok {value symbol : String} {allowWildcard : Bool}
    (h : validateCanonicalSymbol value allowWildcard = .ok symbol) :
    ∃ cs, symbol = String.ofList cs ∧
      ((allowWildcard = true ∧ cs = ['*']) ∨ matchesPerpetualPattern cs = true) := by
  simp only [validateCanonicalSymbol] at h
  split at h
  case isTrue hwild => exact ⟨_, (Except.ok.inj h).symm, Or.inl hwild⟩
  case isFalse =>
    split at h
    case isTrue hmatch => exact ⟨_, (Except.ok.inj h).symm, Or.inr hmatch⟩
    case isFalse => cases h

/-- Validating a validated symbol returns it. -/
theorem validateCanonicalSymbol_idem {value symbol : String} {allowWildcard : Bool}
    (h : validateCanonicalSymbol value allowWildcard = .ok symbol) :
    validateCanonicalSymbol symbol allowWildcard = .ok symbol := by
  obtain ⟨cs, rfl, hcs⟩ := validateCanonicalSymbol_ok h
  have hcanonical : ∀ c ∈ cs, isCanonicalChar c = true := by
    rcases hcs with ⟨-, rfl⟩ | hmatch
    · intro c hc
      rw [List.mem_singleton] at hc
      subst hc
      decide
    · exact canonicalChars_of_matches hmatch
  unfold validateCanonicalSymbol
  rw [normalizedSymbol_of_canonical hcanonical]
  rcases hcs with hwild | hmatch
  · simp [hwild]
  · simp [hmatch]

theorem validateCanonicalSymbol_bitcoin :
    validateCanonicalSymbol "BTC-USDT-PERP" true = .ok "BTC-USDT-PERP" := by
  decide +kernel

end Cvf

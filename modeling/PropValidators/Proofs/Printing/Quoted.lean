import Mathlib.Tactic.SplitIfs
import PropValidators.Json.Reader
import PropValidators.Text.Quoted

/-!
# Quoted text that is read back

The double-quoted form of a string is read as a JSON string.  What is read is the string, up to
the quote that closes it, whatever stands behind that quote.  So a quoted string ends in one place
only, also if there are quotes in it.
-/

namespace PropValidators

open Text

private theorem hexDigit?_digitChar :
    ∀ digit < 16, Json.hexDigit? (Nat.digitChar digit) = some digit := by
  decide

/-- A digit more is written at the end. -/
theorem hex_succ {width n : Nat} (some : 0 < width) :
    hex (width + 1) n = hex width (n / 16) ++ [Nat.digitChar (n % 16)] := by
  by_cases single : n < 16
  · obtain ⟨fewer, rfl⟩ := Nat.exists_eq_succ_of_ne_zero (Nat.ne_of_gt some)
    simp [hex, Nat.toDigits_of_lt_base single, Nat.div_eq_of_lt single, Nat.mod_eq_of_lt single,
      List.replicate_succ']
  · rw [hex, hex, Nat.toDigits_of_base_le (by decide) (by omega)]
    simp

/-- A UTF-16 unit is written with four digits. -/
theorem hex_four {unit : Nat} (small : unit < 0x10000) :
    hex 4 unit =
      [Nat.digitChar (unit / 16 / 16 / 16), Nat.digitChar (unit / 16 / 16 % 16),
        Nat.digitChar (unit / 16 % 16), Nat.digitChar (unit % 16)] := by
  have first : unit / 16 / 16 / 16 < 16 := by omega
  rw [hex_succ (by decide), hex_succ (by decide), hex_succ (by decide), hex,
    Nat.toDigits_of_lt_base first]
  rfl

theorem unit?_digitChar {unit : Nat} (small : unit < 0x10000) :
    Json.unit? (Nat.digitChar (unit / 16 / 16 / 16)) (Nat.digitChar (unit / 16 / 16 % 16))
      (Nat.digitChar (unit / 16 % 16)) (Nat.digitChar (unit % 16)) = some unit := by
  rw [Json.unit?, hexDigit?_digitChar _ (by omega), hexDigit?_digitChar _ (by omega),
    hexDigit?_digitChar _ (by omega), hexDigit?_digitChar _ (by omega)]
  simp only [Option.bind_eq_bind, Option.bind_some, Option.pure_def, Option.some_inj]
  omega

/-- The code points of characters leave out the surrogates. -/
theorem toNat_valid (c : Char) : c.toNat < 0xD800 ∨ 0xE000 ≤ c.toNat ∧ c.toNat < 0x110000 := by
  have valid := c.valid
  simp only [UInt32.isValidChar, Nat.isValidChar] at valid
  change c.val.toNat < _ ∨ _ ≤ c.val.toNat ∧ c.val.toNat < _
  omega

section Reading

variable {c : Char} {rest acc : List Char}

theorem scanString_unit {unit : Nat} (small : unit < 0x10000)
    (whole : Json.isHighSurrogate unit = false) :
    Json.scanString ('\\' :: 'u' :: hex 4 unit ++ rest) none acc =
      Json.scanString rest none (Json.unitChar unit :: acc) := by
  rw [hex_four small]
  simp [Json.scanString, unit?_digitChar small, whole]

theorem scanString_pair {high low : Nat} (highSmall : high < 0x10000) (lowSmall : low < 0x10000)
    (first : Json.isHighSurrogate high = true) (second : Json.isLowSurrogate low = true) :
    Json.scanString ('\\' :: 'u' :: hex 4 high ++ '\\' :: 'u' :: hex 4 low ++ rest) none acc =
      Json.scanString rest none (Json.pairChar high low :: acc) := by
  rw [hex_four highSmall, hex_four lowSmall]
  simp [Json.scanString, unit?_digitChar highSmall, unit?_digitChar lowSmall, first, second]

/-- A character is read from the units that it is written with. -/
@[simp]
theorem scanString_unitEscapes (c : Char) :
    Json.scanString (unitEscapes c ++ rest) none acc = Json.scanString rest none (c :: acc) := by
  have valid := toNat_valid c
  rw [unitEscapes, utf16Units]
  split
  · rename_i single
    have whole : (Json.isHighSurrogate c.toNat || Json.isLowSurrogate c.toNat) = false := by
      simp only [Json.isHighSurrogate, Json.isLowSurrogate, Bool.or_eq_false_iff,
        Bool.and_eq_false_iff, decide_eq_false_iff_not]
      omega
    have readAs : Json.unitChar c.toNat = c := by
      rw [Json.unitChar, if_neg (by rw [whole]; decide), Char.ofNat_toNat]
    rw [List.flatMap_singleton, scanString_unit single (Bool.or_eq_false_iff.mp whole).1, readAs]
  · rename_i pair
    have readAs : Json.pairChar (0xD800 + (c.toNat - 0x10000) / 0x400)
        (0xDC00 + (c.toNat - 0x10000) % 0x400) = c := by
      have sum : 0x10000 + (0xD800 + (c.toNat - 0x10000) / 0x400 - 0xD800) * 0x400 +
          (0xDC00 + (c.toNat - 0x10000) % 0x400 - 0xDC00) = c.toNat := by omega
      rw [Json.pairChar, sum, Char.ofNat_toNat]
    have first : Json.isHighSurrogate (0xD800 + (c.toNat - 0x10000) / 0x400) = true := by
      simp only [Json.isHighSurrogate, Bool.and_eq_true, decide_eq_true_eq]
      omega
    have second : Json.isLowSurrogate (0xDC00 + (c.toNat - 0x10000) % 0x400) = true := by
      simp only [Json.isLowSurrogate, Bool.and_eq_true, decide_eq_true_eq]
      omega
    rw [List.flatMap_cons, List.flatMap_singleton,
      scanString_pair (by omega) (by omega) first second, readAs]

/-- A character is read from what stands for it between quotes. -/
@[simp]
theorem scanString_doubleQuotedChar (charset : Charset) (c : Char) :
    Json.scanString (doubleQuotedChar charset c ++ rest) none acc =
      Json.scanString rest none (c :: acc) := by
  rw [doubleQuotedChar]
  split_ifs with quote backslash feed carriage tab page back control beyond
  · subst quote
    rfl
  · subst backslash
    rfl
  · subst feed
    rfl
  · subst carriage
    rfl
  · subst tab
    rfl
  · rw [← Char.ofNat_toNat c, page]
    rfl
  · rw [← Char.ofNat_toNat c, back]
    rfl
  · exact scanString_unitEscapes c
  · exact scanString_unitEscapes c
  · rw [List.singleton_append, Json.scanString, if_neg control]
    · rfl
    · exact quote
    all_goals intros; exact backslash (by assumption)

/-- What stands behind the opening quote of a string is read as the string, up to the quote that
closes it. -/
@[simp]
theorem scanString_doubleQuoted (charset : Charset) (s : String) (rest : List Char) :
    Json.scanString (s.toList.flatMap (doubleQuotedChar charset) ++ '"' :: rest) none [] =
      some (s, rest) := by
  have read : ∀ (cs acc : List Char),
      Json.scanString (cs.flatMap (doubleQuotedChar charset) ++ '"' :: rest) none acc =
        some (String.ofList (acc.reverse ++ cs), rest) := by
    intro cs
    induction cs with
    | nil => intro acc; simp [Json.scanString]
    | cons c cs ih =>
        intro acc
        rw [List.flatMap_cons, List.append_assoc, scanString_doubleQuotedChar, ih]
        simp
  rw [read, List.reverse_nil, List.nil_append, String.ofList_toList]

end Reading

end PropValidators

import PropValidators.Proofs.Printing.Rounding

/-!
# Texts of numbers

The source text of a number tells what the number is worth.  The text of a whole number has neither
point nor exponent, and its digits are those of the number.  Any other text is that of the shortest
decimal, which rounds to one number only, however the decimal is laid out.
-/

namespace PropValidators

/-! ## Texts split in two -/

/-- A text is at its end, or goes on with one of some characters. -/
def GoesOn (stops rest : List Char) : Prop :=
  ∀ c, rest.head? = some c → c ∈ stops

@[simp]
theorem goesOn_nil (stops : List Char) : GoesOn stops [] :=
  fun _ absurd => nomatch absurd

@[simp]
theorem goesOn_cons {stops rest : List Char} {c : Char} : GoesOn stops (c :: rest) ↔ c ∈ stops := by
  simp [GoesOn]

/-- A text is split in one way only where it first goes on with some characters. -/
theorem append_inj_of_goesOn {stops cs ds xs ys : List Char} (csFree : cs.Disjoint stops)
    (dsFree : ds.Disjoint stops) (xsOn : GoesOn stops xs) (ysOn : GoesOn stops ys)
    (eq : cs ++ xs = ds ++ ys) : cs = ds ∧ xs = ys := by
  induction cs generalizing ds with
  | nil =>
      cases ds with
      | nil => exact ⟨rfl, eq⟩
      | cons d ds =>
          rw [List.nil_append] at eq
          rw [eq, List.cons_append, goesOn_cons] at xsOn
          exact absurd xsOn (dsFree List.mem_cons_self)
  | cons c cs ih =>
      cases ds with
      | nil =>
          rw [List.nil_append] at eq
          rw [← eq, List.cons_append, goesOn_cons] at ysOn
          exact absurd ysOn (csFree List.mem_cons_self)
      | cons d ds =>
          rw [List.cons_append, List.cons_append, List.cons.injEq] at eq
          rw [List.disjoint_cons_left] at csFree dsFree
          obtain ⟨rfl, rest⟩ := ih csFree.2 dsFree.2 eq.2
          exact ⟨by rw [eq.1], rest⟩

/-! ## Digits -/

/-- A list of digits. -/
def AllDigits (cs : List Char) : Prop :=
  ∀ c ∈ cs, c.isDigit = true

section Digits

variable {cs ds : List Char}

theorem AllDigits.append (left : AllDigits cs) (right : AllDigits ds) : AllDigits (cs ++ ds) :=
  List.forall_mem_append.mpr ⟨left, right⟩

theorem AllDigits.take (digits : AllDigits cs) (n : Nat) : AllDigits (cs.take n) :=
  fun c mem => digits c (List.mem_of_mem_take mem)

theorem AllDigits.drop (digits : AllDigits cs) (n : Nat) : AllDigits (cs.drop n) :=
  fun c mem => digits c (List.mem_of_mem_drop mem)

theorem AllDigits.notMem (digits : AllDigits cs) {c : Char} (other : c.isDigit = false) : c ∉ cs :=
  fun mem => Bool.false_ne_true (other.symm.trans (digits c mem))

theorem allDigits_toDigits (n : Nat) : AllDigits (Nat.toDigits 10 n) :=
  fun _ mem => Nat.isDigit_of_mem_toDigits (by decide) (by decide) mem

theorem allDigits_zeros (n : Nat) : AllDigits (List.replicate n '0') := by
  intro c mem
  rw [List.eq_of_mem_replicate mem]
  rfl

/-- The number that digits are. -/
def ofDigits (cs : List Char) : Nat :=
  Nat.ofDigitChars 10 cs 0

@[simp]
theorem ofDigits_toDigits (n : Nat) : ofDigits (Nat.toDigits 10 n) = n :=
  Nat.ofDigitChars_ten_toDigits

@[simp]
theorem ofDigits_append_zeros (cs : List Char) (n : Nat) :
    ofDigits (cs ++ List.replicate n '0') = ofDigits cs * 10 ^ n := by
  rw [ofDigits, Nat.ofDigitChars_append, Nat.ofDigitChars_replicate_zero, Nat.mul_comm, ofDigits]

@[simp]
theorem ofDigits_zeros_append (cs : List Char) (n : Nat) :
    ofDigits (List.replicate n '0' ++ cs) = ofDigits cs := by
  rw [ofDigits, Nat.ofDigitChars_append, Nat.ofDigitChars_replicate_zero, Nat.mul_zero, ofDigits]

/-- Numbers have different digits. -/
theorem toDigits_injective {m n : Nat} (eq : Nat.toDigits 10 m = Nat.toDigits 10 n) : m = n := by
  rw [← ofDigits_toDigits m, eq, ofDigits_toDigits]

end Digits

/-! ## Signs -/

/-- The sign of a number in text. -/
def signText (negative : Bool) : List Char :=
  if negative then ['-'] else []

/-- A text starts with a digit. -/
def StartsWithDigit (cs : List Char) : Prop :=
  ∃ c, cs.head? = some c ∧ c.isDigit = true

theorem AllDigits.startsWithDigit {cs : List Char} (digits : AllDigits cs) (nonempty : cs ≠ [])
    (rest : List Char) : StartsWithDigit (cs ++ rest) := by
  obtain ⟨c, tail, rfl⟩ := List.exists_cons_of_ne_nil nonempty
  exact ⟨c, rfl, digits c List.mem_cons_self⟩

theorem startsWithDigit_toDigits (n : Nat) : StartsWithDigit (Nat.toDigits 10 n) := by
  have starts := (allDigits_toDigits n).startsWithDigit Nat.toDigits_ne_nil []
  rwa [List.append_nil] at starts

/-- The sign is told apart from what starts with a digit. -/
theorem signText_append_inj {a b : Bool} {cs ds : List Char} (csDigit : StartsWithDigit cs)
    (dsDigit : StartsWithDigit ds) (eq : signText a ++ cs = signText b ++ ds) :
    a = b ∧ cs = ds := by
  have noSign : ∀ {cs ds : List Char}, StartsWithDigit cs → cs ≠ '-' :: ds := by
    rintro _ _ ⟨c, head, digit⟩ rfl
    cases head
    revert digit
    decide
  cases a <;> cases b
  · exact ⟨rfl, eq⟩
  · exact absurd eq (noSign csDigit)
  · exact absurd eq.symm (noSign dsDigit)
  · exact ⟨rfl, List.tail_eq_of_cons_eq eq⟩

/-! ## Decimal texts -/

/-- A decimal text without a sign by its parts: the digits before the point, those behind it, and
the sign and the digits of the exponent. -/
structure DecimalParts where
  whole : List Char
  fraction : Option (List Char)
  power : Option (Bool × List Char)
  wholeSome : whole ≠ []
  wholeDigits : AllDigits whole
  fractionDigits : AllDigits (fraction.getD [])
  powerDigits : ∀ sign digits, power = some (sign, digits) → AllDigits digits

namespace DecimalParts

/-- The point and what is behind it. -/
def pointText (parts : DecimalParts) : List Char :=
  match parts.fraction with
  | none => []
  | some digits => '.' :: digits

/-- The exponent with its letter and its sign. -/
def powerText (parts : DecimalParts) : List Char :=
  match parts.power with
  | none => []
  | some (negative, digits) => 'e' :: (if negative then '-' else '+') :: digits

/-- The text of the parts. -/
def text (parts : DecimalParts) : List Char :=
  parts.whole ++ parts.pointText ++ parts.powerText

/-- The exponent. -/
def exponent (parts : DecimalParts) : Int :=
  match parts.power with
  | none => 0
  | some (negative, digits) => if negative then -(ofDigits digits : Int) else ofDigits digits

/-- What the parts are worth: the digits, moved by the exponent and by the number of digits behind
the point. -/
def worth (parts : DecimalParts) : ℚ :=
  ofDigits (parts.whole ++ parts.fraction.getD []) *
    10 ^ (parts.exponent - (parts.fraction.getD []).length)

variable {left right parts : DecimalParts}

theorem goesOn_pointText (parts : DecimalParts) : GoesOn ['.'] parts.pointText := by
  rw [pointText]
  split <;> simp

theorem goesOn_powerText (parts : DecimalParts) : GoesOn ['e'] parts.powerText := by
  rw [powerText]
  split <;> simp

/-- A text with more than digits has a point or the letter of an exponent in it. -/
theorem exists_mark (parts : DecimalParts) (more : parts.pointText ++ parts.powerText ≠ []) :
    '.' ∈ parts.text ∨ 'e' ∈ parts.text := by
  rw [text, List.append_assoc]
  cases pointEq : parts.pointText with
  | cons c rest =>
      have point := parts.goesOn_pointText
      rw [pointEq, goesOn_cons, List.mem_singleton] at point
      subst point
      exact .inl (by simp)
  | nil =>
      have power := parts.goesOn_powerText
      rw [pointEq, List.nil_append] at more
      obtain ⟨c, rest, powerEq⟩ := List.exists_cons_of_ne_nil more
      rw [powerEq, goesOn_cons, List.mem_singleton] at power
      subst power
      exact .inr (by simp [powerEq])

/-- A decimal text is written with digits, a point and the letter and the sign of an exponent. -/
theorem mem_text (parts : DecimalParts) {c : Char} (mem : c ∈ parts.text) :
    c.isDigit = true ∨ c ∈ ['-', '+', '.', 'e'] := by
  rw [text, List.mem_append, List.mem_append] at mem
  rcases mem with (whole | point) | power
  · exact .inl (parts.wholeDigits c whole)
  · have digits := parts.fractionDigits
    rw [pointText] at point
    split at point
    · cases point
    · rename_i fractionEq
      rw [fractionEq, Option.getD_some] at digits
      rcases List.mem_cons.mp point with rfl | digit
      · exact .inr (by decide)
      · exact .inl (digits c digit)
  · rw [powerText] at power
    split at power
    · cases power
    · rename_i negative digits powerEq
      rcases List.mem_cons.mp power with rfl | power
      · exact .inr (by decide)
      · rcases List.mem_cons.mp power with rfl | digit
        · cases negative <;> exact .inr (by decide)
        · exact .inl (parts.powerDigits negative digits powerEq c digit)

private theorem whole_disjoint (parts : DecimalParts) : parts.whole.Disjoint ['.'] := by
  rw [List.disjoint_singleton]
  exact parts.wholeDigits.notMem rfl

private theorem mantissa_disjoint (parts : DecimalParts) :
    (parts.whole ++ parts.pointText).Disjoint ['e'] := by
  rw [List.disjoint_singleton, List.mem_append, not_or]
  refine ⟨parts.wholeDigits.notMem rfl, ?_⟩
  have digits := parts.fractionDigits
  rw [pointText]
  split
  · exact List.not_mem_nil
  · rename_i fractionEq
    rw [fractionEq, Option.getD_some] at digits
    simpa using digits.notMem (c := 'e') rfl

private theorem fraction_eq_of_pointText (eq : left.pointText = right.pointText) :
    left.fraction = right.fraction := by
  rw [pointText, pointText] at eq
  split at eq <;> split at eq <;> simp_all

private theorem power_eq_of_powerText (eq : left.powerText = right.powerText) :
    left.power = right.power := by
  have signs : ∀ a b : Bool, (if a then '-' else '+') = (if b then '-' else '+') → a = b := by
    decide
  rw [powerText, powerText] at eq
  revert eq
  rcases left.power with _ | ⟨a, ds⟩ <;> rcases right.power with _ | ⟨b, es⟩ <;> intro eq
  · rfl
  · cases eq
  · cases eq
  · rw [List.cons.injEq, List.cons.injEq] at eq
    rw [signs a b eq.2.1, eq.2.2]

/-- Texts that are the same have the same parts. -/
theorem worth_eq_of_text_eq (eq : left.text = right.text) : left.worth = right.worth := by
  obtain ⟨mantissas, powers⟩ := append_inj_of_goesOn left.mantissa_disjoint
    right.mantissa_disjoint left.goesOn_powerText right.goesOn_powerText eq
  obtain ⟨wholes, points⟩ := append_inj_of_goesOn left.whole_disjoint right.whole_disjoint
    left.goesOn_pointText right.goesOn_pointText mantissas
  rw [worth, worth, exponent, exponent, wholes, fraction_eq_of_pointText points,
    power_eq_of_powerText powers]

/-- Digits before and behind a point. -/
def positional {whole fraction : List Char} (wholeSome : whole ≠ [])
    (wholeDigits : AllDigits whole) (fractionDigits : AllDigits fraction) : DecimalParts where
  whole := whole
  fraction := some fraction
  power := none
  wholeSome := wholeSome
  wholeDigits := wholeDigits
  fractionDigits := fractionDigits
  powerDigits := fun _ _ absurd => nomatch absurd

/-- Digits with a point behind the first one, if there are more, and an exponent of some width. -/
def scientific {digits : List Char} (nonempty : 0 < digits.length) (allDigits : AllDigits digits)
    (width : Nat) (leading : Int) : DecimalParts where
  whole := digits.take 1
  fraction := if digits.length ≤ 1 then none else some (digits.drop 1)
  power :=
    let size := Nat.toDigits 10 leading.natAbs
    some (leading < 0, List.replicate (width - size.length) '0' ++ size)
  wholeSome := by
    rw [ne_eq, ← List.length_eq_zero_iff, List.length_take]
    omega
  wholeDigits := allDigits.take 1
  fractionDigits := by
    split
    · exact List.forall_mem_nil _
    · exact allDigits.drop 1
  powerDigits := by
    rintro _ _ ⟨⟩
    exact (allDigits_zeros _).append (allDigits_toDigits _)

theorem startsWithDigit (parts : DecimalParts) : StartsWithDigit parts.text := by
  rw [text, List.append_assoc]
  exact parts.wholeDigits.startsWithDigit parts.wholeSome _

section Parts

variable {whole fraction digits : List Char}

private theorem text_positional (some : whole ≠ []) (wholeDigits : AllDigits whole)
    (fractionDigits : AllDigits fraction) :
    (positional some wholeDigits fractionDigits).text = whole ++ '.' :: fraction :=
  List.append_nil _

theorem worth_positional (some : whole ≠ []) (wholeDigits : AllDigits whole)
    (fractionDigits : AllDigits fraction) :
    (positional some wholeDigits fractionDigits).worth =
      ofDigits (whole ++ fraction) * 10 ^ (-(fraction.length : Int)) := by
  rw [worth, exponent]
  simp [positional]

/-- Digits far behind the point. -/
theorem worth_behind (some : ['0'] ≠ []) (wholeDigits : AllDigits ['0']) (zeros : Nat)
    (fractionDigits : AllDigits (List.replicate zeros '0' ++ digits)) :
    (positional some wholeDigits fractionDigits).worth =
      ofDigits digits * 10 ^ (-(zeros + digits.length : Int)) := by
  have same : ofDigits (['0'] ++ (List.replicate zeros '0' ++ digits)) = ofDigits digits := by
    rw [← List.replicate_one, ofDigits_zeros_append, ofDigits_zeros_append]
  rw [worth_positional, same, List.length_append, List.length_replicate, Nat.cast_add]

/-- Digits in front of the point, with zeros between them. -/
theorem worth_before (zeros : Nat) (some : digits ++ List.replicate zeros '0' ≠ [])
    (wholeDigits : AllDigits (digits ++ List.replicate zeros '0'))
    (fractionDigits : AllDigits (List.replicate 1 '0')) :
    (positional some wholeDigits fractionDigits).worth =
      ofDigits digits * 10 ^ (zeros : Int) := by
  rw [worth_positional, ofDigits_append_zeros, ofDigits_append_zeros, List.length_replicate,
    pow_one, Nat.cast_mul, Nat.cast_one, zpow_neg_one, Nat.cast_ofNat,
    mul_inv_cancel_right₀ (by norm_num), Nat.cast_mul, Nat.cast_pow, Nat.cast_ofNat, zpow_natCast]

/-- Digits on both sides of the point. -/
theorem worth_around (before : Nat) (some : digits.take before ≠ [])
    (wholeDigits : AllDigits (digits.take before))
    (fractionDigits : AllDigits (digits.drop before)) :
    (positional some wholeDigits fractionDigits).worth =
      ofDigits digits * 10 ^ (-((digits.length - before : Nat) : Int)) := by
  rw [worth_positional, List.take_append_drop, List.length_drop]

private theorem worth_scientific (nonempty : 0 < digits.length) (allDigits : AllDigits digits)
    (width : Nat) (leading : Int) :
    (scientific nonempty allDigits width leading).worth =
      ofDigits digits * 10 ^ (leading - digits.length + 1) := by
  have power : (scientific nonempty allDigits width leading).exponent = leading := by
    rw [exponent, scientific]
    dsimp only
    rw [ofDigits_zeros_append, ofDigits_toDigits]
    simp only [decide_eq_true_eq]
    split <;> omega
  have fraction :
      (scientific nonempty allDigits width leading).fraction.getD [] = digits.drop 1 := by
    rw [scientific]
    dsimp only
    split
    · rename_i single
      rw [Option.getD_none, List.drop_eq_nil_of_le single]
    · rfl
  have whole : (scientific nonempty allDigits width leading).whole = digits.take 1 := rfl
  rw [worth, power, fraction, whole, List.take_append_drop, List.length_drop,
    Nat.cast_pred nonempty]
  congr 2
  omega

end Parts

end DecimalParts

/-- A decimal is laid out as a text that is worth the decimal and has a point or an exponent. -/
theorem exists_parts_text (layout : DecimalLayout) (digits : Nat) (exponent : Int) :
    ∃ parts : DecimalParts, parts.text = (layout.text digits exponent).toList ∧
      parts.worth = digits * 10 ^ exponent ∧ parts.pointText ++ parts.powerText ≠ [] := by
  rw [DecimalLayout.text]
  set ds := Nat.toDigits 10 digits with dsEq
  have dsDigits : AllDigits ds := allDigits_toDigits digits
  have dsWorth : ofDigits ds = digits := ofDigits_toDigits digits
  have dsSome : 0 < ds.length := Nat.length_toDigits_pos
  have dsNonempty : ds ≠ [] := List.ne_nil_of_length_pos dsSome
  dsimp only
  set leading := exponent + ds.length - 1 with leadingEq
  by_cases scaled : leading < layout.positionalFrom ∨ layout.positionalBelow ≤ leading
  · rw [if_pos scaled]
    refine ⟨.scientific dsSome dsDigits layout.exponentDigits leading, ?_, ?_, ?_⟩
    · rw [DecimalParts.text, DecimalParts.pointText, DecimalParts.powerText,
        DecimalParts.scientific]
      by_cases single : ds.length ≤ 1 <;> by_cases small : leading < 0 <;> simp [single, small]
    · rw [DecimalParts.worth_scientific dsSome dsDigits, dsWorth]
      congr 2
      omega
    · exact List.append_ne_nil_of_right_ne_nil _ (List.cons_ne_nil _ _)
  · rw [if_neg scaled]
    by_cases negative : leading < 0
    · rw [if_pos negative]
      have zeroDigits : AllDigits ['0'] := allDigits_zeros 1
      refine ⟨.positional (List.cons_ne_nil _ _) zeroDigits
        ((allDigits_zeros (leading.natAbs - 1)).append dsDigits), ?_, ?_, List.cons_ne_nil _ _⟩
      · rw [DecimalParts.text_positional]
        simp
      · rw [DecimalParts.worth_behind, dsWorth]
        congr 2
        omega
    · rw [if_neg negative]
      by_cases short : ds.length ≤ leading.toNat + 1
      · rw [if_pos short]
        refine ⟨.positional (List.append_ne_nil_of_left_ne_nil dsNonempty _)
          (dsDigits.append (allDigits_zeros (leading.toNat + 1 - ds.length))) (allDigits_zeros 1),
          ?_, ?_, List.cons_ne_nil _ _⟩
        · rw [DecimalParts.text_positional]
          simp
        · rw [DecimalParts.worth_before, dsWorth]
          congr 2
          omega
      · rw [if_neg short]
        have beforeSome : ds.take (leading.toNat + 1) ≠ [] := by
          rw [ne_eq, ← List.length_eq_zero_iff, List.length_take]
          omega
        refine ⟨.positional beforeSome (dsDigits.take (leading.toNat + 1))
          (dsDigits.drop (leading.toNat + 1)), ?_, ?_, List.cons_ne_nil _ _⟩
        · rw [DecimalParts.text_positional]
          simp
        · rw [DecimalParts.worth_around, dsWorth]
          congr 2
          omega

/-! ## Numbers -/

namespace Number

/-- A number is finite, and in standard form if it is binary64. -/
def IsFinite : Number → Prop
  | .int _ => True
  | .float (.finite _ significand exponent) => Binary64.StandardForm significand exponent
  | .float _ => False

@[simp]
theorem toList_intText (n : Int) :
    (intText n).toList = signText (n < 0) ++ Nat.toDigits 10 n.natAbs := by
  rw [intText, signText]
  by_cases negative : n < 0 <;> simp [negative, digitsText]

theorem intText_injective {m n : Int} (eq : intText m = intText n) : m = n := by
  rw [← String.toList_inj, toList_intText, toList_intText] at eq
  obtain ⟨signs, digits⟩ := signText_append_inj (startsWithDigit_toDigits _)
    (startsWithDigit_toDigits _) eq
  have sizes := toDigits_injective digits
  have sides : m < 0 ↔ n < 0 := decide_eq_decide.mp signs
  omega

/-- The text of a finite number that is no whole one: a sign and the shortest decimal. -/
def IsDecimal (n : Number) : Prop :=
  ∃ negative significand exponent, n = .float (.finite negative significand exponent) ∧
    Binary64.StandardForm significand exponent ∧ 0 < significand ∧
    ∃ parts : DecimalParts, n.sourceText.toList = signText negative ++ parts.text ∧
      parts.worth = (Binary64.shortest significand exponent).1 *
        10 ^ (Binary64.shortest significand exponent).2 ∧
      parts.pointText ++ parts.powerText ≠ []

/-- A whole number equals its integer part. -/
theorem equals_of_whole? {x : Binary64} {m : Int} (whole : x.whole? = some m) :
    (Number.float x).equals (.int m) = true := by
  rw [Binary64.whole?] at whole
  split at whole
  · split at whole
    · rename_i equal
      exact Option.some_inj.mp whole ▸ equal
    · cases whole
  · cases whole

@[simp]
theorem whole?_zero (negative : Bool) (exponent : Int) :
    (Binary64.finite negative 0 exponent).whole? = some 0 := by
  have signed : Binary64.signed negative 0 = 0 := by cases negative <;> rfl
  simp [Binary64.whole?, Binary64.truncate?, Binary64.equalsInt, signed]

/-- A finite number is written as an integer that it equals or as a decimal. -/
theorem sourceText_cases {n : Number} (finite : n.IsFinite) :
    (∃ m, n.sourceText = intText m ∧ n.equals (.int m) = true) ∨ n.IsDecimal := by
  rcases n with m | _ | _ | ⟨negative, s, e⟩
  · exact .inl ⟨m, rfl, beq_self_eq_true m⟩
  · exact finite.elim
  · exact finite.elim
  · cases whole : (Binary64.finite negative s e).whole? with
    | some m =>
        refine .inl ⟨m, ?_, equals_of_whole? whole⟩
        rw [sourceText, whole]
    | none =>
        have positive : 0 < s := by
          by_contra zero
          rw [Nat.eq_zero_of_not_pos zero, whole?_zero] at whole
          cases whole
        obtain ⟨parts, textEq, worthEq, pointed⟩ := exists_parts_text Number.layout
          (Binary64.shortest s e).1 (Binary64.shortest s e).2
        refine .inr ⟨negative, s, e, rfl, finite, positive, parts, ?_, worthEq, pointed⟩
        rw [sourceText, whole, Binary64.text, if_neg positive.ne', signText, textEq]
        cases negative <;> simp

/-- A decimal is not written as an integer. -/
theorem IsDecimal.sourceText_ne {n : Number} (decimal : n.IsDecimal) (m : Int) :
    n.sourceText ≠ intText m := by
  obtain ⟨negative, s, e, -, -, -, parts, textEq, -, pointed⟩ := decimal
  intro eq
  rw [← String.toList_inj, textEq, toList_intText] at eq
  have digits := allDigits_toDigits m.natAbs
  rw [← (signText_append_inj parts.startsWithDigit (startsWithDigit_toDigits _) eq).2] at digits
  rcases parts.exists_mark pointed with mark | mark
  · exact digits.notMem rfl mark
  · exact digits.notMem rfl mark

/-- A finite number is written with digits, signs, a point and the letter of an exponent. -/
theorem mem_sourceText {n : Number} (finite : n.IsFinite) {c : Char}
    (mem : c ∈ n.sourceText.toList) : c.isDigit = true ∨ c ∈ ['-', '+', '.', 'e'] := by
  have sign : ∀ {negative}, c ∈ signText negative → c ∈ ['-', '+', '.', 'e'] := by
    intro negative
    cases negative <;> simp +contextual [signText]
  rcases sourceText_cases finite with ⟨m, textEq, -⟩ | ⟨negative, s, e, -, -, -, parts, textEq, -⟩
  · rw [textEq, toList_intText, List.mem_append] at mem
    exact mem.symm.imp (allDigits_toDigits _ c) sign
  · rw [textEq, List.mem_append] at mem
    rcases mem with inSign | inParts
    · exact .inr (sign inSign)
    · exact parts.mem_text inParts

theorem sourceText_ne_nil {n : Number} (finite : n.IsFinite) : n.sourceText.toList ≠ [] := by
  rcases sourceText_cases finite with ⟨m, textEq, -⟩ | ⟨negative, s, e, -, -, -, parts, textEq, -⟩
  · rw [textEq, toList_intText]
    exact List.append_ne_nil_of_right_ne_nil _ Nat.toDigits_ne_nil
  · rw [textEq, DecimalParts.text, List.append_assoc]
    exact List.append_ne_nil_of_right_ne_nil _ (List.append_ne_nil_of_left_ne_nil parts.wholeSome _)

/-- The source text of a finite number starts with a digit or a minus sign. -/
theorem exists_head_sourceText {n : Number} (finite : n.IsFinite) :
    ∃ c rest, n.sourceText.toList = c :: rest ∧ (c.isDigit = true ∨ c = '-') := by
  have signed : ∀ (negative : Bool) {cs : List Char}, StartsWithDigit cs →
      ∃ c rest, signText negative ++ cs = c :: rest ∧ (c.isDigit = true ∨ c = '-') := by
    rintro negative cs ⟨c, head, digit⟩
    cases negative with
    | true => exact ⟨'-', cs, rfl, .inr rfl⟩
    | false =>
        obtain ⟨rest, rfl⟩ := List.head?_eq_some_iff.mp head
        exact ⟨c, rest, rfl, .inl digit⟩
  rcases sourceText_cases finite with ⟨m, textEq, -⟩ | ⟨negative, s, e, -, -, -, parts, textEq, -⟩
  · rw [textEq, toList_intText]
    exact signed _ (startsWithDigit_toDigits _)
  · rw [textEq]
    exact signed _ parts.startsWithDigit

/-- Finite numbers with the same source text are equal as numbers. -/
theorem equals_of_sourceText_eq {m n : Number} (mFinite : m.IsFinite) (nFinite : n.IsFinite)
    (eq : m.sourceText = n.sourceText) : m.equals n = true := by
  rcases sourceText_cases mFinite with ⟨i, mText, mEquals⟩ | mDecimal <;>
    rcases sourceText_cases nFinite with ⟨j, nText, nEquals⟩ | nDecimal
  · rw [mText, nText] at eq
    obtain rfl := intText_injective eq
    rw [equals_congr mEquals, equals_comm, nEquals]
  · exact absurd (eq ▸ mText) (nDecimal.sourceText_ne i)
  · exact absurd (eq ▸ nText) (mDecimal.sourceText_ne j)
  · obtain ⟨a, s, e, rfl, sForm, sPositive, left, leftText, leftWorth, -⟩ := mDecimal
    obtain ⟨b, t, f, rfl, tForm, tPositive, right, rightText, rightWorth, -⟩ := nDecimal
    rw [← String.toList_inj, leftText, rightText] at eq
    obtain ⟨rfl, texts⟩ := signText_append_inj left.startsWithDigit right.startsWithDigit eq
    have worths := DecimalParts.worth_eq_of_text_eq texts
    rw [leftWorth, rightWorth] at worths
    obtain ⟨rfl, rfl⟩ := Binary64.eq_of_shortest_worth sForm tForm sPositive tPositive worths
    rw [equals_iff]
    exact ⟨rfl, nofun⟩

/-- The integer that a number equals is found. -/
theorem whole?_of_equalsInt {x : Binary64} {m : Int} (equal : x.equalsInt m = true) :
    x.whole? = some m := by
  rcases x with _ | _ | ⟨negative, s, e⟩
  · cases equal
  · cases equal
  · have exact : Binary64.signed negative s * 2 ^ e.toNat = m * 2 ^ (-e).toNat := by
      simpa [Binary64.equalsInt] using equal
    have sizes : s * 2 ^ e.toNat = m.natAbs * 2 ^ (-e).toNat := by
      have abs := congrArg Int.natAbs exact
      rw [Int.natAbs_mul, Int.natAbs_mul, Int.natAbs_pow, Int.natAbs_pow] at abs
      cases negative <;> simpa [Binary64.signed] using abs
    have truncated : (Binary64.finite negative s e).truncate? = some m := by
      have positive : 0 < 2 ^ (-e).toNat := Nat.two_pow_pos _
      rw [Binary64.truncate?, Option.some_inj]
      change Binary64.signed negative (s * 2 ^ e.toNat / 2 ^ (-e).toNat) = m
      rw [sizes, Nat.mul_div_cancel _ positive]
      have power : (0 : Int) < 2 ^ (-e).toNat := Int.pow_pos (by decide)
      have scaled : (0 : Int) ≤ s * 2 ^ e.toNat :=
        Int.mul_nonneg (Int.natCast_nonneg s) (Int.pow_nonneg (by decide))
      cases negative with
      | false =>
          have nonneg : 0 ≤ m * 2 ^ (-e).toNat := exact ▸ scaled
          exact Int.natAbs_of_nonneg (nonneg_of_mul_nonneg_left nonneg power)
      | true =>
          have nonpos : m * 2 ^ (-e).toNat ≤ 0 := by
            rw [← exact, Binary64.signed, if_pos rfl, Int.neg_mul]
            exact Int.neg_nonpos_of_nonneg scaled
          have below : m ≤ 0 := nonpos_of_mul_nonpos_left nonpos power
          change -(m.natAbs : Int) = m
          omega
    rw [Binary64.whole?, truncated]
    exact if_pos equal

private theorem intText_of_equals {n : Number} {m : Int} (equal : n.equals (.int m) = true) :
    n.sourceText = intText m := by
  cases n with
  | int k => rw [sourceText, eq_of_beq equal]
  | float x => rw [sourceText, whole?_of_equalsInt equal]

/-- Equal numbers have the same source text, if they are finite. -/
theorem sourceText_eq_of_equals {m n : Number} (mFinite : m.IsFinite) (nFinite : n.IsFinite)
    (equal : m.equals n = true) : m.sourceText = n.sourceText := by
  cases n with
  | int k => exact intText_of_equals equal
  | float y =>
      cases m with
      | int k => exact (intText_of_equals (equals_comm _ _ ▸ equal)).symm
      | float x =>
          have standard : ∀ {z : Binary64}, (Number.float z).IsFinite → z.Standard := by
            intro z finite
            cases z <;> first | exact finite | cases finite
          rcases Binary64.eq_or_zero_of_equals (standard mFinite) (standard nFinite) equal with
            rfl | ⟨negative, rfl, rfl⟩
          · rfl
          · rw [sourceText, sourceText, Binary64.zero, Binary64.zero, whole?_zero, whole?_zero]

end Number

end PropValidators

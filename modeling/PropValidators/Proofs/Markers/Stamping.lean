import PropValidators.Marker
import PropValidators.Proofs.Outcomes
import Mathlib.Data.List.TakeWhile

/-!
# Stamping a text again

Stamping takes the marker lines out of a text and puts new ones before the lines that call a
helper.  A new marker is found as a marker again, whatever blanks stand before it, and it calls
no helper itself.  So a later stamp finds the same other lines in the text as an earlier one did,
and nothing is left of the earlier one.  It stops only at a line that calls a helper, if what the
marker of the line would tell cannot be written.
-/

namespace PropValidators.Marker

/-- The lines of a text are what stands between its line feeds. -/
theorem linesOf_eq_splitOn (text : List Char) : linesOf text = text.splitOn '\n' := by
  induction text with
  | nil => rfl
  | cons c cs ih =>
      rw [List.splitOn_cons_eq_if_modifyHead, ← ih, linesOf]
      by_cases feed : c = '\n'
      · simp [feed]
      · cases lines : linesOf cs with
        | nil =>
            rw [lines] at ih
            exact absurd ih.symm (List.splitOn_ne_nil _ _)
        | cons line rest => simp [feed]

theorem linesOf_ne_nil (text : List Char) : linesOf text ≠ [] := by
  rw [linesOf_eq_splitOn]
  exact List.splitOn_ne_nil _ _

/-- No line goes beyond a line feed. -/
theorem feed_notMem_of_mem_linesOf {text line : List Char} (mem : line ∈ linesOf text) :
    '\n' ∉ line := by
  induction text generalizing line with
  | nil =>
      rw [linesOf, List.mem_singleton] at mem
      simp [mem]
  | cons c cs ih =>
      rw [linesOf] at mem
      split at mem
      · rcases List.mem_cons.mp mem with rfl | later
        · exact List.not_mem_nil
        · exact ih later
      · rename_i notFeed
        split at mem
        · rename_i first rest lines
          rcases List.mem_cons.mp mem with rfl | later
          · have firstLine : '\n' ∉ first := ih (by simp [lines])
            simp [Ne.symm notFeed, firstLine]
          · exact ih (by simp [lines, later])
        · rename_i none
          exact absurd none (linesOf_ne_nil cs)

theorem linesOf_textOf {lines : List (List Char)} (some : lines ≠ [])
    (whole : ∀ line ∈ lines, '\n' ∉ line) : linesOf (textOf lines) = lines := by
  rw [linesOf_eq_splitOn]
  exact List.splitOn_intercalate _ whole some

/-- A text without lines is a text with one empty line. -/
@[simp]
theorem linesOf_textOf_nil : linesOf (textOf []) = [[]] :=
  rfl

/-- A time has few enough digits to be written. -/
def Stamp.Writable : Stamp → Prop
  | .time milliseconds => (Number.int milliseconds).isUnwritable = false
  | .blank => True

theorem Stamp.exists_text_of_writable {stamp : Stamp} (writable : stamp.Writable) :
    ∃ told, stamp.text = .ok told := by
  cases stamp with
  | blank => exact ⟨_, rfl⟩
  | time milliseconds =>
      rw [Stamp.text, Number.written, Number.writingFault?_eq_none_iff.mpr writable]
      exact ⟨_, rfl⟩

theorem Stamp.text_of_not_writable {stamp : Stamp} (unwritable : ¬stamp.Writable) :
    stamp.text = .error .unwritableInteger := by
  cases stamp with
  | blank => exact absurd trivial unwritable
  | time milliseconds =>
      have long : (Number.int milliseconds).isUnwritable = true :=
        Bool.not_eq_false _ ▸ unwritable
      rw [Stamp.text, Number.written, Number.writingFault?_eq_some_iff.mpr ⟨rfl, long⟩]

private theorem mem_intText {n : Int} {c : Char} (mem : c ∈ (Number.intText n).toList) :
    c = '-' ∨ c.isDigit = true := by
  have digit : ∀ {m : Nat}, c ∈ (Number.digitsText m).toList → c.isDigit = true := by
    intro m mem
    rw [Number.digitsText, String.toList_ofList] at mem
    exact Nat.isDigit_of_mem_toDigits (by decide) (by decide) mem
  rw [Number.intText] at mem
  split at mem
  · rw [String.toList_append, List.mem_append] at mem
    rcases mem with sign | digits
    · exact .inl (List.mem_singleton.mp sign)
    · exact .inr (digit digits)
  · exact .inr (digit mem)

section Stamp

variable {stamp : Stamp} {indent marker : List Char}

/-- What a marker tells is written with digits, a sign and brackets. -/
theorem mem_text {told : String} (written : stamp.text = .ok told) {c : Char}
    (mem : c ∈ told.toList) : c ∈ ['-', '[', ']'] ∨ c.isDigit = true := by
  cases stamp with
  | time milliseconds =>
      rw [Stamp.text, Number.written] at written
      split at written
      · cases written
      · cases written
        rcases mem_intText mem with rfl | digit
        · exact .inl (by decide)
        · exact .inr digit
  | blank =>
      cases written
      have chars : c ∈ ['[', ']'] := mem
      exact .inl (List.mem_cons_of_mem _ chars)

theorem markerLine_eq_ok_iff :
    markerLine stamp indent = .ok marker ↔
      ∃ told, stamp.text = .ok told ∧ indent ++ opening.toList ++ told.toList = marker :=
  map_eq_ok

/-- A character that is in no marker, unless it is one of the blanks before it. -/
theorem notMem_markerLine (written : markerLine stamp indent = .ok marker) {c : Char}
    (notIndent : c ∉ indent) (notOpening : c ∉ opening.toList) (notSign : c ∉ ['-', '[', ']'])
    (notDigit : c.isDigit = false) : c ∉ marker := by
  obtain ⟨told, toldEq, rfl⟩ := markerLine_eq_ok_iff.mp written
  intro mem
  rw [List.mem_append, List.mem_append] at mem
  rcases mem with (blank | inOpening) | inTold
  · exact notIndent blank
  · exact notOpening inOpening
  · rcases mem_text toldEq inTold with sign | digit
    · exact notSign sign
    · rw [notDigit] at digit
      cases digit

/-- Trimming a text does not touch what stands between characters that are not blank. -/
theorem prefix_trim {blank : Char → Bool} {before inner after : List Char} {first last : Char}
    (blanks : ∀ c ∈ before, blank c = true) (firstSolid : blank first = false)
    (lastSolid : blank last = false) :
    first :: (inner ++ [last]) <+:
      Text.trim blank (before ++ first :: (inner ++ last :: after)) := by
  have fromLeft : (before ++ first :: (inner ++ last :: after)).dropWhile blank =
      (first :: (inner ++ [last])) ++ after := by
    rw [List.dropWhile_append_of_pos blanks, List.dropWhile_cons_of_neg (by simp [firstSolid])]
    simp
  have fromRight : ((first :: (inner ++ [last])) ++ after).reverse.dropWhile blank =
      after.reverse.dropWhile blank ++ (first :: (inner ++ [last])).reverse := by
    rw [List.reverse_append, List.dropWhile_append]
    split
    · rename_i allBlank
      rw [List.isEmpty_iff.mp allBlank]
      simp [lastSolid]
    · rfl
  rw [Text.trim, fromLeft, fromRight, List.reverse_append, List.reverse_reverse]
  exact List.prefix_append _ _

/-- A new marker is a marker. -/
theorem isMarker_of_markerLine (written : markerLine stamp indent = .ok marker)
    (blanks : ∀ c ∈ indent, Text.isBlank c = true) : isMarker marker = true := by
  obtain ⟨told, -, rfl⟩ := markerLine_eq_ok_iff.mp written
  let inner := (opening.toList.drop 1).dropLast
  have openingEq : opening.toList = '/' :: (inner ++ ['=']) := by decide
  have lineEq : indent ++ opening.toList ++ told.toList =
      indent ++ '/' :: (inner ++ '=' :: told.toList) := by
    rw [openingEq]
    simp
  rw [isMarker, List.isPrefixOf_iff_prefix, lineEq, openingEq]
  exact prefix_trim blanks (by decide) (by decide)

/-- The names of all helpers have a capital letter that no marker has. -/
theorem capital_mem_of_callsHelper {inWord : Bool} {text : List Char}
    (calls : callsHelper inWord text = true) : 'T' ∈ text := by
  have named : ∀ name ∈ helpers, 'T' ∈ name.toList := by decide
  induction text generalizing inWord with
  | nil => cases calls
  | cons c cs ih =>
      rw [callsHelper, Bool.or_eq_true, Bool.and_eq_true] at calls
      rcases calls with ⟨-, here⟩ | later
      · obtain ⟨name, helper, starts⟩ := List.any_eq_true.mp here
        rw [startsCall, Bool.and_eq_true, List.isPrefixOf_iff_prefix] at starts
        exact starts.1.subset (named name helper)
      · exact List.mem_cons_of_mem _ (ih later)

theorem isBlank_of_mem_indentOf {line : List Char} {c : Char} (mem : c ∈ indentOf line) :
    Text.isBlank c = true :=
  List.mem_takeWhile_imp mem

/-- A new marker calls no helper. -/
theorem needsMarker_of_markerLine (written : markerLine stamp indent = .ok marker)
    (blanks : ∀ c ∈ indent, Text.isBlank c = true) : needsMarker marker = false := by
  rw [needsMarker, Bool.and_eq_false_iff]
  right
  rw [Bool.eq_false_iff]
  intro calls
  have notIndent : 'T' ∉ indent := by
    intro mem
    have := blanks _ mem
    revert this
    decide
  exact notMem_markerLine written notIndent (by decide) (by decide) (by decide)
    (capital_mem_of_callsHelper calls)

end Stamp

section Lines

variable {stamp later : Stamp} {line marker : List Char} {lines stamped : List (List Char)}

@[simp]
theorem stampLine_of_isMarker (isOne : isMarker line = true) : stampLine stamp line = .ok [] :=
  if_pos isOne

theorem stampLine_of_needsMarker (noMarker : isMarker line = false)
    (calls : needsMarker line = true) :
    stampLine stamp line =
      (markerLine stamp (indentOf line)).map fun marker => [marker, line] := by
  rw [stampLine, noMarker, if_neg Bool.false_ne_true, if_pos calls]

theorem stampLine_of_plain (noMarker : isMarker line = false) (noCall : needsMarker line = false) :
    stampLine stamp line = .ok [line] := by
  rw [stampLine, noMarker, noCall, if_neg Bool.false_ne_true, if_neg Bool.false_ne_true]

/-- A marker is left out, a line that calls a helper gets one before it, and any other line is
kept. -/
theorem stampLine_cases (returned : stampLine stamp line = .ok stamped) :
    isMarker line = true ∧ stamped = [] ∨
      isMarker line = false ∧ needsMarker line = true ∧
        (∃ marker, markerLine stamp (indentOf line) = .ok marker ∧ stamped = [marker, line]) ∨
      isMarker line = false ∧ needsMarker line = false ∧ stamped = [line] := by
  cases isOne : isMarker line with
  | true =>
      rw [stampLine_of_isMarker isOne] at returned
      exact .inl ⟨rfl, (Except.ok.inj returned).symm⟩
  | false =>
      cases calls : needsMarker line with
      | true =>
          rw [stampLine_of_needsMarker isOne calls, map_eq_ok] at returned
          obtain ⟨marker, written, rfl⟩ := returned
          exact .inr (.inl ⟨rfl, rfl, marker, written, rfl⟩)
      | false =>
          rw [stampLine_of_plain isOne calls] at returned
          exact .inr (.inr ⟨rfl, rfl, (Except.ok.inj returned).symm⟩)

theorem stampLines_cons :
    stampLines stamp (line :: lines) = (stampLine stamp line).bind fun first =>
      (stampLines stamp lines).map (first ++ ·) := by
  rw [stampLines, stampLines, List.mapM_cons]
  generalize List.mapM (stampLine stamp) lines = rest
  cases stampLine stamp line with
  | error fault => rfl
  | ok first => cases rest <;> rfl

theorem stampLines_cons_eq_ok_iff :
    stampLines stamp (line :: lines) = .ok stamped ↔
      ∃ first rest, stampLine stamp line = .ok first ∧ stampLines stamp lines = .ok rest ∧
        first ++ rest = stamped := by
  rw [stampLines_cons, bind_eq_ok]
  simp only [map_eq_ok, exists_and_left]

/-- The lines that are no markers stay as they are, in their order. -/
theorem filter_isMarker_stampLines (returned : stampLines stamp lines = .ok stamped) :
    stamped.filter (fun line => !isMarker line) = lines.filter fun line => !isMarker line := by
  induction lines generalizing stamped with
  | nil =>
      cases returned
      rfl
  | cons line lines ih =>
      obtain ⟨first, rest, head, tail, rfl⟩ := stampLines_cons_eq_ok_iff.mp returned
      rw [List.filter_append, ih tail, List.filter_cons]
      rcases stampLine_cases head with ⟨isOne, rfl⟩ | ⟨noMarker, -, marker, written, rfl⟩ |
        ⟨noMarker, -, rfl⟩
      · simp [isOne]
      · have isOne := isMarker_of_markerLine written fun _ => isBlank_of_mem_indentOf
        simp [noMarker, isOne]
      · simp [noMarker]

/-- Lines are stamped: just before each line that calls a helper stands a marker for it, and no
other line is a marker. -/
structure Stamped (stamp : Stamp) (lines : List (List Char)) : Prop where
  marked : ∀ i line, lines[i]? = some line → needsMarker line = true →
    ∃ j marker, i = j + 1 ∧ lines[j]? = some marker ∧
      markerLine stamp (indentOf line) = .ok marker ∧ isMarker marker = true
  marks : ∀ i line, lines[i]? = some line → isMarker line = true →
    ∃ next, lines[i + 1]? = some next ∧ needsMarker next = true ∧
      markerLine stamp (indentOf next) = .ok line

/-- A line that is no marker and calls no helper may stand before stamped lines. -/
theorem Stamped.cons (stamped : Stamped stamp lines) (noMarker : isMarker line = false)
    (noCall : needsMarker line = false) : Stamped stamp (line :: lines) where
  marked
    | 0, other, found, needs => by
        cases found
        rw [noCall] at needs
        cases needs
    | i + 1, other, found, needs => by
        obtain ⟨j, marker, rfl, before⟩ := stamped.marked i other found needs
        exact ⟨j + 1, marker, rfl, before⟩
  marks
    | 0, other, found, marker => by
        cases found
        rw [noMarker] at marker
        cases marker
    | i + 1, other, found, marker => stamped.marks i other found marker

/-- So may a line that calls a helper, behind its marker. -/
theorem Stamped.cons_cons (stamped : Stamped stamp lines) (noMarker : isMarker line = false)
    (calls : needsMarker line = true) (written : markerLine stamp (indentOf line) = .ok marker) :
    Stamped stamp (marker :: line :: lines) where
  marked
    | 0, other, found, needs => by
        cases found
        rw [needsMarker_of_markerLine written fun _ => isBlank_of_mem_indentOf] at needs
        cases needs
    | 1, other, found, needs => by
        cases found
        exact ⟨0, marker, rfl, rfl, written,
          isMarker_of_markerLine written fun _ => isBlank_of_mem_indentOf⟩
    | i + 2, other, found, needs => by
        obtain ⟨j, marker, rfl, before⟩ := stamped.marked i other found needs
        exact ⟨j + 2, marker, rfl, before⟩
  marks
    | 0, other, found, _ => by
        cases found
        exact ⟨line, rfl, calls, written⟩
    | 1, other, found, marker => by
        cases found
        rw [noMarker] at marker
        cases marker
    | i + 2, other, found, marker => stamped.marks i other found marker

private theorem stamped_of_stampLines (returned : stampLines stamp lines = .ok stamped) :
    Stamped stamp stamped := by
  induction lines generalizing stamped with
  | nil =>
      cases returned
      constructor <;> simp
  | cons line lines ih =>
      obtain ⟨first, rest, head, tail, rfl⟩ := stampLines_cons_eq_ok_iff.mp returned
      rcases stampLine_cases head with ⟨-, rfl⟩ | ⟨noMarker, calls, marker, written, rfl⟩ |
        ⟨noMarker, noCall, rfl⟩
      · exact ih tail
      · exact (ih tail).cons_cons noMarker calls written
      · exact (ih tail).cons noMarker noCall

/-- A character that is in no marker is in stamped lines only if it was in the lines before. -/
theorem notMem_of_mem_stampLines (returned : stampLines stamp lines = .ok stamped) {c : Char}
    (notOpening : c ∉ opening.toList) (notSign : c ∉ ['-', '[', ']'])
    (notDigit : c.isDigit = false) (whole : ∀ line ∈ lines, c ∉ line) :
    ∀ line ∈ stamped, c ∉ line := by
  induction lines generalizing stamped with
  | nil =>
      cases returned
      exact List.forall_mem_nil _
  | cons line lines ih =>
      obtain ⟨first, rest, head, tail, rfl⟩ := stampLines_cons_eq_ok_iff.mp returned
      rw [List.forall_mem_cons] at whole
      rw [List.forall_mem_append]
      refine ⟨?_, ih tail whole.2⟩
      rcases stampLine_cases head with ⟨-, rfl⟩ | ⟨-, -, marker, written, rfl⟩ | ⟨-, -, rfl⟩
      · exact List.forall_mem_nil _
      · have notIndent : c ∉ indentOf line :=
          fun inIndent => whole.1 (List.takeWhile_subset _ inIndent)
        exact List.forall_mem_cons.mpr
          ⟨notMem_markerLine written notIndent notOpening notSign notDigit,
            List.forall_mem_singleton.mpr whole.1⟩
      · exact List.forall_mem_singleton.mpr whole.1

/-- A line gets a marker: it calls a helper and is no marker itself. -/
def GetsMarker (line : List Char) : Prop :=
  isMarker line = false ∧ needsMarker line = true

/-- Lines are stamped if the time can be written, or if there is nothing to mark. -/
theorem exists_stampLines
    (free : stamp.Writable ∨ ¬ ∃ line ∈ lines, GetsMarker line) :
    ∃ stamped, stampLines stamp lines = .ok stamped := by
  induction lines with
  | nil => exact ⟨[], rfl⟩
  | cons line lines ih =>
      obtain ⟨rest, restEq⟩ := ih (free.imp_right fun none ⟨other, mem, gets⟩ =>
        none ⟨other, List.mem_cons_of_mem line mem, gets⟩)
      have head : ∃ first, stampLine stamp line = .ok first := by
        cases isOne : isMarker line with
        | true => exact ⟨_, stampLine_of_isMarker isOne⟩
        | false =>
            cases calls : needsMarker line with
            | false => exact ⟨_, stampLine_of_plain isOne calls⟩
            | true =>
                have writable := free.resolve_right fun none =>
                  none ⟨line, List.mem_cons_self, isOne, calls⟩
                obtain ⟨told, written⟩ := Stamp.exists_text_of_writable writable
                rw [stampLine_of_needsMarker isOne calls, markerLine, written]
                exact ⟨_, rfl⟩
      obtain ⟨first, firstEq⟩ := head
      exact ⟨_, stampLines_cons_eq_ok_iff.mpr ⟨first, rest, firstEq, restEq, rfl⟩⟩

/-- The first line to be marked stops the stamping if the time cannot be written. -/
theorem stampLines_of_not_writable (unwritable : ¬stamp.Writable)
    (some : ∃ line ∈ lines, GetsMarker line) :
    stampLines stamp lines = .error .unwritableInteger := by
  obtain ⟨line, mem, noMarker, calls⟩ := some
  induction lines with
  | nil => cases mem
  | cons first lines ih =>
      rw [stampLines_cons]
      cases stamped : stampLine stamp first with
      | error fault =>
          cases isOne : isMarker first with
          | true =>
              rw [stampLine_of_isMarker isOne] at stamped
              cases stamped
          | false =>
              cases firstCalls : needsMarker first with
              | true =>
                  rw [stampLine_of_needsMarker isOne firstCalls, markerLine,
                    Stamp.text_of_not_writable unwritable] at stamped
                  cases stamped
                  rfl
              | false =>
                  rw [stampLine_of_plain isOne firstCalls] at stamped
                  cases stamped
      | ok lines =>
          rcases List.mem_cons.mp mem with rfl | rest
          · rw [stampLine_of_needsMarker noMarker calls, markerLine,
              Stamp.text_of_not_writable unwritable] at stamped
            cases stamped
          · change (stampLines stamp _).map _ = _
            rw [ih rest]
            rfl

end Lines

section Texts

variable {text stamped : String} {stamp : Stamp}

theorem stampText_eq_ok_iff :
    stampText text stamp = .ok stamped ↔
      ∃ lines, stampLines stamp (linesOf text.toList) = .ok lines ∧
        String.ofList (textOf lines) = stamped :=
  map_eq_ok

/-- A text is stamped if the time can be written, or if no line gets a marker, and only then. -/
theorem stampText_returns (text : String) (stamp : Stamp) :
    (∃ stamped, stampText text stamp = .ok stamped) ∧
        (stamp.Writable ∨ ¬ ∃ line ∈ linesOf text.toList, GetsMarker line) ∨
      stampText text stamp = .error .unwritableInteger ∧ ¬stamp.Writable ∧
        ∃ line ∈ linesOf text.toList, GetsMarker line := by
  by_cases free : stamp.Writable ∨ ¬ ∃ line ∈ linesOf text.toList, GetsMarker line
  · obtain ⟨lines, returned⟩ := exists_stampLines free
    exact .inl ⟨⟨_, stampText_eq_ok_iff.mpr ⟨lines, returned, rfl⟩⟩, free⟩
  · rw [not_or, not_not] at free
    refine .inr ⟨?_, free⟩
    rw [stampText, stampLines_of_not_writable free.1 free.2]
    rfl

/-- The lines of a stamped text are the stamped lines, or one empty line if none is left. -/
theorem linesOf_stampText {lines : List (List Char)}
    (returned : stampLines stamp (linesOf text.toList) = .ok lines) :
    linesOf (String.ofList (textOf lines)).toList = if lines = [] then [[]] else lines := by
  rw [String.toList_ofList]
  split
  · rename_i none
    rw [none, linesOf_textOf_nil]
  · rename_i some
    exact linesOf_textOf some
      (notMem_of_mem_stampLines returned (by decide) (by decide) (by decide)
        fun _ => feed_notMem_of_mem_linesOf)

/-- The lines of a stamped text are stamped, also if nothing but an empty line is left. -/
theorem stamped_of_stampText (returned : stampText text stamp = .ok stamped) :
    Stamped stamp (linesOf stamped.toList) := by
  obtain ⟨lines, linesEq, rfl⟩ := stampText_eq_ok_iff.mp returned
  rw [linesOf_stampText linesEq]
  split
  · have none : Stamped stamp [] := by constructor <;> simp
    exact none.cons (by decide) (by decide)
  · exact stamped_of_stampLines linesEq

end Texts

end PropValidators.Marker

import PropValidators.Proofs.Markers.Stamping

/-!
# Stamping a file

A file is stamped as a text whose line breaks are all line feeds.  What is left of the file when its
marker lines are taken out, with the line breaks behind them, are its other lines.  A stamp that is
written puts a line feed between any two of them and nothing behind the last one.  So a file that is
written keeps what is not a marker exactly if its other lines ended in line feeds before, and if its
last line was one of them.  A file in which a line is to be marked with a time that cannot be
written stays as it is.
-/

namespace PropValidators.Marker

/-- A line of a file and the line break behind it, which the last line does not have. -/
structure FileLine where
  text : List Char
  ending : List Char

/-- A line as it stands in the file. -/
def FileLine.chars (line : FileLine) : List Char :=
  line.text ++ line.ending

/-- The lines of a file.  A line feed, a carriage return, and the two in this order are line
breaks. -/
def fileLines : List Char → List FileLine
  | [] => [⟨[], []⟩]
  | '\r' :: '\n' :: cs => ⟨[], ['\r', '\n']⟩ :: fileLines cs
  | '\r' :: cs => ⟨[], ['\r']⟩ :: fileLines cs
  | c :: cs =>
      if c = '\n' then ⟨[], ['\n']⟩ :: fileLines cs
      else
        match fileLines cs with
        | line :: rest => ⟨c :: line.text, line.ending⟩ :: rest
        | [] => [⟨[c], []⟩]

/-- The lines of a file that are no markers. -/
def plainLines (contents : String) : List FileLine :=
  (fileLines contents.toList).filter fun line => !isMarker line.text

/-- What is left of a file without its marker lines and the line breaks behind them. -/
def withoutMarkers (contents : String) : List Char :=
  (plainLines contents).flatMap FileLine.chars

/-- The contents of a file after it was stamped.  Where that stops, nothing has been written. -/
def stampedContents (contents : String) (stamp : Stamp) : String :=
  match stampContents? contents stamp with
  | .ok (some written) => written
  | _ => contents

private theorem stampedContents_of_some {contents written : String} {stamp : Stamp}
    (returned : stampContents? contents stamp = .ok (some written)) :
    stampedContents contents stamp = written := by
  rw [stampedContents, returned]

private theorem stampedContents_of_not_written {contents : String} {stamp : Stamp}
    (kept : ∀ written, stampContents? contents stamp ≠ .ok (some written)) :
    stampedContents contents stamp = contents := by
  rw [stampedContents]
  split
  · rename_i written returned
    exact absurd returned (kept written)
  · rfl

/-- The lines of a file are the lines of its text with line feeds for line breaks. -/
theorem map_text_fileLines (cs : List Char) :
    (fileLines cs).map FileLine.text = linesOf (normalizeNewlines cs) := by
  fun_induction fileLines cs with
  | case1 => rfl
  | case2 cs ih => simp [normalizeNewlines, linesOf, ih]
  | case3 cs single ih =>
      rw [normalizeNewlines.eq_3 _ single, linesOf, if_pos rfl, List.map_cons, ih]
  | case4 cs _ notReturn ih => simp [normalizeNewlines, linesOf, ih]
  | case5 c cs crlf cr notFeed line rest lines ih =>
      rw [lines] at ih
      rw [normalizeNewlines.eq_4 _ _ crlf cr, linesOf, if_neg notFeed, ← ih]
      rfl
  | case6 c cs _ _ _ none ih =>
      rw [none] at ih
      exact absurd ih.symm (linesOf_ne_nil _)

/-- The lines of a file make up the file. -/
@[simp]
theorem flatMap_chars_fileLines (cs : List Char) : (fileLines cs).flatMap FileLine.chars = cs := by
  fun_induction fileLines cs with
  | case1 => rfl
  | case2 cs ih => simp [FileLine.chars, ih]
  | case3 cs single ih => simp [FileLine.chars, ih]
  | case4 cs _ _ ih => simp [FileLine.chars, ih]
  | case5 c cs _ _ _ line rest lines ih =>
      rw [lines] at ih
      rw [← ih]
      rfl
  | case6 c cs _ _ _ none ih =>
      rw [none] at ih
      rw [← ih]
      rfl

/-- Lines as they are in a file: all but the last one end in a line break. -/
def Ended (lines : List FileLine) : Prop :=
  ∃ before last, lines = before ++ [⟨last, []⟩] ∧
    ∀ line ∈ before, line.ending ∈ [['\n'], ['\r'], ['\r', '\n']]

theorem Ended.cons {line : FileLine} {lines : List FileLine} (ended : Ended lines)
    (broken : line.ending ∈ [['\n'], ['\r'], ['\r', '\n']]) : Ended (line :: lines) := by
  obtain ⟨before, last, rfl, breaks⟩ := ended
  exact ⟨line :: before, last, rfl, List.forall_mem_cons.mpr ⟨broken, breaks⟩⟩

theorem ended_fileLines (cs : List Char) : Ended (fileLines cs) := by
  fun_induction fileLines cs with
  | case1 => exact ⟨[], [], rfl, List.forall_mem_nil _⟩
  | case2 cs ih | case3 cs _ ih | case4 cs _ _ ih => exact ih.cons (by simp)
  | case5 c cs _ _ _ line rest lines ih =>
      obtain ⟨before, last, eq, breaks⟩ := ih
      rw [lines] at eq
      cases before with
      | nil =>
          cases eq
          exact ⟨[], c :: last, rfl, breaks⟩
      | cons first before =>
          cases eq
          rw [List.forall_mem_cons] at breaks
          exact ⟨⟨c :: line.text, line.ending⟩ :: before, last, rfl,
            List.forall_mem_cons.mpr breaks⟩
  | case6 c cs _ _ _ none ih =>
      obtain ⟨before, last, eq, -⟩ := ih
      rw [none] at eq
      simp at eq

theorem return_notMem_normalizeNewlines (cs : List Char) : '\r' ∉ normalizeNewlines cs := by
  fun_induction normalizeNewlines cs with
  | case1 => exact List.not_mem_nil
  | case2 cs ih | case3 cs _ ih => simp [ih]
  | case4 c cs _ notReturn ih => simp [ih, Ne.symm notReturn]

theorem normalizeNewlines_of_notMem {cs : List Char} (single : '\r' ∉ cs) :
    normalizeNewlines cs = cs := by
  fun_induction normalizeNewlines cs with
  | case1 => rfl
  | case2 cs ih | case3 cs _ ih => exact absurd List.mem_cons_self single
  | case4 c cs _ _ ih => rw [ih fun mem => single (List.mem_cons_of_mem _ mem)]

@[simp]
theorem textOf_linesOf (text : List Char) : textOf (linesOf text) = text := by
  rw [linesOf_eq_splitOn, textOf, List.intercalate_splitOn]

/-- A text has a line feed behind each line but the last. -/
theorem textOf_concat (lines : List (List Char)) (last : List Char) :
    textOf (lines ++ [last]) = lines.flatMap (· ++ ['\n']) ++ last := by
  induction lines with
  | nil => simp [textOf]
  | cons line lines ih =>
      obtain ⟨next, rest, eq⟩ := List.exists_cons_of_ne_nil
        (List.append_ne_nil_of_right_ne_nil lines (List.cons_ne_nil last []))
      rw [textOf, eq] at ih
      rw [textOf, List.cons_append, eq, List.intercalate_cons_cons, ih, List.flatMap_cons]
      simp

/-- The characters of a text are those of its lines, and line feeds. -/
theorem mem_textOf_iff {lines : List (List Char)} {c : Char} (notFeed : c ≠ '\n') :
    c ∈ textOf lines ↔ ∃ line ∈ lines, c ∈ line := by
  rcases List.eq_nil_or_concat lines with rfl | ⟨before, last, rfl⟩
  · simp [textOf]
  · simp [textOf_concat, notFeed, or_and_right, exists_or]

theorem notMem_of_mem_linesOf {c : Char} {text line : List Char} (notFeed : c ≠ '\n')
    (notMem : c ∉ text) (mem : line ∈ linesOf text) : c ∉ line := by
  rw [← textOf_linesOf text, mem_textOf_iff notFeed] at notMem
  exact fun inLine => notMem ⟨line, mem, inLine⟩

section Kept

variable {lines : List FileLine}

/-- Lines that all end in a line feed. -/
theorem flatMap_chars_of_feeds (feeds : ∀ line ∈ lines, line.ending = ['\n']) :
    lines.flatMap FileLine.chars = (lines.map FileLine.text).flatMap (· ++ ['\n']) := by
  induction lines with
  | nil => rfl
  | cons line lines ih =>
      rw [List.forall_mem_cons] at feeds
      rw [List.flatMap_cons, List.map_cons, List.flatMap_cons, ih feeds.2, FileLine.chars, feeds.1]

/-- A line break without a carriage return is a line feed. -/
theorem ending_eq_feed {line : FileLine}
    (broken : line.ending ∈ [['\n'], ['\r'], ['\r', '\n']]) (noReturn : '\r' ∉ line.ending) :
    line.ending = ['\n'] := by
  simp only [List.mem_cons, List.not_mem_nil, or_false] at broken
  rcases broken with feed | eq | eq
  · exact feed
  · simp [eq] at noReturn
  · simp [eq] at noReturn

/-- Lines without carriage returns that stand in a text with line feeds end in no carriage
return. -/
theorem return_notMem_ending (solid : ∀ line ∈ lines, '\r' ∉ line.text)
    (eq : lines.flatMap FileLine.chars = textOf (lines.map FileLine.text)) :
    ∀ line ∈ lines, '\r' ∉ line.ending := by
  have single : '\r' ∉ textOf (lines.map FileLine.text) := by
    rw [mem_textOf_iff (by decide)]
    rintro ⟨text, mem, inText⟩
    obtain ⟨line, lineMem, rfl⟩ := List.mem_map.mp mem
    exact solid line lineMem inText
  rintro line mem inEnding
  rw [← eq, List.mem_flatMap] at single
  exact single ⟨line, mem, List.mem_append_right _ inEnding⟩

/-- Lines with line breaks behind all of them have one more than a text has. -/
theorem flatMap_chars_eq_textOf_iff_nil (solid : ∀ line ∈ lines, '\r' ∉ line.text)
    (breaks : ∀ line ∈ lines, line.ending ∈ [['\n'], ['\r'], ['\r', '\n']]) :
    lines.flatMap FileLine.chars = textOf (lines.map FileLine.text) ↔ lines = [] := by
  constructor
  · intro eq
    have noReturn := return_notMem_ending solid eq
    rw [flatMap_chars_of_feeds fun line mem =>
      ending_eq_feed (breaks line mem) (noReturn line mem)] at eq
    rcases List.eq_nil_or_concat lines with none | ⟨others, line, rfl⟩
    · exact none
    · have longer := congrArg List.length eq
      rw [List.concat_eq_append, List.map_append, List.map_singleton, textOf_concat] at longer
      simp at longer
  · rintro rfl
    rfl

/-- Lines with line breaks behind all but the last one are a text if these are line feeds. -/
theorem flatMap_chars_concat_eq_textOf_iff {last : FileLine} (unbroken : last.ending = [])
    (solid : ∀ line ∈ lines ++ [last], '\r' ∉ line.text)
    (breaks : ∀ line ∈ lines, line.ending ∈ [['\n'], ['\r'], ['\r', '\n']]) :
    (lines ++ [last]).flatMap FileLine.chars =
        textOf ((lines ++ [last]).map FileLine.text) ↔
      ∀ line ∈ lines ++ [last], '\r' ∉ line.ending := by
  constructor
  · exact return_notMem_ending solid
  · intro noReturn
    have feeds : ∀ line ∈ lines, line.ending = ['\n'] := fun line mem =>
      ending_eq_feed (breaks line mem) (noReturn line (List.mem_append_left _ mem))
    rw [List.flatMap_append, List.map_append, List.map_singleton, textOf_concat,
      flatMap_chars_of_feeds feeds]
    simp [FileLine.chars, unbroken]

/-- Some lines of a file are as they were if a line feed stands between any two of them and nothing
behind the last one, exactly if none of them ended in a carriage return and the last line of the
file is one of them. -/
theorem flatMap_chars_filter_eq_textOf_iff (keep : FileLine → Bool) (ended : Ended lines)
    (solid : ∀ line ∈ lines, '\r' ∉ line.text) :
    (lines.filter keep).flatMap FileLine.chars = textOf ((lines.filter keep).map FileLine.text) ↔
      (∀ line ∈ lines.filter keep, '\r' ∉ line.ending) ∧
        (lines.filter keep = [] ∨ ∃ last, lines.getLast? = some last ∧ keep last = true) := by
  obtain ⟨before, last, rfl, breaks⟩ := ended
  set final : FileLine := ⟨last, []⟩
  have keptSolid : ∀ line ∈ (before ++ [final]).filter keep, '\r' ∉ line.text :=
    fun line mem => solid line (List.mem_filter.mp mem).1
  have keptBreaks : ∀ line ∈ before.filter keep,
      line.ending ∈ [['\n'], ['\r'], ['\r', '\n']] :=
    fun line mem => breaks line (List.mem_filter.mp mem).1
  rw [List.getLast?_concat]
  by_cases kept : keep final = true
  · have parted : (before ++ [final]).filter keep = before.filter keep ++ [final] := by
      simp [kept]
    rw [parted] at keptSolid ⊢
    rw [flatMap_chars_concat_eq_textOf_iff rfl keptSolid keptBreaks]
    exact (and_iff_left (.inr ⟨final, rfl, kept⟩)).symm
  · have parted : (before ++ [final]).filter keep = before.filter keep := by
      simp [kept]
    have dropped : ¬ ∃ last, some final = some last ∧ keep last = true := by
      rintro ⟨_, ⟨⟩, keptFinal⟩
      exact kept keptFinal
    rw [parted] at keptSolid ⊢
    rw [flatMap_chars_eq_textOf_iff_nil keptSolid keptBreaks, or_iff_left dropped]
    refine ⟨fun none => ⟨?_, none⟩, And.right⟩
    rw [none]
    exact List.forall_mem_nil _

end Kept

section Stamp

variable (contents : String) (stamp : Stamp)

private theorem return_notMem_text {line : FileLine} (mem : line ∈ fileLines contents.toList) :
    '\r' ∉ line.text := by
  have lineMem : line.text ∈ linesOf (normalizeNewlines contents.toList) := by
    rw [← map_text_fileLines]
    exact List.mem_map_of_mem mem
  exact notMem_of_mem_linesOf (by decide) (return_notMem_normalizeNewlines _) lineMem

/-- The lines that are no markers are those of the text with line feeds. -/
theorem map_text_plainLines :
    (plainLines contents).map FileLine.text =
      (linesOf (normalizeNewlines contents.toList)).filter fun line => !isMarker line := by
  rw [← map_text_fileLines, List.filter_map]
  rfl

/-- A file without its markers is the text of its other lines, if these end in line feeds and the
last line of the file is one of them, and only then. -/
theorem withoutMarkers_eq_textOf_iff :
    withoutMarkers contents = textOf ((plainLines contents).map FileLine.text) ↔
      (∀ line ∈ plainLines contents, '\r' ∉ line.ending) ∧
        (plainLines contents = [] ∨ ∃ last, (fileLines contents.toList).getLast? = some last ∧
          isMarker last.text = false) := by
  have iff := flatMap_chars_filter_eq_textOf_iff (fun line => !isMarker line.text)
    (ended_fileLines contents.toList) fun _ => return_notMem_text contents
  simp only [Bool.not_eq_true'] at iff
  exact iff

variable {contents stamp} {stamped : String}

theorem return_notMem_of_stampText (returned : stampText contents stamp = .ok stamped)
    (single : '\r' ∉ contents.toList) : '\r' ∉ stamped.toList := by
  obtain ⟨lines, linesEq, rfl⟩ := stampText_eq_ok_iff.mp returned
  rw [String.toList_ofList, mem_textOf_iff (by decide)]
  rintro ⟨line, mem, inLine⟩
  exact notMem_of_mem_stampLines linesEq (by decide) (by decide) (by decide)
    (fun _ => notMem_of_mem_linesOf (by decide) single) line mem inLine

/-- The last line of a stamped text is no marker. -/
theorem isMarker_getLast?_of_stampText (returned : stampText contents stamp = .ok stamped)
    {last : List Char} (isLast : (linesOf stamped.toList).getLast? = some last) :
    isMarker last = false := by
  rw [← Bool.not_eq_true]
  intro marker
  rw [List.getLast?_eq_getElem?] at isLast
  obtain ⟨next, found, -⟩ := (stamped_of_stampText returned).marks _ last isLast marker
  have := (List.getElem?_eq_some_iff.mp found).1
  omega

/-- What is left of a stamped text without its markers is the text of the other lines that it was
made from. -/
theorem withoutMarkers_of_stampText (returned : stampText contents stamp = .ok stamped)
    (single : '\r' ∉ contents.toList) :
    withoutMarkers stamped =
      textOf ((linesOf contents.toList).filter fun line => !isMarker line) := by
  have stampedSingle := return_notMem_of_stampText returned single
  have texts : (fileLines stamped.toList).map FileLine.text = linesOf stamped.toList := by
    rw [map_text_fileLines, normalizeNewlines_of_notMem stampedSingle]
  have plain : withoutMarkers stamped = textOf ((plainLines stamped).map FileLine.text) := by
    rw [withoutMarkers_eq_textOf_iff]
    refine ⟨?_, .inr ?_⟩
    · intro line mem inEnding
      apply stampedSingle
      rw [← flatMap_chars_fileLines stamped.toList]
      exact List.mem_flatMap.mpr
        ⟨line, (List.mem_filter.mp mem).1, List.mem_append_right _ inEnding⟩
    · obtain ⟨before, last, eq, -⟩ := ended_fileLines stamped.toList
      refine ⟨⟨last, []⟩, by rw [eq, List.getLast?_concat], ?_⟩
      apply isMarker_getLast?_of_stampText returned
      rw [← texts, eq, List.map_append, List.map_singleton, List.getLast?_concat]
  obtain ⟨lines, linesEq, rfl⟩ := stampText_eq_ok_iff.mp returned
  have kept := filter_isMarker_stampLines linesEq
  rw [plain, map_text_plainLines, normalizeNewlines_of_notMem stampedSingle,
    linesOf_stampText linesEq]
  split
  · rename_i none
    rw [none] at kept
    rw [← kept]
    rfl
  · rw [kept]

/-- A line of a file is to be marked: it calls a helper and is no marker itself. -/
def CallsHelper (contents : String) : Prop :=
  ∃ line ∈ plainLines contents, needsMarker line.text = true

theorem exists_getsMarker_iff :
    (∃ line ∈ linesOf (normalizeNewlines contents.toList), GetsMarker line) ↔
      CallsHelper contents := by
  rw [← map_text_fileLines, CallsHelper, plainLines]
  simp [GetsMarker, and_assoc]

/-- What a file is to hold is told unless there is a line to be marked and the time has too many
digits to be written; then the file stays as it is.  Where it is told, the lines of the file are
stamped afterwards.  If the file was written, what is left of it without its markers is the text of
its other lines.  This is what was left of it before exactly if the file was not written, or if none
of its other lines ended in a carriage return and none of them stood before a marker that was the
last line. -/
theorem stamping_file_iff (contents : String) (stamp : Stamp) :
    ((∃ outcome, stampContents? contents stamp = .ok outcome) ∧
          (stamp.Writable ∨ ¬CallsHelper contents) ∨
        stampContents? contents stamp = .error .unwritableInteger ∧ ¬stamp.Writable ∧
          CallsHelper contents) ∧
      ((∃ outcome, stampContents? contents stamp = .ok outcome) →
        Stamped stamp (linesOf (normalizeNewlines (stampedContents contents stamp).toList))) ∧
      (∀ written, stampContents? contents stamp = .ok (some written) →
        withoutMarkers written = textOf ((plainLines contents).map FileLine.text)) ∧
      (withoutMarkers (stampedContents contents stamp) = withoutMarkers contents ↔
        (∀ written, stampContents? contents stamp ≠ .ok (some written)) ∨
          (∀ line ∈ plainLines contents, '\r' ∉ line.ending) ∧
            (plainLines contents = [] ∨ ∃ last, (fileLines contents.toList).getLast? = some last ∧
              isMarker last.text = false)) := by
  obtain ⟨text, textEq⟩ : ∃ text : String, text.toList = normalizeNewlines contents.toList :=
    ⟨_, String.toList_ofList⟩
  have stampedEq : stampContents? contents stamp = (stampText text stamp).map fun stamped =>
      if stamped = text then none else some stamped := by
    rw [stampContents?, ← textEq, String.ofList_toList]
  have single : '\r' ∉ text.toList := textEq ▸ return_notMem_normalizeNewlines _
  have returns := stampText_returns text stamp
  rw [textEq, exists_getsMarker_iff] at returns
  rcases returns with ⟨⟨stamped, returned⟩, free⟩ | ⟨stopped, unwritable, calls⟩
  · rw [returned] at stampedEq
    have isStamped := stamped_of_stampText returned
    by_cases same : stamped = text
    · have unchanged : stampContents? contents stamp = .ok none := by
        rw [stampedEq, same]
        exact congrArg Except.ok (if_pos rfl)
      have kept : ∀ written, stampContents? contents stamp ≠ .ok (some written) := by
        rintro written eq
        rw [unchanged] at eq
        cases eq
      rw [stampedContents_of_not_written kept, ← textEq, ← same]
      exact ⟨.inl ⟨⟨none, unchanged⟩, free⟩, fun _ => isStamped,
        fun written eq => absurd eq (kept written), iff_of_true rfl (.inl kept)⟩
    · have written : stampContents? contents stamp = .ok (some stamped) :=
        stampedEq.trans (congrArg Except.ok (if_neg same))
      have plain : withoutMarkers stamped =
          textOf ((plainLines contents).map FileLine.text) := by
        rw [withoutMarkers_of_stampText returned single, map_text_plainLines, textEq]
      rw [stampedContents_of_some written]
      refine ⟨.inl ⟨⟨_, written⟩, free⟩, fun _ => ?_, fun other eq => ?_, ?_⟩
      · rwa [normalizeNewlines_of_notMem (return_notMem_of_stampText returned single)]
      · rw [written] at eq
        cases eq
        exact plain
      · rw [plain, eq_comm, withoutMarkers_eq_textOf_iff]
        refine (or_iff_right fun kept => ?_).symm
        exact kept stamped written
  · rw [stopped] at stampedEq
    have failed : stampContents? contents stamp = .error .unwritableInteger := stampedEq
    have kept : ∀ written, stampContents? contents stamp ≠ .ok (some written) := by
      intro written eq
      rw [failed] at eq
      cases eq
    refine ⟨.inr ⟨failed, unwritable, calls⟩, ?_, fun written eq => absurd eq (kept written), ?_⟩
    · rintro ⟨outcome, eq⟩
      rw [failed] at eq
      cases eq
    · rw [stampedContents_of_not_written kept]
      exact iff_of_true rfl (.inl kept)

end Stamp

/-- A stray marker is taken out of a file with the line breaks of two characters, and the other line
gets one of a single character. -/
theorem line_break_changed_in_stamping :
    stampedContents "// typescript-type-transformer:update=5\r\na\r\n" (.time 1) = "a\n" ∧
      withoutMarkers "a\n" ≠
        withoutMarkers "// typescript-type-transformer:update=5\r\na\r\n" := by
  decide

end PropValidators.Marker

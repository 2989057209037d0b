import PropValidators.Proofs.Printing.Decimals
import PropValidators.Proofs.Printing.ValidatorTexts

/-!
# Texts that tell

Two texts tell something if they can be the same only where it is the case, whatever follows them.
Texts in a row tell what each of them tells, and so do lists of them between brackets.  A string is
told by its text in quotes, and a key by its text before a colon.
-/

namespace PropValidators

open Ast Node

/-- Where two texts are followed by one of some characters, or by nothing, they can be the same as
a whole only if something is the case, and if they are followed by the same. -/
def Tells (stops cs ds : List Char) (fact : Prop) : Prop :=
  ∀ xs ys, GoesOn stops xs → GoesOn stops ys → cs ++ xs = ds ++ ys → fact ∧ xs = ys

section Tells

variable {stops others cs ds es fs : List Char} {fact other : Prop}

theorem Tells.mono (tells : Tells others cs ds fact) (subset : stops ⊆ others) :
    Tells stops cs ds fact :=
  fun xs ys xsOn ysOn eq =>
    tells xs ys (fun c head => subset (xsOn c head)) (fun c head => subset (ysOn c head)) eq

theorem Tells.imp (tells : Tells stops cs ds fact) (implies : fact → other) :
    Tells stops cs ds other :=
  fun xs ys xsOn ysOn eq => (tells xs ys xsOn ysOn eq).imp_left implies

theorem Tells.symm (tells : Tells stops cs ds fact) : Tells stops ds cs fact :=
  fun xs ys xsOn ysOn eq => (tells ys xs ysOn xsOn eq.symm).imp_right Eq.symm

/-- The same text tells what is the case anyway. -/
theorem tells_self (given : fact) : Tells stops cs cs fact :=
  fun _ _ _ _ eq => ⟨given, List.append_cancel_left eq⟩

/-- Texts tell one thing and then another, where the later texts start as the earlier ones may go
on. -/
theorem Tells.append (first : Tells others cs ds fact) (next : fact → Tells stops es fs other)
    (esOn : ∀ xs, GoesOn stops xs → GoesOn others (es ++ xs))
    (fsOn : ∀ xs, GoesOn stops xs → GoesOn others (fs ++ xs)) :
    Tells stops (cs ++ es) (ds ++ fs) (fact ∧ other) := by
  intro xs ys xsOn ysOn eq
  rw [List.append_assoc, List.append_assoc] at eq
  obtain ⟨told, rests⟩ := first _ _ (esOn xs xsOn) (fsOn ys ysOn) eq
  obtain ⟨toldNext, same⟩ := next told xs ys xsOn ysOn rests
  exact ⟨⟨told, toldNext⟩, same⟩

/-- Texts tell whatever they do behind the same text. -/
theorem Tells.append_left (tells : Tells stops cs ds fact) (start : List Char) :
    Tells stops (start ++ cs) (start ++ ds) fact := by
  intro xs ys xsOn ysOn eq
  rw [List.append_assoc, List.append_assoc] at eq
  exact tells xs ys xsOn ysOn (List.append_cancel_left eq)

theorem Tells.cons (tells : Tells stops cs ds fact) (c : Char) :
    Tells stops (c :: cs) (c :: ds) fact :=
  tells.append_left [c]

/-- Texts tell whatever they do in front of the same text. -/
theorem Tells.append_right (tells : Tells others cs ds fact) {c : Char} (mem : c ∈ others)
    (rest : List Char) : Tells stops (cs ++ c :: rest) (ds ++ c :: rest) fact :=
  (tells.append (fun _ => tells_self trivial) (fun _ _ => goesOn_cons.mpr mem)
    fun _ _ => goesOn_cons.mpr mem).imp And.left

/-- Texts that are the same up to a first stop are the same. -/
theorem tells_of_disjoint (csFree : cs.Disjoint stops) (dsFree : ds.Disjoint stops) :
    Tells stops cs ds (cs = ds) :=
  fun _ _ xsOn ysOn eq => append_inj_of_goesOn csFree dsFree xsOn ysOn eq

/-- Texts that start differently are different. -/
theorem tells_of_head_ne (csSome : cs ≠ []) (dsSome : ds ≠ []) (ne : cs.head? ≠ ds.head?) :
    Tells stops cs ds fact := by
  intro xs ys _ _ eq
  obtain ⟨c, cs, rfl⟩ := List.exists_cons_of_ne_nil csSome
  obtain ⟨d, ds, rfl⟩ := List.exists_cons_of_ne_nil dsSome
  exact absurd (congrArg some (List.head_eq_of_cons_eq eq)) ne

end Tells

section Lists

variable {α : Type} {text : α → List Char} {Same : α → α → Prop} {items others : List α}
  {stops inner close sep : List Char} {s c : Char}

theorem intercalate_cons (sep first : List Char) (rest : List (List Char)) :
    sep.intercalate (first :: rest) = first ++ rest.flatMap fun next => sep ++ next := by
  induction rest generalizing first with
  | nil => simp
  | cons next rest ih => rw [List.intercalate_cons_cons, ih, List.flatMap_cons, List.append_assoc,
      List.append_assoc]

/-- Behind an item comes the next one or the end. -/
theorem goesOn_rest (sepStops : s ∈ inner) (closeStops : c ∈ inner) (items : List α)
    (xs : List Char) :
    GoesOn inner
      ((items.map text).flatMap (fun next => s :: sep ++ next) ++ c :: close ++ xs) := by
  cases items with
  | nil => exact goesOn_cons.mpr closeStops
  | cons a items => exact goesOn_cons.mpr sepStops

/-- One item more is told. -/
theorem tells_next {a b : α} (sepStops : s ∈ inner) (closeStops : c ∈ inner)
    (first : Tells inner (text a) (text b) (Same a b))
    (rest : Tells stops
      ((items.map text).flatMap (fun next => s :: sep ++ next) ++ c :: close)
      ((others.map text).flatMap (fun next => s :: sep ++ next) ++ c :: close)
      (List.Forall₂ Same items others)) :
    Tells stops
      (text a ++ ((items.map text).flatMap (fun next => s :: sep ++ next) ++ c :: close))
      (text b ++ ((others.map text).flatMap (fun next => s :: sep ++ next) ++ c :: close))
      (List.Forall₂ Same (a :: items) (b :: others)) :=
  (first.append (fun _ => rest) (fun xs _ => goesOn_rest sepStops closeStops items xs)
    (fun xs _ => goesOn_rest sepStops closeStops others xs)).imp fun each => .cons each.1 each.2

/-- Lists of texts that are separated and closed tell what the texts tell, one after the other. -/
theorem tells_rest (sepStops : s ∈ inner) (closeStops : c ∈ inner) (ne : s ≠ c)
    (each : ∀ a ∈ items, ∀ b ∈ others, Tells inner (text a) (text b) (Same a b)) :
    Tells stops
      ((items.map text).flatMap (fun next => s :: sep ++ next) ++ c :: close)
      ((others.map text).flatMap (fun next => s :: sep ++ next) ++ c :: close)
      (List.Forall₂ Same items others) := by
  have longer : ∀ (a : α) (rest : List α), Tells stops
      (([].map text).flatMap (fun next => s :: sep ++ next) ++ c :: close)
      (((a :: rest).map text).flatMap (fun next => s :: sep ++ next) ++ c :: close) False :=
    fun _ _ => tells_of_head_ne (List.cons_ne_nil _ _) (List.cons_ne_nil _ _)
      fun eq => ne (Option.some_inj.mp eq).symm
  induction items generalizing others with
  | nil =>
      cases others with
      | nil => exact tells_self .nil
      | cons b others => exact (longer b others).imp False.elim
  | cons a items ih =>
      cases others with
      | nil => exact (longer a items).symm.imp False.elim
      | cons b others =>
          have rest := ih fun a aMem b bMem =>
            each a (List.mem_cons_of_mem _ aMem) b (List.mem_cons_of_mem _ bMem)
          have first := each a List.mem_cons_self b List.mem_cons_self
          simp only [List.map_cons, List.flatMap_cons, List.append_assoc]
          exact (tells_next sepStops closeStops first rest).append_left (s :: sep)

/-- The texts of lists that are not empty. -/
theorem tells_intercalate (sepStops : s ∈ inner) (closeStops : c ∈ inner) (ne : s ≠ c)
    (itemsSome : items ≠ []) (othersSome : others ≠ [])
    (each : ∀ a ∈ items, ∀ b ∈ others, Tells inner (text a) (text b) (Same a b)) :
    Tells stops ((s :: sep).intercalate (items.map text) ++ c :: close)
      ((s :: sep).intercalate (others.map text) ++ c :: close)
      (List.Forall₂ Same items others) := by
  obtain ⟨a, items, rfl⟩ := List.exists_cons_of_ne_nil itemsSome
  obtain ⟨b, others, rfl⟩ := List.exists_cons_of_ne_nil othersSome
  rw [List.map_cons, List.map_cons, intercalate_cons, intercalate_cons, List.append_assoc,
    List.append_assoc]
  have first := each a List.mem_cons_self b List.mem_cons_self
  refine tells_next sepStops closeStops first (tells_rest sepStops closeStops ne ?_)
  exact fun a aMem b bMem => each a (List.mem_cons_of_mem _ aMem) b (List.mem_cons_of_mem _ bMem)

/-- Lists of texts that do not start with the character that closes the lists. -/
theorem tells_closed (comma : ',' ∈ inner) (closeStops : c ∈ inner) (ne : ',' ≠ c)
    (starts : ∀ a ∈ items ++ others, text a ≠ [] ∧ (text a).head? ≠ some c)
    (each : ∀ a ∈ items, ∀ b ∈ others, Tells inner (text a) (text b) (Same a b)) :
    Tells stops ([',', ' '].intercalate (items.map text) ++ [c])
      ([',', ' '].intercalate (others.map text) ++ [c]) (List.Forall₂ Same items others) := by
  have apart : ∀ a ∈ items ++ others, ∀ rest : List (List Char),
      Tells stops ([',', ' '].intercalate [] ++ [c])
        ([',', ' '].intercalate (text a :: rest) ++ [c]) False := by
    intro a mem rest
    obtain ⟨some, head⟩ := starts a mem
    rw [intercalate_cons]
    obtain ⟨d, ds, textEq⟩ := List.exists_cons_of_ne_nil some
    rw [textEq] at head ⊢
    exact tells_of_head_ne (List.cons_ne_nil _ _) (List.cons_ne_nil _ _) (Ne.symm head)
  cases items with
  | nil =>
      cases others with
      | nil => exact tells_self .nil
      | cons b others => exact (apart b (by simp) _).imp False.elim
  | cons a items =>
      cases others with
      | nil => exact (apart a (by simp) _).symm.imp False.elim
      | cons b others =>
          exact tells_intercalate comma closeStops ne (List.cons_ne_nil _ _)
            (List.cons_ne_nil _ _) each

/-- Arrays of texts that do not start with a closing bracket. -/
theorem tells_arrayText (comma : ',' ∈ inner) (bracket : ']' ∈ inner)
    (starts : ∀ a ∈ items ++ others, text a ≠ [] ∧ (text a).head? ≠ some ']')
    (each : ∀ a ∈ items, ∀ b ∈ others, Tells inner (text a) (text b) (Same a b)) :
    Tells stops (arrayText (items.map text)) (arrayText (others.map text))
      (List.Forall₂ Same items others) :=
  (tells_closed comma bracket (by decide) starts each).cons '['

end Lists

@[simp]
theorem toList_quotedSource (s : String) :
    (quotedSource s).toList = '"' :: s.toList.flatMap (Text.doubleQuotedChar .ascii) ++ ['"'] := by
  rw [quotedSource, Text.doubleQuoted, String.toList_ofList]

/-- A string in quotes is read whatever follows it. -/
theorem tells_quotedSource (stops : List Char) (s t : String) :
    Tells stops (quotedSource s).toList (quotedSource t).toList (s = t) := by
  intro xs ys _ _ eq
  simp only [toList_quotedSource, List.cons_append, List.append_assoc, List.cons.injEq, true_and,
    List.nil_append] at eq
  have read := scanString_doubleQuoted .ascii s xs
  rw [eq, scanString_doubleQuoted .ascii t ys] at read
  obtain ⟨rfl, rfl⟩ := Prod.mk.inj (Option.some_inj.mp read)
  exact ⟨rfl, rfl⟩

/-- What may be a bare key has no colon in it and starts with no quote. -/
theorem bareKey_chars {name : String} (bare : isIdentifierName name = true) :
    ':' ∉ name.toList ∧ name.toList ≠ [] ∧ name.toList.head? ≠ some '"' := by
  rcases isIdentifierName_iff.mp bare with bare | ⟨bare, isBare, rfl⟩
  · exact ⟨bare.notMem rfl, bare.toList_ne_nil, bare.head_ne rfl⟩
  · rw [String.toList_append, List.head?_append_of_ne_nil _ isBare.toList_ne_nil, List.mem_append,
      not_or]
    exact ⟨⟨isBare.notMem rfl, by simp⟩,
      List.append_ne_nil_of_left_ne_nil isBare.toList_ne_nil _, isBare.head_ne rfl⟩

/-- Keys are read up to the colon behind them. -/
theorem tells_keySource (name other : String) :
    Tells [':'] (keySource name).toList (keySource other).toList (name = other) := by
  have free : ∀ {name : String}, isIdentifierName name = true → name.toList.Disjoint [':'] :=
    fun bare => List.disjoint_singleton.mpr (bareKey_chars bare).1
  have apart : ∀ {bare quoted : String} (fact : Prop), isIdentifierName bare = true →
      Tells [':'] bare.toList (quotedSource quoted).toList fact := by
    intro bare quoted fact isName
    obtain ⟨-, some, head⟩ := bareKey_chars isName
    rw [toList_quotedSource]
    exact tells_of_head_ne some (List.cons_ne_nil _ _) head
  rw [keySource, keySource]
  split <;> rename_i bare <;> split <;> rename_i otherBare
  · exact (tells_of_disjoint (free bare) (free otherBare)).imp String.toList_inj.mp
  · exact apart _ bare
  · exact (apart _ otherBare).symm
  · exact tells_quotedSource _ _ _

end PropValidators

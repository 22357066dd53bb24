import ContractInterface.TypeExpr
import ContractInterface.Proofs.Outcome
import Mathlib.Algebra.Ring.Nat
import Mathlib.Data.List.Forall2

/-!
# The grammar of type expressions

A text is a type expression if it is a base name followed by array suffixes.  `Extent.WrittenBy`
says what may stand between the brackets of a suffix, and `TypeExpr.Written` how a whole expression
is written; neither knows of the scanner, and `TypeExpr.parse_eq_ok_iff` says that reading accepts
exactly the texts they allow.

The scanner goes through a text once, from the left, and keeps the digits it has met.  The lemmas
about it go by suffixes: it reads a first suffix and goes on after it
(`TypeExpr.scanExtents_bracketed`), and there is no other way for it to succeed
(`TypeExpr.exists_bracketed_of_scanExtents`).
-/

namespace ContractInterface

/-! ## Lengths -/

lemma Text.lengthBound_eq : Text.lengthBound = 2 ^ 64 := by
  decide

lemma Text.boundedValue?_eq_some_iff {digits : List Char} {n : Nat} :
    Text.boundedValue? digits = some n ↔
      digits ≠ [] ∧ Nat.ofDigitChars 10 digits 0 < 2 ^ 64 ∧ Nat.ofDigitChars 10 digits 0 = n := by
  have hvalue : Text.digitsValue digits = Nat.ofDigitChars 10 digits 0 := rfl
  rw [Text.boundedValue?, hvalue, Text.lengthBound_eq]
  cases digits <;> simp

/-- What may stand between the brackets of a suffix: nothing, or digits for a length below
`2 ^ 64`, leading zeros included. -/
inductive Extent.WrittenBy : Extent → List Char → Prop
  | dynamic : WrittenBy .dynamic []
  | fixed {digits : List Char} {length : Nat} (hne : digits ≠ [])
      (hdigits : ∀ c ∈ digits, c.isDigit = true) (hvalue : Nat.ofDigitChars 10 digits 0 = length)
      (hbound : length < 2 ^ 64) : WrittenBy (.fixed length) digits

lemma Extent.WrittenBy.isDigit {extent : Extent} {digits : List Char}
    (h : extent.WrittenBy digits) : ∀ c ∈ digits, c.isDigit = true := by
  cases h with
  | dynamic => simp
  | fixed _ hdigits _ _ => exact hdigits

lemma Extent.isDigit_of_forall₂ {extents : List Extent} {insides : List (List Char)}
    (h : List.Forall₂ Extent.WrittenBy extents insides) :
    ∀ inside ∈ insides, ∀ c ∈ inside, c.isDigit = true := by
  induction h with
  | nil => exact List.forall_mem_nil _
  | cons hfirst _ ih => exact List.forall_mem_cons.mpr ⟨hfirst.isDigit, ih⟩

namespace TypeExpr

/-- An array suffix with the given text between its brackets. -/
def bracketed (inside : List Char) : List Char := '[' :: inside ++ [']']

/-! ## Reading suffixes -/

/-- Digits are kept until the length ends. -/
lemma scanLength_append {start : Nat} {digits run : List Char}
    (hrun : ∀ c ∈ run, c.isDigit = true) (rest : List Char) :
    scanLength start digits (run ++ rest) = scanLength start (digits ++ run) rest := by
  induction run generalizing digits with
  | nil => simp
  | cons c run ih =>
      obtain ⟨hc, hrest⟩ := List.forall_mem_cons.mp hrun
      rw [List.cons_append, scanLength, if_pos hc, ih hrest, List.append_assoc,
        List.singleton_append]

/-- A bracket that closes what may stand in it ends a suffix. -/
lemma scanLength_close {start : Nat} {digits : List Char} {extent : Extent}
    (hwritten : extent.WrittenBy digits) (rest : List Char) :
    scanLength start digits (']' :: rest) =
      (do return extent :: (← scanExtents (start + digits.length + 1) rest)) := by
  have hbracket : ¬(']').isDigit = true := by decide
  rw [scanLength, if_neg hbracket]
  cases hwritten with
  | dynamic => simp
  | fixed hne _ hvalue hbound =>
      have hlength := Text.boundedValue?_eq_some_iff.mpr ⟨hne, hvalue ▸ hbound, hvalue⟩
      simp [hne, hlength]

/-- What is read in a bracket is what may stand in it, up to the bracket that closes it. -/
lemma exists_close_of_scanLength {start : Nat} {digits text : List Char} {extents : List Extent}
    (hdigits : ∀ c ∈ digits, c.isDigit = true) (h : scanLength start digits text = .ok extents) :
    ∃ run rest extent, text = run ++ ']' :: rest ∧ Extent.WrittenBy extent (digits ++ run) := by
  induction text generalizing digits with
  | nil =>
      rw [scanLength] at h
      split at h <;> cases h
  | cons c text ih =>
      rw [scanLength] at h
      by_cases hc : c.isDigit = true
      · rw [if_pos hc] at h
        have hkept : ∀ d ∈ digits ++ [c], d.isDigit = true :=
          List.forall_mem_append.mpr ⟨hdigits, by simpa using hc⟩
        obtain ⟨run, rest, extent, rfl, hwritten⟩ := ih hkept h
        exact ⟨c :: run, rest, extent, rfl, by simpa using hwritten⟩
      · rw [if_neg hc] at h
        by_cases hempty : c = ']' ∧ digits = []
        · obtain ⟨rfl, rfl⟩ := hempty
          exact ⟨[], text, .dynamic, rfl, .dynamic⟩
        · rw [if_neg hempty] at h
          cases hvalue : Text.boundedValue? digits with
          | none => simp [hvalue] at h
          | some length =>
              obtain ⟨hne, hbound, hlength⟩ := Text.boundedValue?_eq_some_iff.mp hvalue
              by_cases hclose : c = ']'
              · subst hclose
                refine ⟨[], text, .fixed length, rfl, ?_⟩
                rw [List.append_nil]
                exact .fixed hne hdigits hlength (hlength ▸ hbound)
              · simp [hvalue, hclose] at h

/-- A suffix is read, and then what follows it. -/
lemma scanExtents_bracketed {position : Nat} {inside : List Char} {extent : Extent}
    (hwritten : extent.WrittenBy inside) (rest : List Char) :
    scanExtents position (bracketed inside ++ rest) =
      (do return extent :: (← scanExtents (position + 1 + inside.length + 1) rest)) := by
  have htext : bracketed inside ++ rest = '[' :: (inside ++ ']' :: rest) := by
    simp [bracketed]
  rw [htext, scanExtents, if_pos rfl, scanLength_append hwritten.isDigit, List.nil_append,
    scanLength_close hwritten]

/-- Suffixes are read one after another, and then what follows them. -/
lemma scanExtents_append {extents : List Extent} {insides : List (List Char)}
    (h : List.Forall₂ Extent.WrittenBy extents insides) (position : Nat) (rest : List Char) :
    scanExtents position (insides.flatMap bracketed ++ rest) =
      (extents ++ ·) <$> scanExtents (position + (insides.flatMap bracketed).length) rest := by
  induction h generalizing position with
  | nil => simp
  | @cons extent inside extents insides hfirst _ ih =>
      have hlength : position + (bracketed inside ++ insides.flatMap bracketed).length =
          position + 1 + inside.length + 1 + (insides.flatMap bracketed).length := by
        simp only [bracketed, List.length_append, List.length_cons, List.length_nil]
        omega
      rw [List.flatMap_cons, List.append_assoc, scanExtents_bracketed hfirst, ih, hlength]
      cases scanExtents (position + 1 + inside.length + 1 + (insides.flatMap bracketed).length)
        rest <;> rfl

/-- Reading succeeds at the end of the text, or by reading a suffix and going on after it. -/
lemma exists_bracketed_of_scanExtents {position : Nat} {text : List Char} {extents : List Extent}
    (h : scanExtents position text = .ok extents) :
    (text = [] ∧ extents = []) ∨
      ∃ inside rest extent, text = bracketed inside ++ rest ∧ Extent.WrittenBy extent inside := by
  cases text with
  | nil =>
      cases h
      exact .inl ⟨rfl, rfl⟩
  | cons c text =>
      rw [scanExtents] at h
      by_cases hc : c = '['
      · rw [if_pos hc] at h
        obtain ⟨run, rest, extent, rfl, hwritten⟩ := exists_close_of_scanLength (by simp) h
        exact .inr ⟨run, rest, extent, by simp [bracketed, hc], hwritten⟩
      · simp [hc] at h

/-- **Suffixes are read as they are written**, one after another. -/
lemma scanExtents_eq_ok_iff {position : Nat} {text : List Char} {extents : List Extent} :
    scanExtents position text = .ok extents ↔
      ∃ insides, List.Forall₂ Extent.WrittenBy extents insides ∧
        text = insides.flatMap bracketed := by
  constructor
  · intro h
    induction extents generalizing position text with
    | nil =>
        rcases exists_bracketed_of_scanExtents h with ⟨rfl, -⟩ | ⟨inside, rest, extent, rfl, hfirst⟩
        · exact ⟨[], .nil, rfl⟩
        · rw [scanExtents_bracketed hfirst] at h
          obtain ⟨extents, -, hpure⟩ := bind_eq_ok_iff.mp h
          cases hpure
    | cons extent extents ih =>
        rcases exists_bracketed_of_scanExtents h with ⟨-, hnil⟩ | ⟨inside, rest, first, rfl, hfirst⟩
        · cases hnil
        · rw [scanExtents_bracketed hfirst] at h
          obtain ⟨others, hrest, hpure⟩ := bind_eq_ok_iff.mp h
          cases hpure
          obtain ⟨insides, hwritten, rfl⟩ := ih hrest
          exact ⟨inside :: insides, .cons hfirst hwritten, rfl⟩
  · rintro ⟨insides, hwritten, rfl⟩
    rw [← List.append_nil (insides.flatMap bracketed), scanExtents_append hwritten, scanExtents,
      map_eq_ok_iff]
    exact ⟨[], rfl, List.append_nil extents⟩

/-! ## Base names -/

/-- What a base name is: a letter, followed by letters and digits. -/
def IsBaseName : List Char → Prop
  | [] => False
  | c :: rest => c.isAlpha = true ∧ ∀ d ∈ rest, d.isAlphanum = true

lemma isAlphanum_of_isAlpha {c : Char} (h : c.isAlpha = true) : c.isAlphanum = true := by
  simp [Char.isAlphanum, h]

lemma IsBaseName.isAlphanum {base : List Char} (h : IsBaseName base) :
    ∀ c ∈ base, c.isAlphanum = true := by
  cases base with
  | nil => cases h
  | cons c base => exact List.forall_mem_cons.mpr ⟨isAlphanum_of_isAlpha h.1, h.2⟩

/-- A base name is read up to the first suffix. -/
lemma baseName_append {base rest : List Char} (hbase : IsBaseName base)
    (hrest : rest.takeWhile Char.isAlphanum = []) : baseName (base ++ rest) = base := by
  have hall := hbase.isAlphanum
  cases base with
  | nil => cases hbase
  | cons c base =>
      rw [List.cons_append, baseName, if_pos hbase.1, ← List.cons_append,
        List.takeWhile_append_of_pos hall, hrest, List.append_nil]

/-- What is read as a base name is one, and the text starts with it. -/
lemma isBaseName_baseName {text : List Char} (h : baseName text ≠ []) :
    IsBaseName (baseName text) ∧ baseName text ++ text.drop (baseName text).length = text := by
  cases text with
  | nil => exact absurd rfl h
  | cons c text =>
      by_cases hc : c.isAlpha = true
      · have hbase : baseName (c :: text) = (c :: text).takeWhile Char.isAlphanum := by
          rw [baseName, if_pos hc]
        rw [hbase]
        refine ⟨?_, List.prefix_iff_eq_append.mp (List.takeWhile_prefix _)⟩
        rw [List.takeWhile_cons_of_pos (isAlphanum_of_isAlpha hc)]
        exact ⟨hc, List.all_eq_true.mp List.all_takeWhile⟩
      · simp [baseName, hc] at h

/-! ## Expressions -/

/-- How an expression is written: the base name, and then one suffix for each extent. -/
def Written (expr : TypeExpr) (text : String) : Prop :=
  IsBaseName expr.base.toList ∧ ∃ insides, List.Forall₂ Extent.WrittenBy expr.extents insides ∧
    text.toList = expr.base.toList ++ insides.flatMap bracketed

/-- Suffixes do not go on a base name. -/
lemma takeWhile_flatMap_bracketed (insides : List (List Char)) :
    (insides.flatMap bracketed).takeWhile Char.isAlphanum = [] := by
  cases insides with
  | nil => rfl
  | cons inside insides => simp [bracketed]

/-- A base name is read, and then the suffixes after it. -/
lemma parseChars_append {base rest : List Char} (hbase : IsBaseName base)
    (hrest : rest.takeWhile Char.isAlphanum = []) :
    parseChars (base ++ rest) =
      (fun extents => ⟨String.ofList base, extents⟩) <$> scanExtents base.length rest := by
  have hne : ¬base.isEmpty = true := by
    intro hempty
    rw [List.isEmpty_iff.mp hempty] at hbase
    exact hbase
  simp only [parseChars, baseName_append hbase hrest, if_neg hne, List.drop_left]
  cases scanExtents base.length rest <;> rfl

/-- **Reading accepts exactly the written expressions.** -/
lemma parse_eq_ok_iff {text : String} {expr : TypeExpr} :
    parse text = .ok expr ↔ expr.Written text := by
  rw [parse]
  constructor
  · intro h
    rw [parseChars] at h
    split_ifs at h with hempty
    obtain ⟨extents, hextents, hpure⟩ := bind_eq_ok_iff.mp h
    cases hpure
    obtain ⟨insides, hwritten, hrest⟩ := scanExtents_eq_ok_iff.mp hextents
    obtain ⟨hbase, htext⟩ := isBaseName_baseName (by simpa using hempty)
    refine ⟨by simpa using hbase, insides, hwritten, ?_⟩
    rw [String.toList_ofList, ← hrest]
    exact htext.symm
  · rintro ⟨hbase, insides, hwritten, htext⟩
    rw [htext, parseChars_append hbase (takeWhile_flatMap_bracketed insides), map_eq_ok_iff]
    refine ⟨expr.extents, scanExtents_eq_ok_iff.mpr ⟨insides, hwritten, rfl⟩, ?_⟩
    rw [String.ofList_toList]

/-- One more suffix makes an expression of one more extent, the outermost. -/
lemma Written.append {expr : TypeExpr} {text : String} {extent : Extent} {inside : List Char}
    (h : expr.Written text) (hwritten : extent.WrittenBy inside) :
    Written ⟨expr.base, expr.extents ++ [extent]⟩ (text ++ String.ofList (bracketed inside)) := by
  obtain ⟨hbase, insides, hinsides, htext⟩ := h
  refine ⟨hbase, insides ++ [inside], List.rel_append hinsides (.cons hwritten .nil), ?_⟩
  simp [htext]

end TypeExpr

end ContractInterface

import ContractInterface.Proofs.Spelling

/-!
# Writing type expressions back

Different texts can be the same type expression, since lengths may have leading zeros: `bool[3]` and
`bool[003]` are.  Of all these texts `TypeExpr.render` gives one back, and this module says which:
the one without leading zeros (`TypeExpr.parse_and_render`).

`HasLeadingZero` looks for a leading zero in the text as it stands, wherever its suffixes begin and
end.  In a text that is made of a base name and suffixes, this comes to a suffix that is `Padded`
(`hasLeadingZero_flatMap_iff`), and a length has exactly one numeral that is not
(`Extent.WrittenBy.eq_digits_iff`).
-/

namespace ContractInterface

/-! ## Numerals with leading zeros -/

/-- Whether a numeral has a zero before its other digits. -/
def Padded (numeral : List Char) : Prop := ∃ d rest, numeral = '0' :: d :: rest

lemma not_padded_iff {numeral : List Char} (hne : numeral ≠ []) :
    ¬Padded numeral ↔ numeral.head? ≠ some '0' ∨ numeral.length = 1 := by
  rcases numeral with _ | ⟨c, _ | ⟨d, rest⟩⟩
  · exact absurd rfl hne
  · simp [Padded]
  · simp [Padded]

lemma not_padded_toDigits (n : Nat) : ¬Padded (Nat.toDigits 10 n) := by
  rw [not_padded_iff Nat.toDigits_ne_nil]
  rcases Nat.eq_zero_or_pos n with rfl | hpos
  · exact .inr rfl
  · exact .inl (head?_toDigits_ne_zero hpos)

namespace Extent

/-- Of the ways to write an extent, only its digits are not padded. -/
lemma WrittenBy.eq_digits_iff {extent : Extent} {inside : List Char}
    (h : extent.WrittenBy inside) : inside = extent.digits ↔ ¬Padded inside := by
  cases h with
  | dynamic => simp [digits, Padded]
  | @fixed numeral length hne hdigits hvalue hbound =>
      rw [digits]
      constructor
      · rintro rfl
        exact not_padded_toDigits length
      · intro hpadded
        rw [← hvalue]
        exact eq_toDigits_of_canonical hne hdigits ((not_padded_iff hne).mp hpadded)

/-- The digits of an extent that can be written at all are one of the ways to write it. -/
lemma WrittenBy.digits {extent : Extent} {inside : List Char} (h : extent.WrittenBy inside) :
    extent.WrittenBy extent.digits := by
  cases h with
  | dynamic => exact .dynamic
  | fixed _ _ _ hbound => exact @AbiType.LengthBounded.writtenBy .unknown _ hbound

end Extent

namespace TypeExpr

/-! ## Leading zeros in a text -/

/-- Whether a length in a text has a leading zero: a bracket is opened, and what follows is a zero
and one more digit. -/
def HasLeadingZero (text : List Char) : Prop :=
  ∃ d : Char, d.isDigit = true ∧ ['[', '0', d] <:+: text

/-- Where no bracket is opened, there is no length. -/
lemma hasLeadingZero_append_iff {before : List Char} (h : ∀ c ∈ before, c ≠ '[')
    (text : List Char) : HasLeadingZero (before ++ text) ↔ HasLeadingZero text := by
  induction before with
  | nil => rfl
  | cons c before ih =>
      obtain ⟨hc, hrest⟩ := List.forall_mem_cons.mp h
      rw [← ih hrest, HasLeadingZero, HasLeadingZero]
      simp only [List.cons_append, List.infix_cons_iff, List.cons_prefix_cons, hc.symm, false_and,
        false_or]

/-- A numeral is padded if it looks so before the bracket that closes it. -/
lemma padded_iff_exists_digit {inside : List Char} (h : ∀ c ∈ inside, c.isDigit = true)
    (text : List Char) :
    Padded inside ↔ ∃ d : Char, d.isDigit = true ∧ ['0', d] <+: inside ++ ']' :: text := by
  rcases inside with _ | ⟨c, _ | ⟨d, rest⟩⟩
  · simp [Padded]
  · have hclose : ¬(']').isDigit = true := by decide
    simp [Padded, hclose]
  · have hd : d.isDigit = true := h d (by simp)
    constructor
    · rintro ⟨_, _, hpadded⟩
      obtain ⟨rfl, -⟩ := List.cons.inj hpadded
      exact ⟨d, hd, by simp⟩
    · rintro ⟨_, -, hzero⟩
      obtain ⟨rfl, -⟩ := List.cons_prefix_cons.mp hzero
      exact ⟨d, rest, rfl⟩

/-- A length has a leading zero if it is in the first suffix, or in what follows. -/
lemma hasLeadingZero_bracketed_append_iff {inside : List Char}
    (h : ∀ c ∈ inside, c.isDigit = true) (text : List Char) :
    HasLeadingZero (bracketed inside ++ text) ↔ Padded inside ∨ HasLeadingZero text := by
  have hafter : ∀ c ∈ inside ++ [']'], c ≠ '[' := by
    rintro c hc rfl
    rcases List.mem_append.mp hc with hinside | hclose
    · exact absurd (h _ hinside) (by decide)
    · simp at hclose
  have hsplit : bracketed inside ++ text = '[' :: (inside ++ ']' :: text) := by
    simp [bracketed]
  have hrest : HasLeadingZero (inside ++ ']' :: text) ↔ HasLeadingZero text := by
    rw [← hasLeadingZero_append_iff hafter text, List.append_assoc, List.singleton_append]
  rw [padded_iff_exists_digit h text, ← hrest, hsplit, HasLeadingZero, HasLeadingZero, ← exists_or]
  simp only [List.infix_cons_iff, List.cons_prefix_cons, true_and, and_or_left]

/-- A text of suffixes has a leading zero if the inside of a suffix is padded. -/
lemma hasLeadingZero_flatMap_iff {insides : List (List Char)}
    (h : ∀ inside ∈ insides, ∀ c ∈ inside, c.isDigit = true) :
    HasLeadingZero (insides.flatMap bracketed) ↔ ∃ inside ∈ insides, Padded inside := by
  induction insides with
  | nil => simp [HasLeadingZero]
  | cons inside insides ih =>
      obtain ⟨hfirst, hrest⟩ := List.forall_mem_cons.mp h
      rw [List.flatMap_cons, hasLeadingZero_bracketed_append_iff hfirst, ih hrest,
        List.exists_mem_cons_iff]

/-! ## Rendering -/

lemma toList_renderExtents (extents : List Extent) :
    (renderExtents extents).toList = (extents.map Extent.digits).flatMap bracketed := by
  induction extents with
  | nil => rfl
  | cons extent extents ih =>
      rw [renderExtents, String.toList_append, ih, Extent.toList_suffix, List.map_cons,
        List.flatMap_cons, bracketed]

lemma toList_render (expr : TypeExpr) :
    expr.render.toList =
      expr.base.toList ++ (expr.extents.map Extent.digits).flatMap bracketed := by
  rw [render, String.toList_append, toList_renderExtents]

lemma forall₂_digits {extents : List Extent} {insides : List (List Char)}
    (h : List.Forall₂ Extent.WrittenBy extents insides) :
    List.Forall₂ Extent.WrittenBy extents (extents.map Extent.digits) := by
  induction h with
  | nil => exact .nil
  | cons hfirst _ ih => exact .cons hfirst.digits ih

/-- What can be written at all is written by its rendering. -/
lemma Written.render {expr : TypeExpr} {text : String} (h : expr.Written text) :
    expr.Written expr.render := by
  obtain ⟨hbase, insides, hwritten, -⟩ := h
  exact ⟨hbase, expr.extents.map Extent.digits, forall₂_digits hwritten, toList_render expr⟩

/-- Suffixes are written as rendering writes them if none is padded. -/
lemma eq_map_digits_iff {extents : List Extent} {insides : List (List Char)}
    (h : List.Forall₂ Extent.WrittenBy extents insides) :
    insides = extents.map Extent.digits ↔ ¬∃ inside ∈ insides, Padded inside := by
  induction h with
  | nil => simp
  | cons hfirst _ ih =>
      rw [List.map_cons, List.cons.injEq, hfirst.eq_digits_iff, ih, List.exists_mem_cons_iff,
        not_or]

/-- **Rendering leaves out leading zeros**, and nothing else. -/
lemma Written.render_eq_iff {expr : TypeExpr} {text : String} (h : expr.Written text) :
    expr.render = text ↔ ¬HasLeadingZero text.toList := by
  obtain ⟨hbase, insides, hwritten, htext⟩ := h
  have hname : ∀ c ∈ expr.base.toList, c ≠ '[' := by
    rintro c hc rfl
    exact absurd (hbase.isAlphanum _ hc) (by decide)
  have hzero : ∀ {others : List (List Char)},
      List.Forall₂ Extent.WrittenBy expr.extents others →
        (HasLeadingZero (expr.base.toList ++ others.flatMap bracketed) ↔
          ∃ inside ∈ others, Padded inside) := by
    intro others hothers
    rw [hasLeadingZero_append_iff hname,
      hasLeadingZero_flatMap_iff (Extent.isDigit_of_forall₂ hothers)]
  constructor
  · rintro rfl
    have hdigits := forall₂_digits hwritten
    rw [toList_render, hzero hdigits, ← eq_map_digits_iff hdigits]
  · intro hnone
    rw [htext, hzero hwritten, ← eq_map_digits_iff hwritten] at hnone
    apply String.toList_injective
    rw [toList_render, htext, hnone]

/-- **Reading accepts exactly the written expressions, and rendering writes them back.**  A text can
be read as an expression exactly if it is a base name followed by suffixes, and then it is the
expression of that name and of their lengths in order.  Its rendering is read as the same
expression, and is the text itself exactly if no length in the text has a leading zero. -/
theorem parse_and_render (text : String) (expr : TypeExpr) :
    (parse text = .ok expr ↔ expr.Written text) ∧
      (parse text = .ok expr → parse expr.render = .ok expr ∧
        (expr.render = text ↔ ¬HasLeadingZero text.toList)) := by
  refine ⟨parse_eq_ok_iff, fun h => ?_⟩
  have hwritten : expr.Written text := parse_eq_ok_iff.mp h
  exact ⟨parse_eq_ok_iff.mpr hwritten.render, hwritten.render_eq_iff⟩

/-- Two texts of one expression.  A length of zero is written with one digit, which is no leading
zero. -/
theorem parse_and_render_tuple :
    ∃ expr, parse "tuple[03][][0]" = .ok expr ∧ expr.Written "tuple[03][][0]" ∧
      HasLeadingZero "tuple[03][][0]".toList ∧ expr.render = "tuple[3][][0]" ∧
      parse "tuple[3][][0]" = .ok expr ∧ ¬HasLeadingZero "tuple[3][][0]".toList := by
  have hpadded : parse "tuple[03][][0]" = .ok ⟨"tuple", [.fixed 3, .dynamic, .fixed 0]⟩ := by
    decide +kernel
  have hrender : render ⟨"tuple", [.fixed 3, .dynamic, .fixed 0]⟩ = "tuple[3][][0]" := by
    decide +kernel
  obtain ⟨hwritten, hrendered⟩ := parse_and_render "tuple[03][][0]" _
  obtain ⟨hagain, hzero⟩ := hrendered hpadded
  rw [hrender] at hagain hzero
  obtain ⟨-, hsame⟩ := (parse_and_render "tuple[3][][0]" _).2 hagain
  exact ⟨_, hpadded, hwritten.mp hpadded, not_not.mp (mt hzero.mpr (by decide)), hrender, hagain,
    hsame.mp hrender⟩

end TypeExpr

end ContractInterface

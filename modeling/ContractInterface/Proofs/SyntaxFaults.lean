import ContractInterface.Proofs.CanonicalText
import ContractInterface.Proofs.TypeExpr

/-!
# Faults in written types

A text that is no type expression is refused with a position and a cause.  This module says what the
position means to the writer of the text: all that stands before it could have become a type
expression, and what stands there cannot (`TypeExpr.parse_fault_after_viable`).  It would not do to
follow the scanner for this, since to say that no text with a given beginning can be read is to say
something about texts that are not at hand.

* `StopsAfter read after cause` lists what can stand after whole suffixes if reading stops there:
  `read` is still part of what can be read, and `after` is what follows.  It does not depend on
  anything before.
* Every text without a fault in its name is a written expression followed by such a place, or by
  nothing (`exists_breaks`), so these are all the faults (`parse_eq_error_iff`).
* Nothing to the right of a few characters matters to a stop.  So whatever they are followed by, the
  text is refused, and they begin no text that can be read (`not_viable_of_stopsAfter`).

One fault is not where it is noticed.  A length that is too large is told by its last digits, while
the fault is said to be where its first digit is; the digit run as a whole is then what cannot be
part of a type expression.
-/

namespace ContractInterface

/-! ## Runs of digits -/

lemma Text.boundedValue?_eq_none_iff {digits : List Char} :
    Text.boundedValue? digits = none ↔
      digits = [] ∨ 2 ^ 64 ≤ Nat.ofDigitChars 10 digits 0 := by
  have hvalue : Text.digitsValue digits = Nat.ofDigitChars 10 digits 0 := rfl
  rw [Text.boundedValue?, hvalue, Text.lengthBound_eq]
  cases digits <;> simp

lemma ne_nil_of_overflow {digits : List Char} (h : 2 ^ 64 ≤ Nat.ofDigitChars 10 digits 0) :
    digits ≠ [] := by
  rintro rfl
  exact absurd h (by decide)

/-- More digits make a number no smaller. -/
lemma le_ofDigitChars (digits : List Char) (n : Nat) : n ≤ Nat.ofDigitChars 10 digits n := by
  induction digits generalizing n with
  | nil => exact Nat.le_refl n
  | cons c digits ih =>
      calc
        n ≤ 10 * n + (c.toNat - '0'.toNat) := by omega
        _ ≤ Nat.ofDigitChars 10 digits (10 * n + (c.toNat - '0'.toNat)) := ih _
        _ = Nat.ofDigitChars 10 (c :: digits) n := Nat.ofDigitChars_cons.symm

/-- Every text starts with a run of digits, which may be empty, and does not go on with one. -/
lemma exists_digit_run (text : List Char) :
    ∃ run rest, text = run ++ rest ∧ (∀ c ∈ run, c.isDigit = true) ∧
      ∀ c ∈ rest.head?, ¬c.isDigit = true := by
  refine ⟨text.takeWhile Char.isDigit, text.dropWhile Char.isDigit,
    List.takeWhile_append_dropWhile.symm, List.all_eq_true.mp List.all_takeWhile, ?_⟩
  intro c hc
  have hstop := List.head?_dropWhile_not Char.isDigit text
  rw [Option.mem_def.mp hc] at hstop
  simp [hstop]

lemma takeWhile_digit_run {run rest : List Char} (hrun : ∀ c ∈ run, c.isDigit = true)
    (hrest : ∀ c ∈ rest.head?, ¬c.isDigit = true) :
    (run ++ rest).takeWhile Char.isDigit = run := by
  rw [List.takeWhile_append_of_pos hrun]
  cases rest with
  | nil => simp
  | cons c rest => rw [List.takeWhile_cons_of_neg (hrest c rfl), List.append_nil]

namespace TypeExpr

/-! ## Where reading stops -/

/-- How reading stops after whole suffixes: what is still read, what stands after it, and why. -/
inductive StopsAfter : List Char → List Char → SyntaxCause → Prop
  | trailing {c : Char} {rest : List Char} (hc : c ≠ '[') :
      StopsAfter [] (c :: rest) .trailingInput
  /-- A bracket is opened, and there is neither a length nor a bracket that closes it. -/
  | noLength {rest : List Char} (hrest : ∀ c ∈ rest.head?, ¬c.isDigit = true ∧ c ≠ ']') :
      StopsAfter ['['] rest .invalidLength
  /-- The length is not below the bound. -/
  | overflow {run rest : List Char} (hrun : ∀ c ∈ run, c.isDigit = true)
      (hvalue : 2 ^ 64 ≤ Nat.ofDigitChars 10 run 0)
      (hrest : ∀ c ∈ rest.head?, ¬c.isDigit = true) :
      StopsAfter ['['] (run ++ rest) .invalidLength
  /-- There is a length, and no bracket that closes it. -/
  | unclosed {run rest : List Char} (hne : run ≠ []) (hrun : ∀ c ∈ run, c.isDigit = true)
      (hvalue : Nat.ofDigitChars 10 run 0 < 2 ^ 64)
      (hrest : ∀ c ∈ rest.head?, ¬c.isDigit = true ∧ c ≠ ']') :
      StopsAfter ('[' :: run) rest .unclosedBracket

lemma scanLength_of_invalid {start : Nat} {run rest : List Char}
    (hvalue : Text.boundedValue? run = none)
    (hrest : ∀ c ∈ rest.head?, ¬c.isDigit = true ∧ ¬(c = ']' ∧ run = [])) :
    scanLength start run rest = .error ⟨start, .invalidLength⟩ := by
  cases rest with
  | nil => rw [scanLength, hvalue]
  | cons c rest =>
      obtain ⟨hdigit, hclose⟩ := hrest c rfl
      rw [scanLength, if_neg hdigit, if_neg hclose, hvalue]

lemma scanLength_of_unclosed {start length : Nat} {run rest : List Char}
    (hvalue : Text.boundedValue? run = some length)
    (hrest : ∀ c ∈ rest.head?, ¬c.isDigit = true ∧ c ≠ ']') :
    scanLength start run rest = .error ⟨start + run.length, .unclosedBracket⟩ := by
  cases rest with
  | nil => rw [scanLength, hvalue]
  | cons c rest =>
      obtain ⟨hdigit, hclose⟩ := hrest c rfl
      rw [scanLength, if_neg hdigit, if_neg (fun h => hclose h.1), hvalue]
      exact if_neg hclose

/-- Reading stops where it is said to. -/
lemma scanExtents_of_stopsAfter {read after : List Char} {cause : SyntaxCause}
    (h : StopsAfter read after cause) (position : Nat) :
    scanExtents position (read ++ after) = .error ⟨position + read.length, cause⟩ := by
  cases h with
  | trailing hc => rw [List.nil_append, scanExtents, if_neg hc, List.length_nil, Nat.add_zero]
  | noLength hrest =>
      rw [List.singleton_append, scanExtents, if_pos rfl]
      exact scanLength_of_invalid (Text.boundedValue?_eq_none_iff.mpr (.inl rfl))
        fun c hc => ⟨(hrest c hc).1, fun hclose => (hrest c hc).2 hclose.1⟩
  | overflow hrun hvalue hrest =>
      rw [List.singleton_append, scanExtents, if_pos rfl, scanLength_append hrun, List.nil_append]
      exact scanLength_of_invalid (Text.boundedValue?_eq_none_iff.mpr (.inr hvalue))
        fun c hc => ⟨hrest c hc, fun hclose => ne_nil_of_overflow hvalue hclose.2⟩
  | @unclosed run rest hne hrun hvalue hrest =>
      have hlength := Text.boundedValue?_eq_some_iff.mpr ⟨hne, hvalue, rfl⟩
      rw [List.cons_append, scanExtents, if_pos rfl, scanLength_append hrun, List.nil_append,
        scanLength_of_unclosed hlength hrest, List.length_cons, Nat.add_right_comm, Nat.add_assoc]

/-! ## There is no other place to stop -/

/-- After a bracket is opened, the suffix is closed as it should be, or reading stops. -/
lemma bracketed_or_stopsAfter (text : List Char) :
    (∃ inside rest extent, '[' :: text = bracketed inside ++ rest ∧
        Extent.WrittenBy extent inside) ∨
      ∃ read after cause, '[' :: text = read ++ after ∧ StopsAfter read after cause := by
  obtain ⟨run, rest, rfl, hrun, hrest⟩ := exists_digit_run text
  by_cases hvalue : 2 ^ 64 ≤ Nat.ofDigitChars 10 run 0
  · exact .inr ⟨['['], run ++ rest, _, rfl, .overflow hrun hvalue hrest⟩
  have hbound : Nat.ofDigitChars 10 run 0 < 2 ^ 64 := Nat.lt_of_not_le hvalue
  by_cases hclosed : rest.head? = some ']'
  · obtain ⟨rest, rfl⟩ := List.head?_eq_some_iff.mp hclosed
    have htext : '[' :: (run ++ ']' :: rest) = bracketed run ++ rest := by simp [bracketed]
    by_cases hempty : run = []
    · subst hempty
      exact .inl ⟨[], rest, .dynamic, htext, .dynamic⟩
    · exact .inl ⟨run, rest, .fixed _, htext, .fixed hempty hrun rfl hbound⟩
  · have hopen : ∀ c ∈ rest.head?, ¬c.isDigit = true ∧ c ≠ ']' := by
      intro c hc
      refine ⟨hrest c hc, ?_⟩
      rintro rfl
      exact hclosed hc
    by_cases hempty : run = []
    · subst hempty
      exact .inr ⟨['['], rest, _, rfl, .noLength hopen⟩
    · exact .inr ⟨'[' :: run, rest, _, rfl, .unclosed hempty hrun hbound hopen⟩

/-- Every text is made of whole suffixes, followed by nothing or by a place where reading stops. -/
lemma exists_suffixes (text : List Char) :
    ∃ extents insides rest, List.Forall₂ Extent.WrittenBy extents insides ∧
      text = insides.flatMap bracketed ++ rest ∧
      (rest = [] ∨ ∃ read after cause, rest = read ++ after ∧ StopsAfter read after cause) := by
  induction hlength : text.length using Nat.strong_induction_on generalizing text with
  | _ n ih =>
      cases text with
      | nil => exact ⟨[], [], [], .nil, rfl, .inl rfl⟩
      | cons c text =>
          by_cases hc : c = '['
          · subst hc
            rcases bracketed_or_stopsAfter text with
              ⟨inside, after, extent, htext, hwritten⟩ | hstop
            · have hshorter : after.length < n := by
                rw [← hlength, htext, bracketed, List.length_append, List.length_append]
                simp
              obtain ⟨extents, insides, rest, hwrittens, rfl, hrest⟩ := ih _ hshorter after rfl
              refine ⟨extent :: extents, inside :: insides, rest, .cons hwritten hwrittens, ?_,
                hrest⟩
              rw [htext, List.flatMap_cons, List.append_assoc]
            · exact ⟨[], [], _, .nil, rfl, .inr hstop⟩
          · exact ⟨[], [], _, .nil, rfl, .inr ⟨[], c :: text, _, rfl, .trailing hc⟩⟩

/-- Whether a text is a written expression up to a point, and what follows does not go on with its
base name. -/
structure Breaks (expr : TypeExpr) (done rest : List Char) : Prop where
  written : expr.Written (String.ofList done)
  ends : expr.extents = [] → rest.takeWhile Char.isAlphanum = []

/-- A base name is read as far as it goes. -/
lemma takeWhile_drop_baseName {text : List Char} (h : baseName text ≠ []) :
    (text.drop (baseName text).length).takeWhile Char.isAlphanum = [] := by
  obtain ⟨hbase, htext⟩ := isBaseName_baseName h
  have hrun : text.takeWhile Char.isAlphanum = baseName text := by
    cases text with
    | nil => exact absurd rfl h
    | cons c text =>
        by_cases hc : c.isAlpha = true
        · rw [baseName, if_pos hc]
        · simp [baseName, hc] at h
  nth_rewrite 1 [← htext] at hrun
  rw [List.takeWhile_append_of_pos hbase.isAlphanum] at hrun
  exact List.append_right_eq_self.mp hrun

/-- A text that starts with a name is a written expression, followed by nothing or by a place where
reading stops. -/
lemma exists_breaks {text : List Char} (h : baseName text ≠ []) :
    ∃ expr done rest, text = done ++ rest ∧ Breaks expr done rest ∧
      (rest = [] ∨ ∃ read after cause, rest = read ++ after ∧ StopsAfter read after cause) := by
  obtain ⟨hbase, htext⟩ := isBaseName_baseName h
  obtain ⟨extents, insides, rest, hwritten, hafter, hrest⟩ :=
    exists_suffixes (text.drop (baseName text).length)
  refine ⟨⟨String.ofList (baseName text), extents⟩,
    baseName text ++ insides.flatMap bracketed, rest, ?_, ⟨?_, ?_⟩, hrest⟩
  · rw [List.append_assoc, ← hafter, htext]
  · exact ⟨by simpa using hbase, insides, hwritten, by simp⟩
  · rintro rfl
    cases hwritten
    rw [← takeWhile_drop_baseName h, hafter]
    rfl

/-- A text in which reading stops after a written expression is refused there. -/
lemma parse_of_stopsAfter {expr : TypeExpr} {done read after : List Char} {cause : SyntaxCause}
    (hbreaks : Breaks expr done (read ++ after)) (hstop : StopsAfter read after cause) :
    parse (String.ofList (done ++ (read ++ after))) =
      .error ⟨done.length + read.length, cause⟩ := by
  obtain ⟨⟨hbase, insides, hwritten, hdone⟩, hends⟩ := hbreaks
  rw [String.toList_ofList] at hdone
  have hname : (insides.flatMap bracketed ++ (read ++ after)).takeWhile Char.isAlphanum = [] := by
    cases insides with
    | nil => exact hends (List.forall₂_nil_right_iff.mp hwritten)
    | cons inside insides => simp [bracketed]
  rw [parse, String.toList_ofList, hdone, List.append_assoc, parseChars_append hbase hname,
    scanExtents_append hwritten, scanExtents_of_stopsAfter hstop, List.length_append]
  rfl

/-- **These are all the faults**: the text does not start with a name, or it is a written expression
up to a place where reading stops. -/
lemma parse_eq_error_iff {text : String} {fault : SyntaxFault} :
    parse text = .error fault ↔
      (baseName text.toList = [] ∧ fault = ⟨0, .invalidName⟩) ∨
        ∃ expr done read after, text.toList = done ++ (read ++ after) ∧
          Breaks expr done (read ++ after) ∧ StopsAfter read after fault.cause ∧
          fault.position = done.length + read.length := by
  constructor
  · intro h
    by_cases hname : baseName text.toList = []
    · rw [parse, parseChars, hname] at h
      exact .inl ⟨hname, (Except.error.inj h).symm⟩
    · obtain ⟨expr, done, rest, htext, hbreaks, rfl | ⟨read, after, cause, rfl, hstop⟩⟩ :=
        exists_breaks hname
      · -- Nothing follows the expression, so the text can be read.
        have hwritten := hbreaks.written
        rw [List.append_nil] at htext
        rw [← htext, String.ofList_toList, ← parse_eq_ok_iff, h] at hwritten
        cases hwritten
      · have hfault := parse_of_stopsAfter hbreaks hstop
        rw [← htext, String.ofList_toList, h] at hfault
        obtain rfl := Except.error.inj hfault
        exact .inr ⟨expr, done, read, after, htext, hbreaks, hstop, rfl⟩
  · rintro (⟨hname, rfl⟩ | ⟨expr, done, read, after, htext, hbreaks, hstop, hposition⟩)
    · rw [parse, parseChars, hname]
      rfl
    · have hfault := parse_of_stopsAfter hbreaks hstop
      rw [← htext, String.ofList_toList, ← hposition] at hfault
      exact hfault

/-! ## Viable beginnings -/

/-- Whether a text can still become a type expression: some text that can be read starts with it. -/
def Viable (start : List Char) : Prop :=
  ∃ text expr, parse text = .ok expr ∧ start <+: text.toList

/-- What is read before reading stops is the beginning of a suffix. -/
lemma StopsAfter.exists_suffix {read after : List Char} {cause : SyntaxCause}
    (h : StopsAfter read after cause) :
    ∃ extent inside, Extent.WrittenBy extent inside ∧ read <+: bracketed inside := by
  cases h with
  | trailing hc => exact ⟨.dynamic, [], .dynamic, List.nil_prefix⟩
  | noLength hrest => exact ⟨.dynamic, [], .dynamic, List.prefix_append ['['] [']']⟩
  | overflow hrun hvalue hrest => exact ⟨.dynamic, [], .dynamic, List.prefix_append ['['] [']']⟩
  | @unclosed run rest hne hrun hvalue hrest =>
      exact ⟨.fixed _, run, .fixed hne hrun rfl hvalue, List.prefix_append ('[' :: run) [']']⟩

lemma Breaks.viable {expr : TypeExpr} {done rest read after : List Char} {cause : SyntaxCause}
    (hbreaks : Breaks expr done rest) (hstop : StopsAfter read after cause) :
    Viable (done ++ read) := by
  obtain ⟨extent, inside, hwritten, hread⟩ := hstop.exists_suffix
  refine ⟨_, _, parse_eq_ok_iff.mpr (hbreaks.written.append hwritten), ?_⟩
  rw [String.toList_append, String.toList_ofList, String.toList_ofList]
  exact (List.prefix_append_right_inj done).mpr hread

/-- Characters after which reading stops whatever follows them begin no text that can be read. -/
lemma not_viable_of_stopsAfter {expr : TypeExpr} {done read rest : List Char} (next : List Char)
    (hbreaks : Breaks expr done (read ++ (next ++ rest))) (hne : next ≠ [])
    (hstops : ∀ more, ∃ cause, StopsAfter read (next ++ more) cause) :
    ¬Viable (done ++ read ++ next) := by
  rintro ⟨text, read', hparse, more, htext⟩
  obtain ⟨cause, hstop⟩ := hstops more
  -- What follows the base name, if the expression is no more than that, starts as before.
  have hends : expr.extents = [] → (read ++ (next ++ more)).takeWhile Char.isAlphanum = [] := by
    intro hextents
    have hbefore := hbreaks.ends hextents
    obtain ⟨c, others, rfl⟩ := List.exists_cons_of_ne_nil hne
    cases read with
    | nil => simpa [List.takeWhile_cons] using hbefore
    | cons d read => simpa [List.takeWhile_cons] using hbefore
  have hfault := parse_of_stopsAfter ⟨hbreaks.written, hends⟩ hstop
  have hsame : done ++ (read ++ (next ++ more)) = text.toList := by simpa using htext
  rw [hsame, String.ofList_toList, hparse] at hfault
  cases hfault

/-- A text that does not start with a letter begins no text that can be read. -/
lemma not_viable_of_baseName_eq_nil {c : Char} {text : List Char} (h : baseName (c :: text) = []) :
    ¬Viable [c] := by
  have hc : ¬c.isAlpha = true := by
    intro hc
    rw [baseName, if_pos hc, List.takeWhile_cons_of_pos (isAlphanum_of_isAlpha hc)] at h
    cases h
  rintro ⟨text', expr, hparse, more, htext⟩
  obtain ⟨hbase, insides, -, hwritten⟩ := parse_eq_ok_iff.mp hparse
  rw [← htext] at hwritten
  cases hname : expr.base.toList with
  | nil =>
      rw [hname] at hbase
      cases hbase
  | cons d name =>
      rw [hname] at hbase hwritten
      obtain ⟨rfl, -⟩ := List.cons.inj hwritten
      exact hc hbase.1

lemma viable_nil : Viable [] :=
  ⟨"bool", ⟨"bool", []⟩, by decide +kernel, List.nil_prefix⟩

/-- Type expressions are written in ASCII. -/
lemma Viable.isAscii {start : List Char} (h : Viable start) : ∀ c ∈ start, c.toNat < 128 := by
  obtain ⟨text, expr, hparse, hstart⟩ := h
  obtain ⟨hbase, insides, hwritten, htext⟩ := parse_eq_ok_iff.mp hparse
  intro c hc
  have hmem : c ∈ expr.base.toList ∨ ∃ inside ∈ insides, c ∈ bracketed inside := by
    simpa [htext] using hstart.subset hc
  rcases hmem with hname | ⟨inside, hinside, hbracketed⟩
  · have hrange := range_of_isAlphanum (hbase.isAlphanum c hname)
    omega
  · have hsplit : c = '[' ∨ c ∈ inside ∨ c = ']' := by
      simpa [bracketed] using hbracketed
    rcases hsplit with rfl | hdigit | rfl
    · decide
    · have hrange : 48 ≤ c.toNat ∧ c.toNat ≤ 57 :=
        Char.isDigit_iff_toNat.mp (Extent.isDigit_of_forall₂ hwritten inside hinside c hdigit)
      omega
    · decide

/-- In ASCII every character takes one byte. -/
lemma utf8ByteSize_of_isAscii {text : List Char} (h : ∀ c ∈ text, c.toNat < 128) :
    (String.ofList text).utf8ByteSize = text.length := by
  induction text with
  | nil => rfl
  | cons c text ih =>
      obtain ⟨hc, hrest⟩ := List.forall_mem_cons.mp h
      have hbyte : c.utf8Size = 1 :=
        Char.utf8Size_eq_one_iff.mpr (UInt32.le_iff_toNat_le.mpr (Nat.le_of_lt_succ hc))
      rw [String.ofList_cons, String.utf8ByteSize_append, String.utf8ByteSize_singleton, hbyte,
        ih hrest, List.length_cons, Nat.add_comm]

/-! ## What a position means -/

/-- How a text goes wrong after a beginning: what stands there, and the cause that is given. -/
inductive DeadEnd (before : List Char) : List Char → SyntaxCause → Prop
  /-- Nothing stands there, where something should. -/
  | textEnds {cause : SyntaxCause} : DeadEnd before [] cause
  | character {c : Char} {rest : List Char} {cause : SyntaxCause} (h : ¬Viable (before ++ [c])) :
      DeadEnd before (c :: rest) cause
  /-- A length stands there that is too large, although its first digits could be those of
  another. -/
  | length {after : List Char}
      (hvalue : 2 ^ 64 ≤ Nat.ofDigitChars 10 (after.takeWhile Char.isDigit) 0)
      (h : ¬Viable (before ++ after.takeWhile Char.isDigit)) :
      DeadEnd before after .invalidLength

/-- Where reading stops, the text has come to a dead end. -/
lemma Breaks.deadEnd {expr : TypeExpr} {done read after : List Char} {cause : SyntaxCause}
    (hbreaks : Breaks expr done (read ++ after)) (hstop : StopsAfter read after cause) :
    DeadEnd (done ++ read) after cause := by
  cases hstop with
  | @trailing c rest hc =>
      refine .character (not_viable_of_stopsAfter [c] hbreaks (by simp) fun more => ?_)
      exact ⟨_, .trailing hc⟩
  | noLength hrest =>
      cases after with
      | nil => exact .textEnds
      | cons c rest =>
          refine .character (not_viable_of_stopsAfter [c] hbreaks (by simp) fun more => ?_)
          exact ⟨_, .noLength hrest⟩
  | unclosed hne hrun hvalue hrest =>
      cases after with
      | nil => exact .textEnds
      | cons c rest =>
          refine .character (not_viable_of_stopsAfter [c] hbreaks (by simp) fun more => ?_)
          exact ⟨_, .unclosed hne hrun hvalue hrest⟩
  | @overflow run rest hrun hvalue hrest =>
      have hdigits := takeWhile_digit_run hrun hrest
      refine .length (by rwa [hdigits]) ?_
      rw [hdigits]
      refine not_viable_of_stopsAfter run hbreaks (ne_nil_of_overflow hvalue) fun more => ?_
      -- More digits may follow, but they make the length no smaller.
      obtain ⟨others, rest, rfl, hothers, hafter⟩ := exists_digit_run more
      refine ⟨.invalidLength, ?_⟩
      rw [← List.append_assoc]
      refine .overflow (List.forall_mem_append.mpr ⟨hrun, hothers⟩) ?_ hafter
      rw [Nat.ofDigitChars_append]
      exact Nat.le_trans hvalue (le_ofDigitChars others _)

/-- A refused text is viable up to the position of its fault, and comes to a dead end there. -/
lemma exists_deadEnd_of_parse {text : String} {fault : SyntaxFault}
    (h : parse text = .error fault) :
    ∃ before after, text.toList = before ++ after ∧ before.length = fault.position ∧
      Viable before ∧ DeadEnd before after fault.cause := by
  rcases parse_eq_error_iff.mp h with
    ⟨hname, rfl⟩ | ⟨expr, done, read, after, htext, hbreaks, hstop, hposition⟩
  · refine ⟨[], text.toList, rfl, rfl, viable_nil, ?_⟩
    cases hchars : text.toList with
    | nil => exact .textEnds
    | cons c rest => exact .character (not_viable_of_baseName_eq_nil (hchars ▸ hname))
  · refine ⟨done ++ read, after, ?_, ?_, hbreaks.viable hstop, hbreaks.deadEnd hstop⟩
    · rw [htext, List.append_assoc]
    · rw [hposition, List.length_append]

/-- **A fault stands after all that could be read.**  If a text is refused, the position of the
fault is in the text, and it is the same in characters and in bytes, for all before it is ASCII.
What is before it can still become a type expression.  With what is there it cannot: the text ends,
or goes on with a character with which it can become none, or with a length that is too large. -/
theorem parse_fault_after_viable (text : String) (fault : SyntaxFault)
    (h : parse text = .error fault) :
    ∃ before after : List Char, text.toList = before ++ after ∧
      before.length = fault.position ∧ (∀ c ∈ before, c.toNat < 128) ∧
      (String.ofList before).utf8ByteSize = fault.position ∧
      fault.position ≤ text.utf8ByteSize ∧
      Viable before ∧ DeadEnd before after fault.cause := by
  obtain ⟨before, after, htext, hposition, hviable, hdead⟩ := exists_deadEnd_of_parse h
  have hbytes : (String.ofList before).utf8ByteSize = fault.position :=
    (utf8ByteSize_of_isAscii hviable.isAscii).trans hposition
  refine ⟨before, after, htext, hposition, hviable.isAscii, hbytes, ?_, hviable, hdead⟩
  rw [← String.ofList_toList (s := text), htext, String.ofList_append, String.utf8ByteSize_append,
    hbytes]
  omega

/-- A length of `2 ^ 64`.  The fault is at its first digit, with which the text could go on; with
all its digits it could not. -/
theorem parse_fault_after_viable_overflow :
    parse "uint8[2][18446744073709551616]" = .error ⟨9, .invalidLength⟩ ∧
      Viable "uint8[2][".toList ∧ Viable "uint8[2][1".toList ∧
      ¬Viable "uint8[2][18446744073709551616".toList := by
  have hparse : parse "uint8[2][18446744073709551616]" = .error ⟨9, .invalidLength⟩ := by
    decide +kernel
  have hdigit : Viable "uint8[2][1".toList :=
    ⟨"uint8[2][1]", ⟨"uint8", [.fixed 2, .fixed 1]⟩, by decide +kernel, "]".toList, rfl⟩
  obtain ⟨before, after, htext, hposition, -, -, -, hviable, hdead⟩ :=
    parse_fault_after_viable _ _ hparse
  have hsplit : before ++ after = "uint8[2][".toList ++ "18446744073709551616]".toList :=
    htext.symm.trans (by decide +kernel)
  obtain ⟨rfl, rfl⟩ := List.append_inj hsplit hposition
  refine ⟨hparse, hviable, hdigit, ?_⟩
  cases hdead with
  | character h => exact absurd hdigit h
  | length hvalue h => exact h

end TypeExpr

end ContractInterface

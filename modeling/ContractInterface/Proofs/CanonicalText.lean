import ContractInterface.Text.Blank
import ContractInterface.Proofs.AbiType

/-!
# Canonical texts identify types

Two types have the same canonical text exactly if they are the same up to the names of components,
and two members have the same canonical text exactly if their names are equal and their fields have
the same types in the same order.  Lookup by canonical text, validation and declared functions all
rest on this.

The text is read from its end.  A leaf ends in a letter or a digit, a tuple in `)` and an array in
`]`, so the last character tells which of the three a type is, and what stands before the text of an
array's suffix is the text of its element.  Read from the front, neither would be known until much
later: the suffixes of an array come last, and the name of a member may itself hold parentheses and
commas.

`AbiType.SplitsOff` is the statement that goes through the induction: the text of a type can be
split off the end of a longer text in one way only, provided that what stands before it does not end
in a letter or digit that could be taken for a part of it.
-/

namespace ContractInterface

/-! ## Runs at the end of a text -/

/-- Whether a text does not end in a character with the given property. -/
def EndsOutside (p : Char → Bool) (text : List Char) : Prop :=
  ∀ c ∈ text.getLast?, p c = false

lemma endsOutside_nil (p : Char → Bool) : EndsOutside p [] := by
  simp [EndsOutside]

lemma endsOutside_append_singleton {p : Char → Bool} {c : Char} (hc : p c = false)
    (text : List Char) : EndsOutside p (text ++ [c]) := by
  simpa [EndsOutside] using hc

/-- The run of characters with some property that ends a text is determined by the text. -/
lemma append_run_inj {p : Char → Bool} {before before' run run' : List Char}
    (hbefore : EndsOutside p before) (hbefore' : EndsOutside p before')
    (hrun : ∀ c ∈ run, p c = true) (hrun' : ∀ c ∈ run', p c = true)
    (h : before ++ run = before' ++ run') : before = before' ∧ run = run' := by
  -- What one of the two runs has in front of the other has to be empty: its last character would
  -- belong to a run and end what stands before the other.
  have key : ∀ {a extra w : List Char}, EndsOutside p (a ++ extra) →
      (∀ c ∈ extra ++ w, p c = true) → extra = [] := by
    intro a extra w houtside hinside
    rcases List.eq_nil_or_concat extra with hnil | ⟨front, c, rfl⟩
    · exact hnil
    · have hfalse : p c = false := houtside c (by simp)
      have htrue : p c = true := hinside c (by simp)
      rw [hfalse] at htrue
      cases htrue
  rcases List.append_eq_append_iff.mp h with ⟨extra, hext, hruns⟩ | ⟨extra, hext, hruns⟩
  · have hnil : extra = [] := key (hext ▸ hbefore') (hruns ▸ hrun)
    subst hnil
    exact ⟨by simpa using hext.symm, by simpa using hruns⟩
  · have hnil : extra = [] := key (hext ▸ hbefore) (hruns ▸ hrun')
    subst hnil
    exact ⟨by simpa using hext, by simpa using hruns.symm⟩

/-! ## Numerals and suffixes -/

lemma toDigits_inj {m n : Nat} (h : Nat.toDigits 10 m = Nat.toDigits 10 n) : m = n := by
  have hvalue := congrArg (fun digits => Nat.ofDigitChars 10 digits 0) h
  simpa only [Nat.ofDigitChars_ten_toDigits] using hvalue

lemma isDigit_of_mem_toDigits {n : Nat} {c : Char} (h : c ∈ Nat.toDigits 10 n) :
    c.isDigit = true :=
  Nat.isDigit_of_mem_toDigits (by decide) (by decide) h

/-- Letters and digits by their numbers. -/
lemma range_of_isAlphanum {c : Char} (h : c.isAlphanum = true) :
    (65 ≤ c.toNat ∧ c.toNat ≤ 90 ∨ 97 ≤ c.toNat ∧ c.toNat ≤ 122) ∨
      48 ≤ c.toNat ∧ c.toNat ≤ 57 := by
  have hbetween : ∀ {low high : UInt32}, low ≤ c.val ∧ c.val ≤ high →
      low.toNat ≤ c.toNat ∧ c.toNat ≤ high.toNat :=
    fun h => ⟨UInt32.le_iff_toNat_le.mp h.1, UInt32.le_iff_toNat_le.mp h.2⟩
  rcases Bool.or_eq_true_iff.mp h with halpha | hdigit
  · rcases Bool.or_eq_true_iff.mp halpha with hupper | hlower
    · exact .inl (.inl (hbetween (of_decide_eq_true hupper)))
    · obtain ⟨hlow, hhigh⟩ := Bool.and_eq_true_iff.mp hlower
      exact .inl (.inr (hbetween ⟨of_decide_eq_true hlow, of_decide_eq_true hhigh⟩))
  · exact .inr (Char.isDigit_iff_toNat.mp hdigit)

/-- What an array suffix has between its brackets. -/
def Extent.digits : Extent → List Char
  | .dynamic => []
  | .fixed length => Nat.toDigits 10 length

lemma Extent.toList_suffix (extent : Extent) :
    extent.suffix.toList = '[' :: extent.digits ++ [']'] := by
  cases extent <;> simp [suffix, digits]

lemma Extent.isDigit_of_mem_digits {extent : Extent} {c : Char} (h : c ∈ extent.digits) :
    c.isDigit = true := by
  cases extent with
  | dynamic => simp [digits] at h
  | fixed length => exact isDigit_of_mem_toDigits h

lemma Extent.digits_inj {e e' : Extent} (h : e.digits = e'.digits) : e = e' := by
  cases e with
  | dynamic =>
      cases e' with
      | dynamic => rfl
      | fixed length => exact absurd h.symm Nat.toDigits_ne_nil
  | fixed length =>
      cases e' with
      | dynamic => exact absurd h Nat.toDigits_ne_nil
      | fixed length' => rw [toDigits_inj h]

/-- An array suffix can be split off the end of a text in one way only. -/
lemma append_suffix_inj {before before' : List Char} {e e' : Extent}
    (h : before ++ e.suffix.toList = before' ++ e'.suffix.toList) :
    before = before' ∧ e = e' := by
  rw [Extent.toList_suffix, Extent.toList_suffix] at h
  have hopen : (before ++ ['[']) ++ e.digits = (before' ++ ['[']) ++ e'.digits := by
    have hclose : (before ++ ['['] ++ e.digits) ++ [']'] =
        (before' ++ ['['] ++ e'.digits) ++ [']'] := by
      simpa using h
    exact List.append_cancel_right hclose
  obtain ⟨hbefore, hdigits⟩ := append_run_inj
    (endsOutside_append_singleton (p := Char.isDigit) rfl before)
    (endsOutside_append_singleton (p := Char.isDigit) rfl before')
    (fun _ hc => Extent.isDigit_of_mem_digits hc)
    (fun _ hc => Extent.isDigit_of_mem_digits hc) hopen
  exact ⟨List.append_cancel_right hbefore, Extent.digits_inj hdigits⟩

namespace AbiType

/-! ## The text of each kind of type -/

/-- The characters of the canonical text. -/
def text (s : AbiType) : List Char := s.canonical.toList

lemma text_tuple (fields : List Field) :
    (tuple fields).text = '(' :: (canonicalFields fields).toList ++ [')'] := by
  simp [text, canonical]

lemma text_array (element : AbiType) (extent : Extent) :
    (array element extent).text = element.text ++ extent.suffix.toList := by
  simp [text, canonical]

/-- The text of a leaf is a word of letters and digits. -/
lemma isAlphanum_of_mem_text {s : AbiType} (hs : s.isLeaf = true) :
    ∀ c ∈ s.text, c.isAlphanum = true := by
  have hnumbered : ∀ (word : String) (n : Nat), word.toList.all Char.isAlphanum = true →
      ∀ c ∈ (word ++ Nat.repr n).toList, c.isAlphanum = true := by
    intro word n hword
    rw [String.toList_append, Nat.toList_repr]
    refine List.forall_mem_append.mpr ⟨List.all_eq_true.mp hword, fun c hc => ?_⟩
    simp [Char.isAlphanum, isDigit_of_mem_toDigits hc]
  cases s with
  | uint bits | int bits => exact hnumbered _ bits (by decide)
  | fixedBytes length => exact hnumbered _ length (by decide)
  | bytes | bool | address | string | unknown => exact List.all_eq_true.mp (by decide)
  | tuple | array => cases hs

/-- Leaves with the same text are equal. -/
lemma eq_of_text_eq {s t : AbiType} (hs : s.isLeaf = true) (ht : t.isLeaf = true)
    (h : s.text = t.text) : s = t := by
  cases s <;> cases t <;> simp_all [text, canonical, isLeaf] <;> exact toDigits_inj h

lemma text_ne_nil (s : AbiType) : s.text ≠ [] := by
  induction s using induction_on_parts with
  | leaf s hs => cases s <;> simp_all [text, canonical, isLeaf]
  | tuple fields => simp [text_tuple]
  | array element extent => simp [text_array, Extent.toList_suffix]

/-! ## The last character -/

/-- A leaf ends in no punctuation mark. -/
lemma getLast?_text_leaf_ne {s : AbiType} (hs : s.isLeaf = true) {c : Char}
    (hc : c.isAlphanum = false) : s.text.getLast? ≠ some c := by
  intro hlast
  have halphanum := isAlphanum_of_mem_text hs c (List.mem_of_getLast? hlast)
  rw [hc] at halphanum
  cases halphanum

lemma getLast?_text_tuple (fields : List Field) : (tuple fields).text.getLast? = some ')' := by
  rw [text_tuple, List.getLast?_concat]

lemma getLast?_text_array (element : AbiType) (extent : Extent) :
    (array element extent).text.getLast? = some ']' := by
  rw [text_array, Extent.toList_suffix, ← List.append_assoc, List.getLast?_concat]

/-- Types whose texts end the same text end in the same character. -/
lemma getLast?_text_eq {s t : AbiType} {before before' : List Char}
    (h : before ++ s.text = before' ++ t.text) : s.text.getLast? = t.text.getLast? := by
  have hlast := congrArg List.getLast? h
  rwa [List.getLast?_append_of_ne_nil _ s.text_ne_nil,
    List.getLast?_append_of_ne_nil _ t.text_ne_nil] at hlast

/-! ## Splitting a type off the end of a text -/

/-- Whether the text of a type can be split off the end of a text in one way only.  What stands
before it must not end in a letter or digit, which could be taken for a part of the type. -/
def SplitsOff (s : AbiType) : Prop :=
  ∀ (t : AbiType) (before before' : List Char), EndsOutside Char.isAlphanum before →
    EndsOutside Char.isAlphanum before' → before ++ s.text = before' ++ t.text →
      before = before' ∧ s.sameType t = true

lemma splitsOff_leaf {s : AbiType} (hs : s.isLeaf = true) : s.SplitsOff := by
  intro t before before' hbefore hbefore' h
  have hlast := getLast?_text_eq h
  induction t using induction_on_parts with
  | leaf t ht =>
      obtain ⟨hsplit, htext⟩ := append_run_inj hbefore hbefore' (isAlphanum_of_mem_text hs)
        (isAlphanum_of_mem_text ht) h
      obtain rfl := eq_of_text_eq hs ht htext
      exact ⟨hsplit, sameType_refl s⟩
  | tuple fields =>
      rw [getLast?_text_tuple] at hlast
      exact absurd hlast (getLast?_text_leaf_ne hs rfl)
  | array element extent =>
      rw [getLast?_text_array] at hlast
      exact absurd hlast (getLast?_text_leaf_ne hs rfl)

lemma splitsOff_array {element : AbiType} (extent : Extent) (ih : element.SplitsOff) :
    (array element extent).SplitsOff := by
  intro t before before' hbefore hbefore' h
  have hlast := getLast?_text_eq h
  rw [getLast?_text_array] at hlast
  induction t using induction_on_parts with
  | leaf t ht => exact absurd hlast.symm (getLast?_text_leaf_ne ht rfl)
  | tuple fields => simp [getLast?_text_tuple] at hlast
  | array element' extent' =>
      rw [text_array, text_array, ← List.append_assoc, ← List.append_assoc] at h
      obtain ⟨helement, rfl⟩ := append_suffix_inj h
      obtain ⟨hsplit, hsame⟩ := ih element' before before' hbefore hbefore' helement
      exact ⟨hsplit, sameType_array_left.mpr ⟨element', rfl, hsame⟩⟩

/-! ## Lists of fields -/

/-- What stands before the text of the field that comes after the given ones. -/
def opening : List Field → List Char
  | [] => ['(']
  | fields => '(' :: (canonicalFields fields).toList ++ [',']

lemma opening_eq_of_ne_nil {fields : List Field} (h : fields ≠ []) :
    opening fields = '(' :: (canonicalFields fields).toList ++ [','] := by
  cases fields with
  | nil => exact absurd rfl h
  | cons field fields => rfl

lemma canonicalFields_append_singleton {fields : List Field} (h : fields ≠ []) (field : Field) :
    canonicalFields (fields ++ [field]) = canonicalFields fields ++ "," ++ field.2.canonical := by
  induction fields with
  | nil => exact absurd rfl h
  | cons first rest ih =>
      cases rest with
      | nil => simp [canonicalFields]
      | cons second rest =>
          have hrest := ih (by simp)
          simp only [List.cons_append] at hrest ⊢
          simp only [canonicalFields, hrest, String.append_assoc]

lemma opening_append_text (fields : List Field) (field : Field) :
    '(' :: (canonicalFields (fields ++ [field])).toList = opening fields ++ field.2.text := by
  by_cases h : fields = []
  · simp [h, opening, canonicalFields, text]
  · simp [canonicalFields_append_singleton h, opening_eq_of_ne_nil h, text]

lemma getLast?_append_opening (before : List Char) (fields : List Field) :
    (before ++ opening fields).getLast? = some (if fields = [] then '(' else ',') := by
  by_cases h : fields = []
  · subst h
    exact List.getLast?_concat
  · rw [opening_eq_of_ne_nil h, ← List.append_assoc, List.getLast?_concat, if_neg h]

lemma endsOutside_append_opening (before : List Char) (fields : List Field) :
    EndsOutside Char.isAlphanum (before ++ opening fields) := by
  intro c hc
  rw [getLast?_append_opening, Option.mem_some_iff] at hc
  subst hc
  split <;> rfl

lemma append_opening_cancel {fs gs : List Field} {before before' : List Char}
    (h : before ++ opening fs = before' ++ opening gs) :
    before ++ '(' :: (canonicalFields fs).toList
      = before' ++ '(' :: (canonicalFields gs).toList := by
  have hlast := congrArg List.getLast? h
  rw [getLast?_append_opening, getLast?_append_opening] at hlast
  by_cases hfs : fs = []
  · have hgs : gs = [] := by
      by_contra hne
      simp [hfs, hne] at hlast
    subst hfs hgs
    exact h
  · have hgs : gs ≠ [] := by
      rintro rfl
      simp [hfs] at hlast
    rw [opening_eq_of_ne_nil hfs, opening_eq_of_ne_nil hgs, ← List.append_assoc,
      ← List.append_assoc] at h
    exact List.append_cancel_right h

/-- No type ends in the parenthesis that opens a list of fields. -/
lemma append_text_ne_append_open (s : AbiType) (before before' : List Char) :
    before ++ s.text ≠ before' ++ ['('] := by
  intro h
  have hlast := congrArg List.getLast? h
  rw [List.getLast?_append_of_ne_nil _ s.text_ne_nil, List.getLast?_concat] at hlast
  induction s using induction_on_parts with
  | leaf s hs => exact absurd hlast (getLast?_text_leaf_ne hs rfl)
  | tuple fields => simp [getLast?_text_tuple] at hlast
  | array element extent => simp [getLast?_text_array] at hlast

/-- A list of fields can be split off the end of a text, from its parenthesis on, in one way only,
whatever the text before it. -/
lemma append_fields_inj {fs : List Field} (hfs : ∀ f ∈ fs, f.2.SplitsOff) {gs : List Field}
    {before before' : List Char}
    (h : before ++ '(' :: (canonicalFields fs).toList
      = before' ++ '(' :: (canonicalFields gs).toList) :
    before = before' ∧ sameFields fs gs = true := by
  -- The texts are read from the end, so the induction takes the last fields first.
  induction fs using List.reverseRecOn generalizing gs with
  | nil =>
      rcases List.eq_nil_or_concat' gs with rfl | ⟨gs, g, rfl⟩
      · exact ⟨List.append_cancel_right h, rfl⟩
      · rw [opening_append_text, ← List.append_assoc] at h
        exact absurd h.symm (append_text_ne_append_open _ _ _)
  | append_singleton fs f ih =>
      rw [opening_append_text, ← List.append_assoc] at h
      rcases List.eq_nil_or_concat' gs with rfl | ⟨gs, g, rfl⟩
      · exact absurd h (append_text_ne_append_open _ _ _)
      · rw [opening_append_text, ← List.append_assoc] at h
        obtain ⟨hopening, hsame⟩ := hfs f (by simp) g.2 _ _ (endsOutside_append_opening before fs)
          (endsOutside_append_opening before' gs) h
        obtain ⟨hbefore, hrest⟩ := ih (fun f' hf' => hfs f' (by simp [hf']))
          (append_opening_cancel hopening)
        refine ⟨hbefore, sameFields_iff_forall₂.mpr ?_⟩
        exact List.rel_append (sameFields_iff_forall₂.mp hrest) (.cons hsame .nil)

/-- A tuple can be split off the end of a text in one way only, whatever the text before it. -/
lemma append_tuple_inj {fs : List Field} (hfs : ∀ f ∈ fs, f.2.SplitsOff) {gs : List Field}
    {before before' : List Char} (h : before ++ (tuple fs).text = before' ++ (tuple gs).text) :
    before = before' ∧ sameFields fs gs = true := by
  rw [text_tuple, text_tuple, ← List.append_assoc, ← List.append_assoc] at h
  exact append_fields_inj hfs (List.append_cancel_right h)

lemma splitsOff_tuple {fields : List Field} (ih : ∀ field ∈ fields, field.2.SplitsOff) :
    (tuple fields).SplitsOff := by
  intro t before before' _ _ h
  have hlast := getLast?_text_eq h
  rw [getLast?_text_tuple] at hlast
  induction t using induction_on_parts with
  | leaf t ht => exact absurd hlast.symm (getLast?_text_leaf_ne ht rfl)
  | tuple fields' => exact append_tuple_inj ih h
  | array element extent => simp [getLast?_text_array] at hlast

/-- **Unique readability.**  The text of every type can be split off the end of a text in one way
only. -/
lemma splitsOff (s : AbiType) : s.SplitsOff := by
  induction s using induction_on_parts with
  | leaf s hs => exact splitsOff_leaf hs
  | tuple fields ih => exact splitsOff_tuple ih
  | array element extent ih => exact splitsOff_array extent ih

/-! ## Types and their texts -/

lemma canonicalFields_eq_of_forall₂ {fs gs : List Field}
    (h : List.Forall₂ (fun f g => f.2.canonical = g.2.canonical) fs gs) :
    canonicalFields fs = canonicalFields gs := by
  induction h with
  | nil => rfl
  | @cons f g fs gs hfg hrest ih =>
      cases hrest with
      | nil => exact hfg
      | cons => simp only [canonicalFields, hfg, ih]

lemma canonical_eq_of_sameType {s t : AbiType} (h : s.sameType t = true) :
    s.canonical = t.canonical := by
  induction s using induction_on_parts generalizing t with
  | leaf s hs => rw [eq_of_sameType_leaf hs h]
  | tuple fields ih =>
      obtain ⟨gs, rfl, hfields⟩ := sameType_tuple_left.mp h
      have htexts : List.Forall₂ (fun f g => f.2.canonical = g.2.canonical) fields gs := by
        refine List.forall₂_iff_zip.mpr ⟨hfields.length_eq, fun {f g} hfg => ?_⟩
        exact ih f (List.of_mem_zip hfg).1 (List.forall₂_zip hfields hfg)
      rw [canonical, canonical, canonicalFields_eq_of_forall₂ htexts]
  | array element extent ih =>
      obtain ⟨u, rfl, helement⟩ := sameType_array_left.mp h
      rw [canonical, canonical, ih helement]

/-- **Canonical texts identify types.** -/
lemma canonical_eq_iff {s t : AbiType} : s.canonical = t.canonical ↔ s.sameType t = true := by
  refine ⟨fun h => ?_, canonical_eq_of_sameType⟩
  have htext : [] ++ s.text = [] ++ t.text := by
    simp [text, h]
  exact (s.splitsOff t [] [] (endsOutside_nil _) (endsOutside_nil _) htext).2

lemma sameType_symm {s t : AbiType} (h : s.sameType t = true) : t.sameType s = true :=
  canonical_eq_iff.mp (canonical_eq_iff.mpr h).symm

lemma sameType_trans {s t u : AbiType} (hst : s.sameType t = true) (htu : t.sameType u = true) :
    s.sameType u = true :=
  canonical_eq_iff.mp ((canonical_eq_iff.mpr hst).trans (canonical_eq_iff.mpr htu))

lemma sameFields_symm {fs gs : List Field} (h : sameFields fs gs = true) :
    sameFields gs fs = true :=
  sameType_symm (s := .tuple fs) (t := .tuple gs) h

/-! ## The texts of members -/

lemma toList_canonicalSignature (name : String) (fields : List Field) :
    (canonicalSignature name fields).toList = name.toList ++ (tuple fields).text := by
  simp [canonicalSignature, text]

/-- The canonical text of a member written out: the texts of the types, divided by commas, in
parentheses. -/
lemma canonicalSignature_eq_intercalate (name : String) (fields : List Field) :
    canonicalSignature name fields =
      name ++ "(" ++ String.intercalate "," (fields.map fun field => field.2.canonical) ++ ")" := by
  have hfields : ∀ fields : List Field, canonicalFields fields =
      String.intercalate "," (fields.map fun field => field.2.canonical) := by
    intro fields
    induction fields with
    | nil => simp [canonicalFields]
    | cons field fields ih =>
        cases fields with
        | nil => simp [canonicalFields]
        | cons next fields =>
            simp [canonicalFields, ih, String.intercalate_cons_cons]
  simp [canonicalSignature, canonical, hfields, String.append_assoc]

/-- A canonical text determines the name of the member, whatever characters that has, and the types
of its fields. -/
lemma canonicalSignature_eq_iff {name name' : String} {fs gs : List Field} :
    canonicalSignature name fs = canonicalSignature name' gs ↔
      name = name' ∧ sameFields fs gs = true := by
  constructor
  · intro h
    have htext := congrArg String.toList h
    rw [toList_canonicalSignature, toList_canonicalSignature] at htext
    obtain ⟨hname, hfields⟩ := append_tuple_inj (fun f _ => f.2.splitsOff) htext
    exact ⟨String.toList_inj.mp hname, hfields⟩
  · rintro ⟨rfl, hfields⟩
    have htuple : (tuple fs).canonical = (tuple gs).canonical := canonical_eq_of_sameType hfields
    rw [canonicalSignature, canonicalSignature, htuple]

/-! ## Blanks -/

lemma isBlank_of_isAlphanum {c : Char} (h : c.isAlphanum = true) : Text.isBlank c = false := by
  have hrange := range_of_isAlphanum h
  simp [Text.isBlank, Text.blankRanges]
  omega

lemma mem_canonicalFields {fields : List Field} {c : Char}
    (h : c ∈ (canonicalFields fields).toList) : c = ',' ∨ ∃ field ∈ fields, c ∈ field.2.text := by
  induction fields with
  | nil => simp [canonicalFields] at h
  | cons field fields ih =>
      cases fields with
      | nil => exact .inr ⟨field, by simp, h⟩
      | cons next fields =>
          have hsplit : c ∈ field.2.text ∨ c = ',' ∨
              c ∈ (canonicalFields (next :: fields)).toList := by
            simpa [canonicalFields, text, or_assoc] using h
          rcases hsplit with hfield | hcomma | hrest
          · exact .inr ⟨field, by simp, hfield⟩
          · exact .inl hcomma
          · refine (ih hrest).imp_right ?_
            rintro ⟨found, hfound, hc⟩
            exact ⟨found, List.mem_cons_of_mem field hfound, hc⟩

/-- Canonical texts have no blanks. -/
lemma isBlank_of_mem_text {s : AbiType} {c : Char} (h : c ∈ s.text) : Text.isBlank c = false := by
  induction s using induction_on_parts with
  | leaf s hs => exact isBlank_of_isAlphanum (isAlphanum_of_mem_text hs c h)
  | tuple fields ih =>
      have hsplit : c = '(' ∨ c ∈ (canonicalFields fields).toList ∨ c = ')' := by
        simpa [text_tuple] using h
      rcases hsplit with rfl | hfields | rfl
      · decide
      · rcases mem_canonicalFields hfields with rfl | ⟨field, hfield, hc⟩
        · decide
        · exact ih field hfield hc
      · decide
  | array element extent ih =>
      have hsplit : c ∈ element.text ∨ c = '[' ∨ c ∈ extent.digits ∨ c = ']' := by
        simpa [text_array, Extent.toList_suffix] using h
      rcases hsplit with helement | rfl | hdigits | rfl
      · exact ih helement
      · decide
      · refine isBlank_of_isAlphanum ?_
        simp [Char.isAlphanum, Extent.isDigit_of_mem_digits hdigits]
      · decide

/-- Only the name of a member can have blanks in its canonical text. -/
lemma withoutBlanks_canonicalSignature (name : String) (fields : List Field) :
    Text.withoutBlanks (canonicalSignature name fields) =
      canonicalSignature (Text.withoutBlanks name) fields := by
  have htext : (tuple fields).text.filter (fun c => !Text.isBlank c) = (tuple fields).text := by
    refine List.filter_eq_self.mpr fun c hc => ?_
    simp [isBlank_of_mem_text hc]
  apply String.toList_injective
  rw [toList_canonicalSignature, Text.withoutBlanks, Text.withoutBlanks, String.toList_ofList,
    String.toList_ofList, toList_canonicalSignature, List.filter_append, htext]

/-! ## Identification -/

/-- **Canonical texts identify types and members exactly.**  Types have the same text if and only if
they are the same up to the names of components, which therefore is an equivalence; members have the
same text if and only if they have the same name and as many fields, which are of the same types in
order. -/
theorem canonical_identifies :
    (∀ s t : AbiType, s.canonical = t.canonical ↔ s.sameType t = true) ∧
      Equivalence (fun s t : AbiType => s.sameType t = true) ∧
      ∀ (name name' : String) (fs gs : List Field),
        canonicalSignature name fs = canonicalSignature name' gs ↔
          name = name' ∧ List.Forall₂ (fun f g => f.2.sameType g.2 = true) fs gs := by
  refine ⟨fun s t => canonical_eq_iff, ⟨sameType_refl, sameType_symm, sameType_trans⟩, ?_⟩
  intro name name' fs gs
  rw [canonicalSignature_eq_iff, sameFields_iff_forall₂]

end AbiType

end ContractInterface

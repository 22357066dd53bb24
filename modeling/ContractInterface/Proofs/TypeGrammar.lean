import ContractInterface.Proofs.CanonicalText
import ContractInterface.Proofs.Resolution
import ContractInterface.Proofs.TypeExpr

/-!
# The type grammar

`Spells text components s` is the grammar of written types, told by recursion on the text: a text is
an elementary name, or `tuple`, with its components beside it, or a written type with one more array
suffix.  The outermost array is thus the last suffix, and what stands before it is a written type in
its own right.

Resolution goes the other way round.  It reads the whole text first, counts the suffixes against the
limit, resolves the base and puts the arrays around it from the inside.  Both come to the same
(`Parameter.resolve_eq_ok_iff_spells`): a parameter denotes a type exactly if its text spells it and
the type does not nest deeper than the limit.

* That resolved types are spelled is an induction on components, with the suffixes put around the
  base one by one (`Spells.wrapExtents`).
* That spelled types are resolved is an induction on the grammar; its step is that one more suffix
  takes one level (`Parameter.resolveBelow_append`).
-/

namespace ContractInterface

/-! ## Numerals -/

lemma digitValue_range {c : Char} (hc : c.isDigit = true) :
    c.toNat = '0'.toNat + (c.toNat - '0'.toNat) ∧ c.toNat - '0'.toNat < 10 := by
  have hrange : 48 ≤ c.toNat ∧ c.toNat ≤ 57 := Char.isDigit_iff_toNat.mp hc
  have hzero : '0'.toNat = 48 := rfl
  omega

/-- A digit is the numeral of its value. -/
lemma toDigits_digitValue {c : Char} (hc : c.isDigit = true) :
    Nat.toDigits 10 (c.toNat - '0'.toNat) = [c] := by
  obtain ⟨hvalue, hlt⟩ := digitValue_range hc
  have hchar : (c.toNat - '0'.toNat).digitChar = c := by
    apply Char.toNat_inj.mp
    rw [Nat.toNat_digitChar_of_lt_ten hlt]
    exact hvalue.symm
  rw [Nat.toDigits_of_lt_base hlt, hchar]

/-- Digits read after a number other than zero are the last digits of the result. -/
lemma toDigits_ofDigitChars {n : Nat} (hn : 0 < n) {digits : List Char}
    (hdigits : ∀ c ∈ digits, c.isDigit = true) :
    Nat.toDigits 10 (Nat.ofDigitChars 10 digits n) = Nat.toDigits 10 n ++ digits := by
  induction digits generalizing n with
  | nil => simp [Nat.ofDigitChars_nil]
  | cons c digits ih =>
      obtain ⟨hc, hrest⟩ := List.forall_mem_cons.mp hdigits
      rw [Nat.ofDigitChars_cons, ih (by omega) hrest,
        ← Nat.toDigits_append_toDigits (by omega) hn (digitValue_range hc).2,
        toDigits_digitValue hc, List.append_assoc, List.singleton_append]

lemma head?_toDigits_ne_zero {n : Nat} (hn : 0 < n) : (Nat.toDigits 10 n).head? ≠ some '0' := by
  induction n using Nat.strongRecOn with
  | _ n ih =>
      by_cases hlt : n < 10
      · rw [Nat.toDigits_of_lt_base hlt]
        simp [Nat.digitChar_eq_zero]
        omega
      · have hdigits := Nat.toDigits_of_base_le (b := 10) (n := n) (by omega) (by omega)
        rw [hdigits, List.head?_append_of_ne_nil _ Nat.toDigits_ne_nil]
        exact ih (n / 10) (by omega) (by omega)

/-- A numeral without superfluous zeros is the one that printing its value gives. -/
lemma eq_toDigits_of_canonical {numeral : List Char} (hne : numeral ≠ [])
    (hdigits : ∀ c ∈ numeral, c.isDigit = true)
    (hzero : numeral.head? ≠ some '0' ∨ numeral.length = 1) :
    numeral = Nat.toDigits 10 (Nat.ofDigitChars 10 numeral 0) := by
  cases numeral with
  | nil => exact absurd rfl hne
  | cons c digits =>
      obtain ⟨hc, hrest⟩ := List.forall_mem_cons.mp hdigits
      rw [Nat.ofDigitChars_cons, Nat.mul_zero, Nat.zero_add]
      by_cases hpos : 0 < c.toNat - '0'.toNat
      · rw [toDigits_ofDigitChars hpos hrest, toDigits_digitValue hc, List.singleton_append]
      · -- The first digit is zero, so it is the only one.
        obtain rfl : c = '0' := by
          apply Char.toNat_inj.mp
          have hvalue := (digitValue_range hc).1
          omega
        obtain rfl : digits = [] := by simpa using hzero
        rfl

/-- Every number below the bound has exactly one canonical numeral. -/
lemma Text.canonicalValue?_eq_some_iff {numeral : List Char} {n : Nat} :
    Text.canonicalValue? numeral = some n ↔ numeral = Nat.toDigits 10 n ∧ n < 2 ^ 64 := by
  have hcanonical : (numeral.all Char.isDigit &&
      (numeral.head? != some '0' || numeral.length == 1)) = true ↔
      (∀ c ∈ numeral, c.isDigit = true) ∧ (numeral.head? ≠ some '0' ∨ numeral.length = 1) := by
    simp
  rw [Text.canonicalValue?]
  constructor
  · intro h
    split_ifs at h with hnumeral
    obtain ⟨hdigits, hzero⟩ := hcanonical.mp hnumeral
    obtain ⟨hne, hbound, rfl⟩ := Text.boundedValue?_eq_some_iff.mp h
    exact ⟨eq_toDigits_of_canonical hne hdigits hzero, hbound⟩
  · rintro ⟨rfl, hbound⟩
    have hzero : (Nat.toDigits 10 n).head? ≠ some '0' ∨ (Nat.toDigits 10 n).length = 1 := by
      rcases Nat.eq_zero_or_pos n with rfl | hpos
      · exact .inr rfl
      · exact .inl (head?_toDigits_ne_zero hpos)
    rw [if_pos (hcanonical.mpr ⟨fun c hc => isDigit_of_mem_toDigits hc, hzero⟩),
      Text.boundedValue?_eq_some_iff, Nat.ofDigitChars_ten_toDigits]
    exact ⟨Nat.toDigits_ne_nil, hbound, rfl⟩

/-! ## Elementary names -/

/-- The elementary names and the types they stand for.  Widths and lengths are written without
leading zeros. -/
inductive ElementaryName : String → AbiType → Prop
  | address : ElementaryName "address" .address
  | bool : ElementaryName "bool" .bool
  | string : ElementaryName "string" .string
  | bytes : ElementaryName "bytes" .bytes
  | widestUint : ElementaryName "uint" (.uint 256)
  | widestInt : ElementaryName "int" (.int 256)
  | uint {bits : Nat} (hlow : 8 ≤ bits) (hhigh : bits ≤ 256) (hbytes : 8 ∣ bits) :
      ElementaryName ("uint" ++ Nat.repr bits) (.uint bits)
  | int {bits : Nat} (hlow : 8 ≤ bits) (hhigh : bits ≤ 256) (hbytes : 8 ∣ bits) :
      ElementaryName ("int" ++ Nat.repr bits) (.int bits)
  | fixedBytes {length : Nat} (hlow : 1 ≤ length) (hhigh : length ≤ 32) :
      ElementaryName ("bytes" ++ Nat.repr length) (.fixedBytes length)

/-- What the two ways to read a size from digits have in common: a number is a size or is refused
for a cause of its own, and other digits leave the name unknown. -/
structure ReadsSize (read : List Char → Except TypeCause Nat) (valid : Nat → Prop)
    [DecidablePred valid] (invalid : TypeCause) : Prop where
  number : ∀ n < 2 ^ 64, read (Nat.toDigits 10 n) = if valid n then .ok n else .error invalid
  other : ∀ digits, digits ≠ [] → Text.canonicalValue? digits = none →
    read digits = .error .unknownType
  /-- No digits at all may stand for a size. -/
  empty : ∀ cause, read [] = .error cause → cause = .unknownType

lemma readsSize_integerWidth :
    ReadsSize integerWidth (fun n => 8 ≤ n ∧ n ≤ 256 ∧ 8 ∣ n) .invalidIntegerWidth where
  number n hn := by
    have hvalue := Text.canonicalValue?_eq_some_iff.mpr ⟨rfl, hn⟩
    have hvalid : (n = 0 ∨ 256 < n ∨ n % 8 ≠ 0) ↔ ¬(8 ≤ n ∧ n ≤ 256 ∧ 8 ∣ n) := by
      omega
    simp only [integerWidth, List.isEmpty_eq_false_iff.mpr Nat.toDigits_ne_nil, hvalue, hvalid,
      Bool.false_eq_true, if_false, ite_not]
  other digits hne hvalue := by
    rw [integerWidth, if_neg (by simpa using hne), hvalue]
  empty cause h := by cases h

lemma readsSize_bytesLength :
    ReadsSize bytesLength (fun n => 1 ≤ n ∧ n ≤ 32) .invalidBytesLength where
  number n hn := by
    have hvalue := Text.canonicalValue?_eq_some_iff.mpr ⟨rfl, hn⟩
    have hvalid : (n = 0 ∨ 32 < n) ↔ ¬(1 ≤ n ∧ n ≤ 32) := by
      omega
    simp only [bytesLength, hvalue, hvalid, ite_not]
  other digits hne hvalue := by
    rw [bytesLength, hvalue]
  empty cause h := (Except.error.inj h).symm

namespace ReadsSize

variable {read : List Char → Except TypeCause Nat} {valid : Nat → Prop} [DecidablePred valid]
  {invalid : TypeCause}

/-- The sizes that can be read are the valid ones. -/
lemma eq_ok_iff (hread : ReadsSize read valid invalid) (hbound : ∀ n, valid n → n < 2 ^ 64)
    {digits : List Char} (hne : digits ≠ []) {n : Nat} :
    read digits = .ok n ↔ digits = Nat.toDigits 10 n ∧ valid n := by
  constructor
  · intro h
    cases hvalue : Text.canonicalValue? digits with
    | none =>
        rw [hread.other digits hne hvalue] at h
        cases h
    | some m =>
        obtain ⟨rfl, hm⟩ := Text.canonicalValue?_eq_some_iff.mp hvalue
        rw [hread.number m hm] at h
        split_ifs at h with hvalid
        cases h
        exact ⟨rfl, hvalid⟩
  · rintro ⟨rfl, hvalid⟩
    rw [hread.number n (hbound n hvalid), if_pos hvalid]

/-- A size that is refused, but not as unknown, is a number. -/
lemma exists_number (hread : ReadsSize read valid invalid) {digits : List Char}
    {cause : TypeCause} (h : read digits = .error cause) (hcause : cause ≠ .unknownType) :
    ∃ n < 2 ^ 64, digits = Nat.toDigits 10 n ∧ ¬valid n ∧ cause = invalid := by
  have hne : digits ≠ [] := by
    rintro rfl
    exact hcause (hread.empty cause h)
  cases hvalue : Text.canonicalValue? digits with
  | none =>
      rw [hread.other digits hne hvalue] at h
      exact absurd (Except.error.inj h).symm hcause
  | some n =>
      obtain ⟨rfl, hn⟩ := Text.canonicalValue?_eq_some_iff.mp hvalue
      rw [hread.number n hn] at h
      split_ifs at h with hvalid
      exact ⟨n, hn, rfl, hvalid, (Except.error.inj h).symm⟩

end ReadsSize

/-- A width is 256, if there are no digits, or a number of whole bytes. -/
lemma integerWidth_eq_ok_iff {digits : List Char} {bits : Nat} :
    integerWidth digits = .ok bits ↔
      (digits = [] ∧ bits = 256) ∨
        (digits = Nat.toDigits 10 bits ∧ 8 ≤ bits ∧ bits ≤ 256 ∧ 8 ∣ bits) := by
  cases digits with
  | nil => simp [integerWidth, Nat.toDigits_ne_nil.symm, eq_comm]
  | cons c digits =>
      rw [readsSize_integerWidth.eq_ok_iff (by omega) (List.cons_ne_nil c digits)]
      simp

lemma bytesLength_eq_ok_iff {digits : List Char} {length : Nat} :
    bytesLength digits = .ok length ↔
      digits = Nat.toDigits 10 length ∧ 1 ≤ length ∧ length ≤ 32 := by
  cases digits with
  | nil =>
      have hempty : bytesLength [] = .error .unknownType := rfl
      simp [hempty, Nat.toDigits_ne_nil.symm]
  | cons c digits => exact readsSize_bytesLength.eq_ok_iff (by omega) (List.cons_ne_nil c digits)

/-- A word and a numeral, from its characters. -/
lemma eq_append_repr {name : String} (word : String) {n : Nat}
    (h : name.toList = word.toList ++ Nat.toDigits 10 n) : name = word ++ Nat.repr n := by
  apply String.toList_injective
  rw [h, String.toList_append, Nat.toList_repr]

lemma elementaryName_of_sizedType {name : String} {s : AbiType}
    (h : sizedType name.toList = .ok s) : ElementaryName name s := by
  unfold sizedType at h
  split at h
  · next digits hname =>
      obtain ⟨bits, hbits, rfl⟩ := map_eq_ok_iff.mp h
      rcases integerWidth_eq_ok_iff.mp hbits with ⟨rfl, rfl⟩ | ⟨rfl, hlow, hhigh, hbytes⟩
      · obtain rfl : name = "uint" := String.toList_injective hname
        exact .widestUint
      · rw [eq_append_repr "uint" hname]
        exact .uint hlow hhigh hbytes
  · next digits hname =>
      obtain ⟨bits, hbits, rfl⟩ := map_eq_ok_iff.mp h
      rcases integerWidth_eq_ok_iff.mp hbits with ⟨rfl, rfl⟩ | ⟨rfl, hlow, hhigh, hbytes⟩
      · obtain rfl : name = "int" := String.toList_injective hname
        exact .widestInt
      · rw [eq_append_repr "int" hname]
        exact .int hlow hhigh hbytes
  · next digits hname =>
      obtain ⟨length, hlength, rfl⟩ := map_eq_ok_iff.mp h
      obtain ⟨rfl, hlow, hhigh⟩ := bytesLength_eq_ok_iff.mp hlength
      rw [eq_append_repr "bytes" hname]
      exact .fixedBytes hlow hhigh
  · cases h

/-- A word with a numeral is none of the names without digits, so its size decides. -/
lemma elementaryType_append_repr (word : String) (n : Nat) :
    elementaryType (word ++ Nat.repr n) = sizedType (word.toList ++ Nat.toDigits 10 n) := by
  have htext : (word ++ Nat.repr n).toList = word.toList ++ Nat.toDigits 10 n := by
    rw [String.toList_append, Nat.toList_repr]
  have hne : ∀ name : String, name.toList.any Char.isDigit = false →
      word ++ Nat.repr n ≠ name := by
    rintro name hname rfl
    obtain ⟨c, hc⟩ := List.exists_mem_of_ne_nil _ (Nat.toDigits_ne_nil (n := n) (b := 10))
    have hdigit := List.any_eq_false.mp hname c (by rw [htext]; exact List.mem_append_right _ hc)
    exact hdigit (isDigit_of_mem_toDigits hc)
  rw [elementaryType, if_neg (hne _ (by decide)), if_neg (hne _ (by decide)),
    if_neg (hne _ (by decide)), if_neg (hne _ (by decide)), htext]

/-- A word with a number after it is a type if the number is a size. -/
lemma ReadsSize.elementaryType {read : List Char → Except TypeCause Nat} {valid : Nat → Prop}
    [DecidablePred valid] {invalid : TypeCause} (hread : ReadsSize read valid invalid)
    {word : String} {type : Nat → AbiType}
    (hword : ∀ digits, sizedType (word.toList ++ digits) = type <$> read digits) {n : Nat}
    (hn : n < 2 ^ 64) :
    elementaryType (word ++ Nat.repr n) = if valid n then .ok (type n) else .error invalid := by
  rw [elementaryType_append_repr, hword, hread.number n hn]
  split_ifs <;> rfl

lemma elementaryType_uint {bits : Nat} (hbits : bits < 2 ^ 64) :
    elementaryType ("uint" ++ Nat.repr bits) =
      if 8 ≤ bits ∧ bits ≤ 256 ∧ 8 ∣ bits then .ok (.uint bits)
      else .error .invalidIntegerWidth :=
  readsSize_integerWidth.elementaryType (fun _ => rfl) hbits

lemma elementaryType_int {bits : Nat} (hbits : bits < 2 ^ 64) :
    elementaryType ("int" ++ Nat.repr bits) =
      if 8 ≤ bits ∧ bits ≤ 256 ∧ 8 ∣ bits then .ok (.int bits)
      else .error .invalidIntegerWidth :=
  readsSize_integerWidth.elementaryType (fun _ => rfl) hbits

lemma elementaryType_fixedBytes {length : Nat} (hlength : length < 2 ^ 64) :
    elementaryType ("bytes" ++ Nat.repr length) =
      if 1 ≤ length ∧ length ≤ 32 then .ok (.fixedBytes length)
      else .error .invalidBytesLength :=
  readsSize_bytesLength.elementaryType (fun _ => rfl) hlength

/-- **Elementary types are those with an elementary name.** -/
lemma elementaryType_eq_ok_iff {name : String} {s : AbiType} :
    elementaryType name = .ok s ↔ ElementaryName name s := by
  constructor
  · intro h
    rw [elementaryType] at h
    split_ifs at h with haddress hbool hstring hbytes
    · cases h
      exact haddress ▸ .address
    · cases h
      exact hbool ▸ .bool
    · cases h
      exact hstring ▸ .string
    · cases h
      exact hbytes ▸ .bytes
    · exact elementaryName_of_sizedType h
  · intro h
    cases h with
    | address | bool | string | bytes => rfl
    | widestUint | widestInt => rfl
    | uint hlow hhigh hbytes => rw [elementaryType_uint (by omega), if_pos ⟨hlow, hhigh, hbytes⟩]
    | int hlow hhigh hbytes => rw [elementaryType_int (by omega), if_pos ⟨hlow, hhigh, hbytes⟩]
    | fixedBytes hlow hhigh =>
        rw [elementaryType_fixedBytes (by omega), if_pos ⟨hlow, hhigh⟩]

lemma isBaseName_append_repr {word : String} (hword : TypeExpr.IsBaseName word.toList) (n : Nat) :
    TypeExpr.IsBaseName (word ++ Nat.repr n).toList := by
  rw [String.toList_append, Nat.toList_repr]
  cases hchars : word.toList with
  | nil =>
      rw [hchars] at hword
      cases hword
  | cons c rest =>
      rw [hchars] at hword
      obtain ⟨hc, hrest⟩ := hword
      refine ⟨hc, List.forall_mem_append.mpr ⟨hrest, fun d hd => ?_⟩⟩
      simp [Char.isAlphanum, isDigit_of_mem_toDigits hd]

/-- An elementary name is a base name. -/
lemma ElementaryName.isBaseName {name : String} {s : AbiType} (h : ElementaryName name s) :
    TypeExpr.IsBaseName name.toList := by
  have hwords : ∀ word ∈ ["address", "bool", "string", "bytes", "uint", "int"],
      TypeExpr.IsBaseName word.toList := by
    simp [TypeExpr.IsBaseName]
  cases h with
  | address | bool | string | bytes | widestUint | widestInt => exact hwords _ (by simp)
  | uint | int | fixedBytes => exact isBaseName_append_repr (hwords _ (by simp)) _

lemma ElementaryName.ne_tuple {name : String} {s : AbiType} (h : ElementaryName name s) :
    name ≠ "tuple" := by
  rintro rfl
  have htuple : elementaryType "tuple" = .error .unknownType := rfl
  rw [elementaryType_eq_ok_iff.mpr h] at htuple
  cases htuple

/-! ## Written types -/

mutual

/-- **The type grammar**: the type that a text spells, with the components that stand beside it. -/
inductive Spells : String → Option (List Parameter) → AbiType → Prop
  /-- Components beside an elementary name are ignored. -/
  | elementary {text : String} {components : Option (List Parameter)} {s : AbiType}
      (hname : ElementaryName text s) : Spells text components s
  | dynamicArray {text : String} {components : Option (List Parameter)} {s : AbiType}
      (helement : Spells text components s) : Spells (text ++ "[]") components (.array s .dynamic)
  /-- Leading zeros in the length are allowed. -/
  | fixedArray {text digits : String} {components : Option (List Parameter)} {s : AbiType}
      {length : Nat} (helement : Spells text components s) (hne : digits ≠ "")
      (hdigits : ∀ c ∈ digits.toList, c.isDigit = true)
      (hvalue : Nat.ofDigitChars 10 digits.toList 0 = length) (hlow : 1 ≤ length)
      (hhigh : length < 2 ^ 64) :
      Spells (text ++ "[" ++ digits ++ "]") components (.array s (.fixed length))
  | tuple {parameters : List Parameter} {fields : List Field}
      (hfields : SpellsFields parameters fields) : Spells "tuple" (some parameters) (.tuple fields)

/-- The fields that parameters spell: one of each, in order and with its name. -/
inductive SpellsFields : List Parameter → List Field → Prop
  | nil : SpellsFields [] []
  | cons {p : Parameter} {parameters : List Parameter} {s : AbiType} {fields : List Field}
      (hfirst : Spells p.type p.components s) (hrest : SpellsFields parameters fields) :
      SpellsFields (p :: parameters) ((p.name, s) :: fields)

end

lemma spellsFields_iff_forall₂ {parameters : List Parameter} {fields : List Field} :
    SpellsFields parameters fields ↔
      List.Forall₂ (fun p field => field.1 = p.name ∧ Spells p.type p.components field.2)
        parameters fields := by
  induction parameters generalizing fields with
  | nil =>
      constructor
      · intro h
        cases h
        exact .nil
      · intro h
        cases h
        exact .nil
  | cons p parameters ih =>
      constructor
      · intro h
        cases h with
        | cons hfirst hrest => exact .cons ⟨rfl, hfirst⟩ (ih.mp hrest)
      · intro h
        cases h with
        | @cons _ field _ fields hfield hrest =>
            obtain ⟨name, s⟩ := field
            obtain ⟨rfl, hfirst⟩ := hfield
            exact .cons hfirst (ih.mpr hrest)

/-! ## Resolved types are spelled -/

lemma append_ofList_bracketed (text digits : String) :
    text ++ String.ofList (TypeExpr.bracketed digits.toList) = text ++ "[" ++ digits ++ "]" := by
  apply String.toList_injective
  simp [TypeExpr.bracketed]

/-- One more suffix spells an array of what the text spells. -/
lemma Spells.array {text : String} {components : Option (List Parameter)} {s : AbiType}
    {extent : Extent} {inside : List Char} (helement : Spells text components s)
    (hwritten : extent.WrittenBy inside) (hextent : extent ≠ .fixed 0) :
    Spells (text ++ String.ofList (TypeExpr.bracketed inside)) components (.array s extent) := by
  cases hwritten with
  | dynamic => exact .dynamicArray helement
  | @fixed _ length hne hdigits hvalue hbound =>
      have hlow : 1 ≤ length := by
        rcases Nat.eq_zero_or_pos length with rfl | hpos
        · exact absurd rfl hextent
        · exact hpos
      have hspells : Spells (text ++ "[" ++ String.ofList inside ++ "]") components
          (.array s (.fixed length)) :=
        .fixedArray helement (by simpa using hne) (by simpa using hdigits) (by simpa using hvalue)
          hlow hbound
      rwa [← append_ofList_bracketed, String.toList_ofList] at hspells

/-- Suffixes put arrays around what the text before them spells. -/
lemma Spells.wrapExtents {text : String} {components : Option (List Parameter)} {s t : AbiType}
    {extents : List Extent} {insides : List (List Char)} (hbase : Spells text components s)
    (hwritten : List.Forall₂ Extent.WrittenBy extents insides)
    (hwrap : wrapExtents s extents = .ok t) :
    Spells (text ++ String.ofList (insides.flatMap TypeExpr.bracketed)) components t := by
  induction hwritten generalizing text s with
  | nil =>
      cases hwrap
      simpa using hbase
  | @cons extent inside extents insides hfirst _ ih =>
      rw [ContractInterface.wrapExtents] at hwrap
      split_ifs at hwrap with hextent
      have hspells := ih (hbase.array hfirst hextent) hwrap
      simpa [String.append_assoc] using hspells

/-- Each extent is one level. -/
lemma nesting_of_wrapExtents {s t : AbiType} {extents : List Extent}
    (h : wrapExtents s extents = .ok t) : t.nesting = s.nesting + extents.length := by
  induction extents generalizing s with
  | nil =>
      cases h
      rfl
  | cons extent extents ih =>
      rw [wrapExtents] at h
      split_ifs at h
      rw [ih h, AbiType.nesting, List.length_cons]
      omega

/-- A type that a parameter denotes is spelled by its text and keeps within the limit. -/
lemma Parameter.spells_of_resolveBelow {depth : Nat} {p : Parameter} {s : AbiType}
    (h : p.resolveBelow depth = .ok s) :
    Spells p.type p.components s ∧ depth + s.nesting ≤ maxNesting := by
  induction p using Parameter.induction_on_components generalizing depth s with
  | step name type components internalType ih =>
      obtain ⟨expr, base, hparse, hlimit, hbase, hwrap⟩ := resolveBelow_eq_ok_iff.mp h
      obtain ⟨-, insides, hwritten, htext⟩ := TypeExpr.parse_eq_ok_iff.mp hparse
      -- It is enough to show this of the base, the suffixes being put around it one by one.
      suffices hspells : Spells expr.base components base ∧
          depth + expr.extents.length + base.nesting ≤ maxNesting by
        have htype : type = expr.base ++ String.ofList (insides.flatMap TypeExpr.bracketed) := by
          apply String.toList_injective
          simpa using htext
        refine ⟨htype ▸ hspells.1.wrapExtents hwritten hwrap, ?_⟩
        have hnesting := nesting_of_wrapExtents hwrap
        omega
      cases hbase with
      | elementary _ hs =>
          have hname := elementaryType_eq_ok_iff.mp hs
          have hnesting := AbiType.nesting_leaf (elementaryType_regular hs).1
          exact ⟨.elementary hname, by omega⟩
      | @tuple parameters fields hname hcomponents hdepth hfields =>
          have hspelled : List.Forall₂ (fun p field => (field.1 = p.name ∧
              Spells p.type p.components field.2) ∧
              depth + expr.extents.length + 1 + field.2.nesting ≤ maxNesting)
              parameters fields := by
            obtain ⟨hlength, hpairs⟩ :=
              List.forall₂_iff_zip.mp (resolveFieldsBelow_eq_ok_iff.mp hfields)
            refine List.forall₂_iff_zip.mpr ⟨hlength, fun {p field} hpair => ?_⟩
            obtain ⟨hfield, hresolved⟩ := hpairs hpair
            obtain ⟨hspells, hlevels⟩ :=
              ih parameters hcomponents p (List.of_mem_zip hpair).1 hresolved
            exact ⟨⟨hfield, hspells⟩, hlevels⟩
          have hlevels : ∀ field ∈ fields,
              depth + expr.extents.length + 1 + field.2.nesting ≤ maxNesting := by
            intro field hfield
            obtain ⟨p, -, -, hlevels⟩ := exists_mem_of_forall₂ hspelled hfield
            exact hlevels
          dsimp only at hcomponents
          rw [hname, hcomponents]
          exact ⟨.tuple (spellsFields_iff_forall₂.mpr (hspelled.imp fun _ _ h => h.1)),
            AbiType.add_nesting_tuple_le_iff.mpr ⟨hdepth, hlevels⟩⟩

/-! ## Spelled types are resolved -/

lemma wrapExtents_append {s t : AbiType} {extents : List Extent} {extent : Extent}
    (h : wrapExtents s extents = .ok t) (hextent : extent ≠ .fixed 0) :
    wrapExtents s (extents ++ [extent]) = .ok (.array t extent) := by
  induction extents generalizing s with
  | nil =>
      cases h
      rw [List.nil_append, wrapExtents, if_neg hextent, wrapExtents]
  | cons first extents ih =>
      rw [wrapExtents] at h
      split_ifs at h with hfirst
      rw [List.cons_append, wrapExtents, if_neg hfirst]
      exact ih h

namespace Parameter

/-- One more suffix takes one more level. -/
lemma resolveBelow_append {depth : Nat} {p : Parameter} {text : String} {s : AbiType}
    {extent : Extent} {inside : List Char}
    (h : resolveBelow (depth + 1) { p with type := text } = .ok s)
    (hwritten : extent.WrittenBy inside) (hextent : extent ≠ .fixed 0)
    (htype : p.type = text ++ String.ofList (TypeExpr.bracketed inside)) :
    p.resolveBelow depth = .ok (.array s extent) := by
  obtain ⟨expr, base, hparse, hlimit, hbase, hwrap⟩ := resolveBelow_eq_ok_iff.mp h
  have hread : TypeExpr.parse p.type = .ok ⟨expr.base, expr.extents ++ [extent]⟩ := by
    rw [htype]
    exact TypeExpr.parse_eq_ok_iff.mpr ((TypeExpr.parse_eq_ok_iff.mp hparse).append hwritten)
  have hlevels : depth + 1 + expr.extents.length = depth + (expr.extents ++ [extent]).length := by
    rw [List.length_append, List.length_singleton]
    omega
  rw [hlevels] at hlimit hbase
  exact resolveBelow_of_baseDenotes hread hlimit hbase (wrapExtents_append hwrap hextent)

end Parameter

mutual

/-- A spelled type that keeps within the limit is resolved. -/
theorem Spells.resolveBelow : ∀ {text : String} {components : Option (List Parameter)} {s : AbiType}
    (_ : Spells text components s) {depth : Nat} {p : Parameter}, p.type = text →
    p.components = components → depth + s.nesting ≤ maxNesting → p.resolveBelow depth = .ok s
  | text, _, s, .elementary hname, depth, p, htype, _, hdepth => by
      have hwritten : TypeExpr.Written ⟨text, []⟩ p.type :=
        ⟨hname.isBaseName, [], .nil, by simp [htype]⟩
      have hlimit : depth + ([] : List Extent).length ≤ maxNesting :=
        Nat.le_trans (Nat.le_add_right depth s.nesting) hdepth
      exact Parameter.resolveBelow_of_baseDenotes (TypeExpr.parse_eq_ok_iff.mpr hwritten) hlimit
        (.elementary hname.ne_tuple (elementaryType_eq_ok_iff.mpr hname)) rfl
  | _, _, _, @Spells.dynamicArray text _ s helement, depth, p, htype, hcomponents, hdepth => by
      rw [AbiType.nesting] at hdepth
      have hbelow : Parameter.resolveBelow (depth + 1) { p with type := text } = .ok s :=
        helement.resolveBelow rfl hcomponents (by omega)
      exact Parameter.resolveBelow_append hbelow .dynamic (by simp) htype
  | _, _, _, @Spells.fixedArray text _ _ s _ helement hne hdigits hvalue hlow hhigh, depth, p,
      htype, hcomponents, hdepth => by
      rw [AbiType.nesting] at hdepth
      have hbelow : Parameter.resolveBelow (depth + 1) { p with type := text } = .ok s :=
        helement.resolveBelow rfl hcomponents (by omega)
      rw [← append_ofList_bracketed] at htype
      refine Parameter.resolveBelow_append hbelow
        (.fixed (by simpa using hne) hdigits hvalue hhigh) ?_ htype
      rintro ⟨⟩
      cases hlow
  | _, _, _, .tuple hfields, depth, p, htype, hcomponents, hdepth => by
      obtain ⟨hlevel, hbelow⟩ := AbiType.add_nesting_tuple_le_iff.mp hdepth
      have hresolved := hfields.resolveFieldsBelow hbelow
      have hwritten : TypeExpr.Written ⟨"tuple", []⟩ p.type :=
        ⟨by simp [TypeExpr.IsBaseName], [], .nil, by simp [htype]⟩
      exact Parameter.resolveBelow_of_baseDenotes (TypeExpr.parse_eq_ok_iff.mpr hwritten)
        (Nat.le_of_lt hlevel) (.tuple rfl hcomponents hlevel hresolved) rfl

/-- Spelled fields that keep within the limit are resolved. -/
theorem SpellsFields.resolveFieldsBelow : ∀ {parameters : List Parameter} {fields : List Field}
    (_ : SpellsFields parameters fields) {depth : Nat},
    (∀ field ∈ fields, depth + field.2.nesting ≤ maxNesting) →
      ContractInterface.resolveFieldsBelow depth parameters = .ok fields
  | _, _, .nil, depth, hdepth => rfl
  | _, _, .cons hfirst hrest, depth, hdepth => by
      obtain ⟨hlevel, hlevels⟩ := List.forall_mem_cons.mp hdepth
      have htype := hfirst.resolveBelow rfl rfl hlevel
      have hfields := hrest.resolveFieldsBelow hlevels
      rw [ContractInterface.resolveFieldsBelow, htype, hfields]

end

/-- **Resolution implements the type grammar.**  A parameter denotes a type exactly if its text,
with its components, spells the type, and the type nests at most 128 levels. -/
theorem Parameter.resolve_eq_ok_iff_spells (p : Parameter) (s : AbiType) :
    p.resolve = .ok s ↔ Spells p.type p.components s ∧ s.nesting ≤ 128 := by
  have hlimit : 0 + s.nesting ≤ maxNesting ↔ s.nesting ≤ 128 := by
    rw [Nat.zero_add, maxNesting]
  constructor
  · intro h
    obtain ⟨hspells, hlevels⟩ := spells_of_resolveBelow h
    exact ⟨hspells, hlimit.mp hlevels⟩
  · rintro ⟨hspells, hlevels⟩
    exact hspells.resolveBelow rfl rfl (hlimit.mpr hlevels)

end ContractInterface

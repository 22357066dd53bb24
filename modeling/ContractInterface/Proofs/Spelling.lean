import ContractInterface.Proofs.TypeGrammar

/-!
# Spelling types

Every type that resolution can give, and no other, can be spelled: `AbiType.spelling` is a parameter
that denotes the type.  Its text is the base name followed by the array suffixes, innermost first,
and under all of them `tuple` takes the components, each spelled in turn.

The types that can be spelled are the well-formed ones (`AbiType.WellFormed`): their sizes are ones
that a description can give, nothing in them is unknown, and they keep within the limit on levels.
`AbiType.resolve_image` has it in both directions.  For a type without tuples the text is the
canonical one, so canonical texts of such types can be read back.
-/

namespace ContractInterface

namespace AbiType

/-! ## Well-formed types -/

/-- Whether the length of an array, if it is fixed, is below the bound on lengths. -/
def LengthBounded : AbiType → Prop
  | .array _ (.fixed length) => length < 2 ^ 64
  | _ => True

/-- The types that descriptions can give. -/
structure WellFormed (s : AbiType) : Prop where
  /-- Integers are from 8 to 256 bits wide, in whole bytes, and byte strings from 1 to 32 bytes
  long; no array has length zero, and nothing is unknown. -/
  regular : s.Every RegularHead
  bounded : s.Every LengthBounded
  nesting : s.nesting ≤ 128

/-! ## Spelling -/

/-- The text of a type: a base name and the suffixes of the arrays around it. -/
def writtenType : AbiType → String
  | .tuple _ => "tuple"
  | .array element extent => element.writtenType ++ extent.suffix
  | s => s.canonical

mutual

/-- The components that stand beside the text of a type, if there is a tuple under its arrays. -/
def writtenComponents : AbiType → Option (List Parameter)
  | .tuple fields => some (spellings fields)
  | .array element _ => element.writtenComponents
  | _ => none

/-- Parameters that denote fields. -/
def spellings : List Field → List Parameter
  | [] => []
  | (name, s) :: fields => ⟨name, s.writtenType, s.writtenComponents, none⟩ :: spellings fields

end

/-- A parameter of the given name that denotes a type. -/
def spelling (s : AbiType) (name : String) : Parameter :=
  ⟨name, s.writtenType, s.writtenComponents, none⟩

end AbiType

/-! ## Spellings spell -/

lemma Extent.suffix_eq_ofList (extent : Extent) :
    extent.suffix = String.ofList (TypeExpr.bracketed extent.digits) := by
  apply String.toList_injective
  rw [toList_suffix, String.toList_ofList, TypeExpr.bracketed]

/-- The suffix of an extent is one of the ways to write it. -/
lemma AbiType.LengthBounded.writtenBy {element : AbiType} {extent : Extent}
    (h : (AbiType.array element extent).LengthBounded) : extent.WrittenBy extent.digits := by
  cases extent with
  | dynamic => exact .dynamic
  | fixed length =>
      exact .fixed Nat.toDigits_ne_nil (fun c hc => isDigit_of_mem_toDigits hc)
        Nat.ofDigitChars_ten_toDigits h

namespace AbiType

/-- The canonical text of a regular leaf is an elementary name of it. -/
lemma elementaryName_canonical {s : AbiType} (hs : s.isLeaf = true) (hregular : s.RegularHead) :
    ElementaryName s.canonical s := by
  cases s with
  | uint bits =>
      obtain ⟨hpos, hhigh, hbytes⟩ := hregular
      exact .uint (Nat.le_of_dvd hpos hbytes) hhigh hbytes
  | int bits =>
      obtain ⟨hpos, hhigh, hbytes⟩ := hregular
      exact .int (Nat.le_of_dvd hpos hbytes) hhigh hbytes
  | fixedBytes length =>
      obtain ⟨hpos, hhigh⟩ := hregular
      exact .fixedBytes hpos hhigh
  | bytes => exact .bytes
  | bool => exact .bool
  | address => exact .address
  | string => exact .string
  | unknown => cases hregular
  | tuple | array => cases hs

lemma writtenType_leaf {s : AbiType} (hs : s.isLeaf = true) : s.writtenType = s.canonical := by
  cases s <;> simp_all [writtenType, isLeaf]

lemma spellsFields_spellings {fields : List Field}
    (h : ∀ field ∈ fields, Spells field.2.writtenType field.2.writtenComponents field.2) :
    SpellsFields (spellings fields) fields := by
  induction fields with
  | nil => exact .nil
  | cons field fields ih =>
      obtain ⟨hfirst, hrest⟩ := List.forall_mem_cons.mp h
      obtain ⟨name, s⟩ := field
      exact .cons (p := ⟨name, s.writtenType, s.writtenComponents, none⟩) hfirst (ih hrest)

/-- **What a type is spelled as spells it.** -/
lemma spells_writtenType {s : AbiType} (hregular : s.Every RegularHead)
    (hbounded : s.Every LengthBounded) : Spells s.writtenType s.writtenComponents s := by
  induction s using induction_on_parts with
  | leaf s hs =>
      have hname := elementaryName_canonical hs ((every_leaf hs).mp hregular)
      rw [writtenType_leaf hs]
      exact .elementary hname
  | tuple fields ih =>
      have hfields := (every_tuple.mp hregular).2
      have hlengths := (every_tuple.mp hbounded).2
      exact .tuple (spellsFields_spellings fun field hfield =>
        ih field hfield (hfields field hfield) (hlengths field hfield))
  | array element extent ih =>
      obtain ⟨hextent, helement⟩ := every_array.mp hregular
      obtain ⟨hlength, hlengths⟩ := every_array.mp hbounded
      rw [writtenType, writtenComponents, Extent.suffix_eq_ofList]
      exact (ih helement hlengths).array hlength.writtenBy hextent

end AbiType

/-! ## Spelled lengths are bounded -/

mutual

/-- A length that can be written is bounded. -/
theorem Spells.lengthBounded : ∀ {text : String} {components : Option (List Parameter)}
    {s : AbiType}, Spells text components s → s.Every AbiType.LengthBounded
  | _, _, s, .elementary hname => by
      have hleaf := (elementaryType_regular (elementaryType_eq_ok_iff.mpr hname)).1
      refine (AbiType.every_leaf hleaf).mpr ?_
      cases s <;> simp_all [AbiType.LengthBounded, AbiType.isLeaf]
  | _, _, _, .dynamicArray helement => AbiType.every_array.mpr ⟨trivial, helement.lengthBounded⟩
  | _, _, _, .fixedArray helement _ _ _ _ hhigh =>
      AbiType.every_array.mpr ⟨hhigh, helement.lengthBounded⟩
  | _, _, _, .tuple hfields => AbiType.every_tuple.mpr ⟨trivial, hfields.lengthBounded⟩

theorem SpellsFields.lengthBounded : ∀ {parameters : List Parameter} {fields : List Field},
    SpellsFields parameters fields → ∀ field ∈ fields, field.2.Every AbiType.LengthBounded
  | _, _, .nil => by simp
  | _, _, .cons hfirst hrest =>
      List.forall_mem_cons.mpr ⟨hfirst.lengthBounded, hrest.lengthBounded⟩

end

namespace AbiType

/-! ## The image of resolution -/

/-- Types that are resolved are well-formed. -/
lemma wellFormed_of_resolve {p : Parameter} {s : AbiType} (h : p.resolve = .ok s) :
    s.WellFormed := by
  obtain ⟨hspells, hlevels⟩ := Parameter.spells_of_resolveBelow h
  rw [Nat.zero_add] at hlevels
  exact ⟨Parameter.regular_of_resolveBelow h, hspells.lengthBounded, hlevels⟩

/-- A parameter with the text and the components of a well-formed type denotes it. -/
lemma WellFormed.resolve {s : AbiType} (h : s.WellFormed) {p : Parameter}
    (htype : p.type = s.writtenType) (hcomponents : p.components = s.writtenComponents) :
    p.resolve = .ok s := by
  have hlimit : 0 + s.nesting ≤ maxNesting := by
    rw [Nat.zero_add]
    exact h.nesting
  exact (spells_writtenType h.regular h.bounded).resolveBelow htype hcomponents hlimit

/-- Whether a type is a tuple. -/
def isTuple : AbiType → Bool
  | .tuple _ => true
  | _ => false

/-- The text of a type without tuples is canonical, and no components stand beside it. -/
lemma writtenType_of_tupleFree {s : AbiType} (h : s.Every fun t => t.isTuple = false) :
    s.writtenType = s.canonical ∧ s.writtenComponents = none := by
  induction s using induction_on_parts with
  | leaf s hs => cases s <;> simp_all [writtenType, writtenComponents, isLeaf]
  | tuple fields => cases (every_tuple.mp h).1
  | array element extent ih =>
      obtain ⟨htext, hcomponents⟩ := ih (every_array.mp h).2
      exact ⟨by rw [writtenType, canonical, htext], by rw [writtenComponents, hcomponents]⟩

/-- **The image of resolution is the well-formed types, and spelling is inverse to it.**  A type is
denoted by some parameter exactly if it is well-formed; its spelling denotes it then; and, if no
tuples are in it, so does its canonical text alone. -/
theorem resolve_image (s : AbiType) :
    ((∃ p : Parameter, p.resolve = .ok s) ↔ s.WellFormed) ∧
      (s.WellFormed → ∀ name : String, (s.spelling name).resolve = .ok s) ∧
      (s.WellFormed → (s.Every fun t => t.isTuple = false) →
        ∀ (name : String) (internalType : Option String),
          Parameter.resolve ⟨name, s.canonical, none, internalType⟩ = .ok s) := by
  have hspelling : s.WellFormed → ∀ name : String, (s.spelling name).resolve = .ok s :=
    fun h name => h.resolve rfl rfl
  refine ⟨⟨fun ⟨p, hp⟩ => wellFormed_of_resolve hp, fun h => ⟨_, hspelling h ""⟩⟩, hspelling, ?_⟩
  intro h htupleFree name internalType
  obtain ⟨htext, hcomponents⟩ := writtenType_of_tupleFree htupleFree
  exact h.resolve htext.symm hcomponents.symm

/-- An array of the greatest length, of tuples with an array of arrays in them. -/
def orders : AbiType :=
  .array (.tuple [("maker", .address), ("fills", .array (.array (.int 24) (.fixed 3)) .dynamic)])
    (.fixed 18446744073709551615)

theorem resolve_image_orders :
    orders.WellFormed ∧ (∃ p : Parameter, p.resolve = .ok orders) ∧
      (orders.spelling "book").resolve = .ok orders ∧
      Parameter.resolve ⟨"fills", "int24[3][]", none, none⟩ =
        .ok (.array (.array (.int 24) (.fixed 3)) .dynamic) := by
  have horders : orders.WellFormed := by
    refine ⟨?_, ?_, by decide⟩
    · simp [orders, Every, EveryField, RegularHead]
    · simp [orders, Every, EveryField, LengthBounded]
  have hfills : (array (array (int 24) (.fixed 3)) .dynamic).WellFormed := by
    refine ⟨?_, ?_, by decide⟩
    · simp [Every, RegularHead]
    · simp [Every, LengthBounded]
  obtain ⟨himage, hspelling, -⟩ := resolve_image orders
  have hcanonical := (resolve_image (.array (.array (.int 24) (.fixed 3)) .dynamic)).2.2 hfills
    (by simp [Every, isTuple]) "fills" none
  exact ⟨horders, himage.mpr horders, hspelling horders "book", hcanonical⟩

end AbiType

end ContractInterface

import ContractInterface.Output
import ContractInterface.Proofs.CanonicalText
import ContractInterface.Proofs.Resolution
import ContractInterface.Typing

/-!
# Types, outputs and parameters without names

`AbiType.nameless` takes the names of components out of a type, `Parameter.nameless` takes the names
and internal types out of a parameter, at every depth.  A type is the same as what is left of it,
and types are the same up to names exactly if the same is left of them.  So it is with outputs
(`Output.sameType_iff_nameless_eq`), whose comparison is an equivalence for this reason.

Taking names out commutes with everything that is done with them:

* a parameter without names denotes the type without names, or fails to with the same fault
  (`Parameter.resolveBelow_nameless`);
* a value that holds no record is checked in the same way against a type with and without names,
  down to the path and the words of the mismatch (`AbiType.check_nameless`).

A record is the one kind of value that is matched by names, which is why it is left out.
-/

namespace ContractInterface

/-! ## Types -/

namespace AbiType

mutual

/-- The type without the names of components. -/
def nameless : AbiType → AbiType
  | .tuple fields => .tuple (namelessFields fields)
  | .array element extent => .array element.nameless extent
  | s => s

/-- Fields without names. -/
def namelessFields : List Field → List Field
  | [] => []
  | (_, s) :: fields => ("", s.nameless) :: namelessFields fields

end

lemma nameless_leaf {s : AbiType} (hs : s.isLeaf = true) : s.nameless = s := by
  cases s <;> simp_all [nameless, isLeaf]

lemma length_namelessFields (fields : List Field) :
    (namelessFields fields).length = fields.length := by
  induction fields with
  | nil => rfl
  | cons field fields ih => rw [namelessFields, List.length_cons, List.length_cons, ih]

/-- A type is the same as what is left of it without names. -/
lemma sameType_nameless (s : AbiType) : s.sameType s.nameless = true := by
  induction s using induction_on_parts with
  | leaf s hs =>
      rw [nameless_leaf hs]
      exact sameType_refl s
  | tuple fields ih =>
      refine sameType_tuple_left.mpr ⟨namelessFields fields, rfl, ?_⟩
      induction fields with
      | nil => exact .nil
      | cons field fields ihfields =>
          obtain ⟨hfield, hfields⟩ := List.forall_mem_cons.mp ih
          exact .cons hfield (ihfields hfields)
  | array element extent ih => exact sameType_array_left.mpr ⟨element.nameless, rfl, ih⟩

/-- Types that are equal without names are the same up to names. -/
lemma sameType_of_nameless_eq {s t : AbiType} (h : s.nameless = t.nameless) :
    s.sameType t = true := by
  have hs : s.sameType t.nameless = true := h ▸ sameType_nameless s
  exact sameType_trans hs (sameType_symm (sameType_nameless t))

lemma sameFields_of_nameless_eq {fs gs : List Field} (h : namelessFields fs = namelessFields gs) :
    sameFields fs gs = true := by
  have htuple : (tuple fs).nameless = (tuple gs).nameless := by
    rw [nameless, nameless, h]
  exact sameType_of_nameless_eq htuple

lemma namelessFields_eq_of_forall₂ {fs gs : List Field}
    (h : List.Forall₂ (fun f g => f.2.sameType g.2 = true) fs gs)
    (ih : ∀ f ∈ fs, ∀ {t : AbiType}, f.2.sameType t = true → f.2.nameless = t.nameless) :
    namelessFields fs = namelessFields gs := by
  induction h with
  | nil => rfl
  | cons hfield _ ihfields =>
      obtain ⟨hfirst, hrest⟩ := List.forall_mem_cons.mp ih
      rw [namelessFields, namelessFields, hfirst hfield, ihfields hrest]

/-- Types that are the same up to names are equal without names. -/
lemma nameless_eq_of_sameType {s t : AbiType} (h : s.sameType t = true) :
    s.nameless = t.nameless := by
  induction s using induction_on_parts generalizing t with
  | leaf s hs => rw [eq_of_sameType_leaf hs h]
  | tuple fields ih =>
      obtain ⟨gs, rfl, hfields⟩ := sameType_tuple_left.mp h
      rw [nameless, nameless, namelessFields_eq_of_forall₂ hfields ih]
  | array element extent ih =>
      obtain ⟨u, rfl, helement⟩ := sameType_array_left.mp h
      rw [nameless, nameless, ih helement]

lemma canonical_nameless (s : AbiType) : s.nameless.canonical = s.canonical :=
  (canonical_eq_of_sameType (sameType_nameless s)).symm

end AbiType

lemma canonicalSignature_nameless (name : String) (fields : List Field) :
    canonicalSignature name (AbiType.namelessFields fields) = canonicalSignature name fields := by
  have htuple := AbiType.canonical_nameless (.tuple fields)
  rw [AbiType.nameless] at htuple
  rw [canonicalSignature, canonicalSignature, htuple]

/-! ## Outputs -/

namespace Output

/-- The output without names. -/
def nameless : Output → Output
  | .single s => .single s.nameless
  | .record fields => .record (AbiType.namelessFields fields)
  | .void => .void
  | .unknown => .unknown

/-- Outputs that are equal without names are the same up to names. -/
lemma sameType_of_nameless_eq {output output' : Output} (h : output.nameless = output'.nameless) :
    output.sameType output' = true := by
  cases output <;> cases output' <;> simp_all [nameless, sameType]
  · exact AbiType.sameType_of_nameless_eq h
  · exact AbiType.sameFields_of_nameless_eq h

/-- Outputs that are the same up to names are equal without names. -/
lemma nameless_eq_of_sameType {output output' : Output} (h : output.sameType output' = true) :
    output.nameless = output'.nameless := by
  cases output with
  | single s =>
      cases output' with
      | single t => rw [nameless, nameless, AbiType.nameless_eq_of_sameType h]
      | _ => cases h
  | record fs =>
      cases output' with
      | record gs =>
          have htuple : (AbiType.tuple fs).nameless = (AbiType.tuple gs).nameless :=
            AbiType.nameless_eq_of_sameType h
          rw [nameless, nameless, AbiType.tuple.inj htuple]
      | _ => cases h
  | void | unknown => cases output' <;> simp_all [sameType]

lemma sameType_iff_nameless_eq {output output' : Output} :
    output.sameType output' = true ↔ output.nameless = output'.nameless :=
  ⟨nameless_eq_of_sameType, sameType_of_nameless_eq⟩

lemma sameType_refl (output : Output) : output.sameType output = true :=
  sameType_iff_nameless_eq.mpr rfl

lemma sameType_symm {output output' : Output} (h : output.sameType output' = true) :
    output'.sameType output = true :=
  sameType_iff_nameless_eq.mpr (sameType_iff_nameless_eq.mp h).symm

/-- Outputs that are the same up to names compare alike with every other. -/
lemma sameType_congr_left {output output' : Output} (h : output.sameType output' = true)
    (other : Output) : output.sameType other = true ↔ output'.sameType other = true := by
  rw [sameType_iff_nameless_eq, sameType_iff_nameless_eq, sameType_iff_nameless_eq.mp h]

end Output

/-! ## Values without records -/

namespace Value

mutual

/-- Whether a value is given by position throughout: there is no record in it, at any depth. -/
def isPositional : Value → Bool
  | .array items => arePositional items
  | .tuple items => arePositional items
  | .record _ => false
  | _ => true

/-- Whether all of some values are given by position. -/
def arePositional : List Value → Bool
  | [] => true
  | item :: items => item.isPositional && arePositional items

end

lemma arePositional_iff {items : List Value} :
    arePositional items = true ↔ ∀ item ∈ items, item.isPositional = true := by
  induction items with
  | nil => simp [arePositional]
  | cons item items ih => simp [arePositional, ih]

end Value

/-! ## Checking values -/

lemma checkItems_congr {check check' : Value → Except Mismatch Unit} {index : Nat}
    {items : List Value} (h : ∀ item ∈ items, check item = check' item) :
    checkItems check index items = checkItems check' index items := by
  induction items generalizing index with
  | nil => rfl
  | cons item items ih =>
      obtain ⟨hitem, hitems⟩ := List.forall_mem_cons.mp h
      rw [checkItems, checkItems, hitem, ih hitems]

namespace AbiType

lemma mismatch_nameless (s : AbiType) (v : Value) : s.nameless.mismatch v = s.mismatch v := by
  rw [mismatch, mismatch, canonical_nameless]

lemma checkComponents_nameless {fields : List Field} {items : List Value} (index : Nat)
    (hitems : ∀ item ∈ items, item.isPositional = true)
    (h : ∀ field ∈ fields, ∀ v : Value, v.isPositional = true →
      field.2.nameless.check v = field.2.check v) :
    checkComponents index (namelessFields fields) items = checkComponents index fields items := by
  induction fields generalizing index items with
  | nil => rw [namelessFields]
  | cons field fields ih =>
      cases items with
      | nil => rw [namelessFields, checkComponents.eq_def, checkComponents.eq_def]
      | cons item items =>
          obtain ⟨hitem, hitems⟩ := List.forall_mem_cons.mp hitems
          obtain ⟨hfield, hfields⟩ := List.forall_mem_cons.mp h
          rw [namelessFields, checkComponents, checkComponents, hfield item hitem,
            ih (index + 1) hitems hfields]

/-- **Names do not matter for values given by position.**  The check comes to the same, and so does
what it says of a misfit. -/
lemma check_nameless (s : AbiType) {v : Value} (hv : v.isPositional = true) :
    s.nameless.check v = s.check v := by
  induction s using induction_on_parts generalizing v with
  | leaf s hs => rw [nameless_leaf hs]
  | tuple fields ih =>
      have hmismatch := mismatch_nameless (.tuple fields) v
      cases v with
      | tuple items =>
          have hitems := Value.arePositional_iff.mp hv
          rw [nameless] at hmismatch ⊢
          rw [check, check, length_namelessFields, hmismatch, checkComponents_nameless 0 hitems ih]
      | record entries => cases hv
      | _ => exact congrArg Except.error hmismatch
  | array element extent ih =>
      have hmismatch := mismatch_nameless (.array element extent) v
      cases v with
      | array items =>
          have hitems := Value.arePositional_iff.mp hv
          rw [nameless] at hmismatch ⊢
          rw [check, check, hmismatch, checkItems_congr fun item hitem => ih (hitems item hitem)]
      | _ => exact congrArg Except.error hmismatch

end AbiType

/-! ## Parameters -/

mutual

/-- The parameter without names and internal types, its own and those of its components. -/
def Parameter.nameless : Parameter → Parameter
  | ⟨_, type, none, _⟩ => ⟨"", type, none, none⟩
  | ⟨_, type, some parameters, _⟩ => ⟨"", type, some (namelessParameters parameters), none⟩

/-- Parameters without names. -/
def namelessParameters : List Parameter → List Parameter
  | [] => []
  | p :: parameters => p.nameless :: namelessParameters parameters

end

lemma namelessParameters_eq_map (parameters : List Parameter) :
    namelessParameters parameters = parameters.map Parameter.nameless := by
  induction parameters with
  | nil => rfl
  | cons p parameters ih => rw [namelessParameters, ih, List.map_cons]

lemma Parameter.nameless_mk (name type : String) (components : Option (List Parameter))
    (internalType : Option String) :
    Parameter.nameless ⟨name, type, components, internalType⟩ =
      ⟨"", type, components.map namelessParameters, none⟩ := by
  cases components <;> rfl

namespace Parameter

lemma name_nameless (p : Parameter) : p.nameless.name = "" := by
  obtain ⟨name, type, components, internalType⟩ := p
  rw [nameless_mk]

lemma type_nameless (p : Parameter) : p.nameless.type = p.type := by
  obtain ⟨name, type, components, internalType⟩ := p
  rw [nameless_mk]

lemma components_nameless (p : Parameter) :
    p.nameless.components = p.components.map namelessParameters := by
  obtain ⟨name, type, components, internalType⟩ := p
  rw [nameless_mk]

end Parameter

/-! ## Resolution -/

lemma wrapExtents_nameless (s : AbiType) (extents : List Extent) :
    wrapExtents s.nameless extents = AbiType.nameless <$> wrapExtents s extents := by
  induction extents generalizing s with
  | nil => rfl
  | cons extent extents ih =>
      rw [wrapExtents, wrapExtents]
      split_ifs
      · rfl
      · exact ih (.array s extent)

lemma blame_wrapExtents_nameless (type : String) (s : AbiType) (extents : List Extent) :
    blame type (wrapExtents s.nameless extents) =
      AbiType.nameless <$> blame type (wrapExtents s extents) := by
  rw [wrapExtents_nameless]
  cases wrapExtents s extents <;> rfl

lemma resolveFieldsBelow_nameless_of_mem {depth : Nat} {parameters : List Parameter}
    (h : ∀ p ∈ parameters, p.nameless.resolveBelow depth =
      AbiType.nameless <$> p.resolveBelow depth) :
    resolveFieldsBelow depth (namelessParameters parameters) =
      AbiType.namelessFields <$> resolveFieldsBelow depth parameters := by
  induction parameters with
  | nil => rfl
  | cons p parameters ih =>
      obtain ⟨hp, hparameters⟩ := List.forall_mem_cons.mp h
      rw [namelessParameters, resolveFieldsBelow, resolveFieldsBelow, hp, ih hparameters,
        Parameter.name_nameless]
      cases p.resolveBelow depth with
      | error fault => rfl
      | ok s => cases resolveFieldsBelow depth parameters <;> rfl

namespace Parameter

lemma resolveBase_nameless {depth : Nat} {p : Parameter}
    (h : ∀ parameters, p.components = some parameters → ∀ q ∈ parameters,
      q.nameless.resolveBelow (depth + 1) = AbiType.nameless <$> q.resolveBelow (depth + 1))
    (base : String) :
    p.nameless.resolveBase depth base = AbiType.nameless <$> p.resolveBase depth base := by
  rw [resolveBase, resolveBase, type_nameless, components_nameless]
  by_cases hbase : base = "tuple"
  · rw [if_pos hbase, if_pos hbase]
    cases hcomponents : p.components with
    | none => rfl
    | some parameters =>
        dsimp only [Option.map_some]
        by_cases hdepth : maxNesting ≤ depth
        · rw [if_pos hdepth, if_pos hdepth]
          rfl
        · rw [if_neg hdepth, if_neg hdepth,
            resolveFieldsBelow_nameless_of_mem (h parameters hcomponents)]
          cases resolveFieldsBelow (depth + 1) parameters <;> rfl
  · rw [if_neg hbase, if_neg hbase]
    cases hs : elementaryType base with
    | error cause => rfl
    | ok s =>
        -- An elementary type is a leaf, and has no names to lose.
        have hleaf : s.nameless = s := AbiType.nameless_leaf (elementaryType_regular hs).1
        exact congrArg Except.ok hleaf.symm

lemma resolveBelow_nameless_of_components {p : Parameter}
    (h : ∀ parameters, p.components = some parameters → ∀ q ∈ parameters, ∀ depth,
      q.nameless.resolveBelow depth = AbiType.nameless <$> q.resolveBelow depth) (depth : Nat) :
    p.nameless.resolveBelow depth = AbiType.nameless <$> p.resolveBelow depth := by
  have htype := p.type_nameless
  cases hparse : TypeExpr.parse p.type with
  | error fault =>
      rw [resolveBelow_of_unreadable hparse, resolveBelow_of_unreadable (htype ▸ hparse), htype]
      rfl
  | ok expr =>
      by_cases hlimit : depth + expr.extents.length ≤ maxNesting
      · have hbase : p.nameless.resolveBase (depth + expr.extents.length) expr.base =
            AbiType.nameless <$> p.resolveBase (depth + expr.extents.length) expr.base :=
          resolveBase_nameless (fun parameters hcomponents q hq => h parameters hcomponents q hq _)
            expr.base
        rw [resolveBelow_of_le_limit hparse hlimit,
          resolveBelow_of_le_limit (htype ▸ hparse) hlimit, hbase, htype]
        cases p.resolveBase (depth + expr.extents.length) expr.base with
        | error fault => rfl
        | ok s => exact blame_wrapExtents_nameless p.type s expr.extents
      · have hdepth : maxNesting < depth + expr.extents.length := by omega
        rw [resolveBelow_of_limit_lt hparse hdepth,
          resolveBelow_of_limit_lt (htype ▸ hparse) hdepth, htype]
        rfl

/-- **A parameter without names denotes the type without names**, and is at fault as it is with
them. -/
lemma resolveBelow_nameless (depth : Nat) (p : Parameter) :
    p.nameless.resolveBelow depth = AbiType.nameless <$> p.resolveBelow depth := by
  induction p using induction_on_components generalizing depth with
  | step name type components internalType ih =>
      exact resolveBelow_nameless_of_components (fun parameters hcomponents q hq depth =>
        ih parameters hcomponents q hq depth) depth

end Parameter

lemma resolveFields_nameless (parameters : List Parameter) :
    resolveFields (parameters.map Parameter.nameless) =
      AbiType.namelessFields <$> resolveFields parameters := by
  rw [← namelessParameters_eq_map]
  exact resolveFieldsBelow_nameless_of_mem fun p _ => p.resolveBelow_nameless 0

end ContractInterface

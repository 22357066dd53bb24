import ContractInterface.Signature
import ContractInterface.Proofs.AbiType
import ContractInterface.Proofs.Outcome

/-!
# What parameters denote

Resolution taken apart: a parameter is refused for its text or its dimensions, or it comes down to
its base name (`Parameter.resolveBase`) with the dimensions around it.  From these three cases
`Parameter.resolveBelow_eq_ok_iff` says in one place what has to be the case for a parameter to
denote a type; `resolveFieldsBelow_eq_ok_iff` and `resolveFieldsBelow_eq_error_iff` reduce lists of
parameters to their members.

The types that come out are regular (`Parameter.regular_of_resolveBelow`): every integer is a whole
number of bytes wide, from one to 32, fixed byte strings are as long, no array has length zero, and
nothing is left unknown.
-/

namespace ContractInterface

/-! ## Induction on components -/

/-- Induction along the components of a parameter. -/
@[elab_as_elim]
theorem Parameter.induction_on_components {motive : Parameter → Prop}
    (step : ∀ name type components internalType,
      (∀ parameters, components = some parameters → ∀ p ∈ parameters, motive p) →
        motive ⟨name, type, components, internalType⟩)
    (p : Parameter) : motive p := by
  refine @Parameter.rec motive
    (fun components => ∀ parameters, components = some parameters → ∀ p ∈ parameters, motive p)
    (fun parameters => ∀ p ∈ parameters, motive p) step ?_ ?_ ?_ ?_ p
  · intro parameters h
    cases h
  · rintro parameters ih _ ⟨⟩
    exact ih
  · simp
  · intro p parameters hp hparameters
    exact List.forall_mem_cons.mpr ⟨hp, hparameters⟩

/-! ## Inversion -/

/-- The type that a base name denotes, below the given number of levels, with the components that
stand beside it. -/
inductive BaseDenotes (depth : Nat) (components : Option (List Parameter)) (base : String) :
    AbiType → Prop
  | elementary {s : AbiType} (hbase : base ≠ "tuple") (hs : elementaryType base = .ok s) :
      BaseDenotes depth components base s
  | tuple {parameters : List Parameter} {fields : List Field} (hbase : base = "tuple")
      (hcomponents : components = some parameters) (hdepth : depth < maxNesting)
      (hfields : resolveFieldsBelow (depth + 1) parameters = .ok fields) :
      BaseDenotes depth components base (.tuple fields)

lemma blame_eq_ok_iff {type : String} {x : Except TypeCause α} {a : α} :
    blame type x = .ok a ↔ x = .ok a := by
  cases x <;> simp [blame]

namespace Parameter

/-- What the base name of a parameter comes to, below the given number of levels. -/
def resolveBase (depth : Nat) (p : Parameter) (base : String) : Except TypeFault AbiType :=
  if base = "tuple" then
    match p.components with
    | none => .error ⟨p.type, .missingComponents⟩
    | some parameters =>
      if maxNesting ≤ depth then .error ⟨p.type, .tooDeeplyNested⟩
      else .tuple <$> resolveFieldsBelow (depth + 1) parameters
  else blame p.type (elementaryType base)

lemma resolveBase_eq_ok_iff {depth : Nat} {p : Parameter} {base : String} {s : AbiType} :
    p.resolveBase depth base = .ok s ↔ BaseDenotes depth p.components base s := by
  rw [resolveBase]
  constructor
  · intro h
    by_cases hbase : base = "tuple"
    · rw [if_pos hbase] at h
      cases hcomponents : p.components with
      | none => simp [hcomponents] at h
      | some parameters =>
          simp only [hcomponents] at h
          split_ifs at h with hdepth
          obtain ⟨fields, hfields, rfl⟩ := map_eq_ok_iff.mp h
          exact .tuple hbase rfl (by omega) hfields
    · rw [if_neg hbase, blame_eq_ok_iff] at h
      exact .elementary hbase h
  · intro h
    cases h with
    | elementary hbase hs => rw [if_neg hbase, blame_eq_ok_iff, hs]
    | tuple hbase hcomponents hdepth hfields =>
        simp only [hbase, if_true, hcomponents]
        rw [if_neg (by omega), hfields]
        rfl

lemma resolveBelow_of_unreadable {p : Parameter} {fault : TypeExpr.SyntaxFault}
    (hparse : TypeExpr.parse p.type = .error fault) (depth : Nat) :
    p.resolveBelow depth = .error ⟨p.type, .invalidSyntax fault⟩ := by
  obtain ⟨name, type, components, internalType⟩ := p
  dsimp only at hparse
  rw [resolveBelow, hparse]

lemma resolveBelow_of_limit_lt {depth : Nat} {p : Parameter} {expr : TypeExpr}
    (hparse : TypeExpr.parse p.type = .ok expr)
    (hlimit : maxNesting < depth + expr.extents.length) :
    p.resolveBelow depth = .error ⟨p.type, .tooDeeplyNested⟩ := by
  obtain ⟨name, type, components, internalType⟩ := p
  dsimp only at hparse
  rw [resolveBelow]
  simp only [hparse]
  rw [if_pos hlimit]

/-- If the text can be read and its dimensions do not exceed the limit, what is left is the base,
and the dimensions around it. -/
lemma resolveBelow_of_le_limit {depth : Nat} {p : Parameter} {expr : TypeExpr}
    (hparse : TypeExpr.parse p.type = .ok expr)
    (hlimit : depth + expr.extents.length ≤ maxNesting) :
    p.resolveBelow depth =
      p.resolveBase (depth + expr.extents.length) expr.base >>= fun s =>
        blame p.type (wrapExtents s expr.extents) := by
  obtain ⟨name, type, components, internalType⟩ := p
  dsimp only at hparse
  rw [resolveBelow]
  simp only [hparse]
  rw [if_neg (by omega), resolveBase]
  by_cases hbase : expr.base = "tuple"
  · rw [if_pos hbase, if_pos hbase]
    cases components with
    | none => rfl
    | some parameters =>
        dsimp only
        by_cases hdepth : maxNesting ≤ depth + expr.extents.length
        · rw [if_pos hdepth, if_pos hdepth]
          rfl
        · rw [if_neg hdepth, if_neg hdepth]
          cases resolveFieldsBelow (depth + expr.extents.length + 1) parameters <;> rfl
  · rw [if_neg hbase, if_neg hbase]
    cases elementaryType expr.base <;> rfl

/-- A parameter denotes a type exactly if its text can be read, its dimensions do not exceed the
limit, its base denotes a type, and the dimensions can be put around that. -/
lemma resolveBelow_eq_ok_iff {depth : Nat} {p : Parameter} {s : AbiType} :
    p.resolveBelow depth = .ok s ↔
      ∃ expr base, TypeExpr.parse p.type = .ok expr ∧
        depth + expr.extents.length ≤ maxNesting ∧
        BaseDenotes (depth + expr.extents.length) p.components expr.base base ∧
        wrapExtents base expr.extents = .ok s := by
  constructor
  · intro h
    cases hparse : TypeExpr.parse p.type with
    | error fault =>
        rw [resolveBelow_of_unreadable hparse] at h
        cases h
    | ok expr =>
        by_cases hlimit : depth + expr.extents.length ≤ maxNesting
        · rw [resolveBelow_of_le_limit hparse hlimit] at h
          obtain ⟨base, hbase, hwrap⟩ := bind_eq_ok_iff.mp h
          exact ⟨expr, base, rfl, hlimit, resolveBase_eq_ok_iff.mp hbase,
            blame_eq_ok_iff.mp hwrap⟩
        · rw [resolveBelow_of_limit_lt hparse (by omega)] at h
          cases h
  · rintro ⟨expr, base, hparse, hlimit, hbase, hwrap⟩
    rw [resolveBelow_of_le_limit hparse hlimit]
    exact bind_eq_ok_iff.mpr ⟨base, resolveBase_eq_ok_iff.mpr hbase, blame_eq_ok_iff.mpr hwrap⟩

lemma resolveBelow_of_baseDenotes {depth : Nat} {p : Parameter} {expr : TypeExpr}
    {base s : AbiType} (hparse : TypeExpr.parse p.type = .ok expr)
    (hlimit : depth + expr.extents.length ≤ maxNesting)
    (hbase : BaseDenotes (depth + expr.extents.length) p.components expr.base base)
    (hwrap : wrapExtents base expr.extents = .ok s) : p.resolveBelow depth = .ok s :=
  resolveBelow_eq_ok_iff.mpr ⟨expr, base, hparse, hlimit, hbase, hwrap⟩

end Parameter

/-- Parameters denote fields exactly if each denotes a type, which becomes the type of a field of
its name. -/
lemma resolveFieldsBelow_eq_ok_iff {depth : Nat} {parameters : List Parameter}
    {fields : List Field} :
    resolveFieldsBelow depth parameters = .ok fields ↔
      List.Forall₂ (fun p field => field.1 = p.name ∧ p.resolveBelow depth = .ok field.2)
        parameters fields := by
  induction parameters generalizing fields with
  | nil => simp [resolveFieldsBelow, eq_comm]
  | cons p parameters ih =>
      rw [resolveFieldsBelow, List.forall₂_cons_left_iff]
      constructor
      · intro h
        cases htype : p.resolveBelow depth with
        | error fault => simp [htype] at h
        | ok s =>
            cases hrest : resolveFieldsBelow depth parameters with
            | error fault => simp [htype, hrest] at h
            | ok rest =>
                simp only [htype, hrest, Except.ok.injEq] at h
                exact ⟨(p.name, s), rest, ⟨rfl, rfl⟩, ih.mp hrest, h.symm⟩
      · rintro ⟨⟨name, s⟩, rest, ⟨rfl, htype⟩, hrest, rfl⟩
        simp only [htype, ih.mpr hrest]

/-- Parameters fail to denote fields because of the first of them that denotes no type. -/
lemma resolveFieldsBelow_eq_error_iff {depth : Nat} {parameters : List Parameter}
    {fault : TypeFault} :
    resolveFieldsBelow depth parameters = .error fault ↔
      ∃ before p after, parameters = before ++ p :: after ∧
        (∀ q ∈ before, ∃ s, q.resolveBelow depth = .ok s) ∧
        p.resolveBelow depth = .error fault := by
  induction parameters with
  | nil => simp [resolveFieldsBelow]
  | cons p parameters ih =>
      rw [exists_first_cons_iff, ← ih, resolveFieldsBelow]
      cases p.resolveBelow depth with
      | error cause => simp
      | ok s => cases resolveFieldsBelow depth parameters <;> simp

/-- Whether a field is what a parameter denotes: it has the parameter's name, and its type. -/
def Parameter.Denotes (p : Parameter) (field : Field) : Prop :=
  field.1 = p.name ∧ p.resolve = .ok field.2

lemma resolveFields_eq_ok_iff {parameters : List Parameter} {fields : List Field} :
    resolveFields parameters = .ok fields ↔
      List.Forall₂ Parameter.Denotes parameters fields :=
  resolveFieldsBelow_eq_ok_iff

lemma Function.signature_eq_ok_iff {f : Function} {signature : FunctionSignature} :
    f.signature = .ok signature ↔
      ∃ inputs outputs, resolveFields f.inputs = .ok inputs ∧
        resolveFields f.outputs = .ok outputs ∧
        signature = ⟨f.name, inputs, outputs, f.mutability⟩ := by
  rw [Function.signature, bind_eq_ok_iff]
  constructor
  · rintro ⟨inputs, hinputs, h⟩
    obtain ⟨outputs, houtputs, hpure⟩ := bind_eq_ok_iff.mp h
    cases hpure
    exact ⟨inputs, outputs, hinputs, houtputs, rfl⟩
  · rintro ⟨inputs, outputs, hinputs, houtputs, rfl⟩
    exact ⟨inputs, hinputs, bind_eq_ok_iff.mpr ⟨outputs, houtputs, rfl⟩⟩

/-! ## Regular types -/

/-- Whether the sizes at the head of a type are ones that a description can give. -/
def AbiType.RegularHead : AbiType → Prop
  | .uint bits | .int bits => 0 < bits ∧ bits ≤ 256 ∧ 8 ∣ bits
  | .fixedBytes length => 0 < length ∧ length ≤ 32
  | .array _ extent => extent ≠ .fixed 0
  | .unknown => False
  | _ => True

lemma integerWidth_regular {digits : List Char} {bits : Nat} (h : integerWidth digits = .ok bits) :
    0 < bits ∧ bits ≤ 256 ∧ 8 ∣ bits := by
  unfold integerWidth at h
  split at h
  · cases h
    decide
  · split at h
    · cases h
    · split at h
      · cases h
      · cases h
        omega

lemma bytesLength_regular {digits : List Char} {length : Nat}
    (h : bytesLength digits = .ok length) : 0 < length ∧ length ≤ 32 := by
  unfold bytesLength at h
  split at h
  · cases h
  · split at h
    · cases h
    · cases h
      omega

/-- Elementary names denote regular leaves. -/
lemma elementaryType_regular {name : String} {s : AbiType} (h : elementaryType name = .ok s) :
    s.isLeaf = true ∧ s.RegularHead := by
  unfold elementaryType at h
  split_ifs at h
  iterate 4 (cases h; exact ⟨rfl, trivial⟩)
  unfold sizedType at h
  split at h
  · obtain ⟨bits, hbits, rfl⟩ := map_eq_ok_iff.mp h
    exact ⟨rfl, integerWidth_regular hbits⟩
  · obtain ⟨bits, hbits, rfl⟩ := map_eq_ok_iff.mp h
    exact ⟨rfl, integerWidth_regular hbits⟩
  · obtain ⟨length, hlength, rfl⟩ := map_eq_ok_iff.mp h
    exact ⟨rfl, bytesLength_regular hlength⟩
  · cases h

lemma wrapExtents_regular {s t : AbiType} {extents : List Extent}
    (h : wrapExtents s extents = .ok t) (hs : s.Every AbiType.RegularHead) :
    t.Every AbiType.RegularHead := by
  induction extents generalizing s with
  | nil =>
      cases h
      exact hs
  | cons extent extents ih =>
      rw [wrapExtents] at h
      split_ifs at h with hextent
      exact ih h (AbiType.every_array.mpr ⟨hextent, hs⟩)

/-- What a list is related to, member by member, has a counterpart of each of its members. -/
lemma exists_mem_of_forall₂ {R : α → β → Prop} {as : List α} {bs : List β}
    (h : List.Forall₂ R as bs) {b : β} (hb : b ∈ bs) : ∃ a ∈ as, R a b := by
  induction h with
  | nil => cases hb
  | @cons a b' as bs hab _ ih =>
      rcases List.mem_cons.mp hb with rfl | hrest
      · exact ⟨a, by simp, hab⟩
      · obtain ⟨a', ha', hab'⟩ := ih hrest
        exact ⟨a', by simp [ha'], hab'⟩

/-- **Resolution gives regular types only.** -/
lemma Parameter.regular_of_resolveBelow {depth : Nat} {p : Parameter} {s : AbiType}
    (h : p.resolveBelow depth = .ok s) : s.Every AbiType.RegularHead := by
  induction p using Parameter.induction_on_components generalizing depth s with
  | step name type components internalType ih =>
      obtain ⟨expr, base, -, -, hbase, hwrap⟩ := resolveBelow_eq_ok_iff.mp h
      refine wrapExtents_regular hwrap ?_
      cases hbase with
      | elementary _ hs =>
          obtain ⟨hleaf, hregular⟩ := elementaryType_regular hs
          exact (AbiType.every_leaf hleaf).mpr hregular
      | @tuple parameters fields _ hcomponents _ hfields =>
          refine AbiType.every_tuple.mpr ⟨trivial, fun field hfield => ?_⟩
          obtain ⟨q, hq, hdenotes⟩ :=
            exists_mem_of_forall₂ (resolveFieldsBelow_eq_ok_iff.mp hfields) hfield
          exact ih parameters hcomponents q hq hdenotes.2

end ContractInterface

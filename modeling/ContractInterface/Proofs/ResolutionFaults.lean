import ContractInterface.Proofs.TypeGrammar

/-!
# Which fault resolution reports

A parameter that denotes no type may do so for many reasons at once: its text, its components and
theirs can all be at fault.  One of the faults is reported, with the written type it is found in.
This module says which one, without following resolution (`Parameter.resolve_reports_first_fault`).

* `BaseFault name cause` is what is wrong with a base name other than `tuple`;
* `Parameter.FailsItself depth p cause` is what is wrong with a parameter itself, below a number of
  levels;
* `Parameter.LeadsTo` is one step down, to a component, past components that all denote types, and
  `Parameter.Reaches` is any number of such steps, with a count of the levels.

The order of the cases of `FailsItself` is the order in which faults are looked for.  Most of it
comes before the components are looked at.  A dimension of length zero alone comes after them: a
fault inside the components of `tuple[0]` hides that of its dimension, which in turn hides all
faults of what stands after it.
-/

namespace ContractInterface

/-! ## Elementary names -/

/-- A word that takes a size is known, whatever number stands after it. -/
lemma elementaryType_sized_ne_unknown {word : String} (hword : word ∈ ["uint", "int", "bytes"])
    {n : Nat} (hn : n < 2 ^ 64) : elementaryType (word ++ Nat.repr n) ≠ .error .unknownType := by
  simp only [List.mem_cons, List.not_mem_nil, or_false] at hword
  rcases hword with rfl | rfl | rfl
  · rw [elementaryType_uint hn]
    split_ifs <;> simp
  · rw [elementaryType_int hn]
    split_ifs <;> simp
  · rw [elementaryType_fixedBytes hn]
    split_ifs <;> simp

/-- Why a base name other than `tuple` denotes no type.  Numbers are written without leading
zeros. -/
inductive BaseFault (name : String) : TypeCause → Prop
  | integerWidth {bits : Nat}
      (hname : name = "uint" ++ Nat.repr bits ∨ name = "int" ++ Nat.repr bits)
      (hbound : bits < 2 ^ 64) (hbits : ¬(8 ≤ bits ∧ bits ≤ 256 ∧ 8 ∣ bits)) :
      BaseFault name .invalidIntegerWidth
  | bytesLength {length : Nat} (hname : name = "bytes" ++ Nat.repr length)
      (hbound : length < 2 ^ 64) (hlength : ¬(1 ≤ length ∧ length ≤ 32)) :
      BaseFault name .invalidBytesLength
  /-- The name is neither elementary nor a word that takes a size with a number after it. -/
  | unknown (hname : ∀ s, ¬ElementaryName name s)
      (hsized : ∀ word ∈ ["uint", "int", "bytes"], ∀ n < 2 ^ 64, name ≠ word ++ Nat.repr n) :
      BaseFault name .unknownType

lemma baseFault_of_unknownType {name : String} (h : elementaryType name = .error .unknownType) :
    BaseFault name .unknownType := by
  refine .unknown (fun s hs => ?_) (fun word hword n hn hname => ?_)
  · rw [elementaryType_eq_ok_iff.mpr hs] at h
    cases h
  · rw [hname] at h
    exact elementaryType_sized_ne_unknown hword hn h

lemma baseFault_of_elementaryType {name : String} {cause : TypeCause}
    (h : elementaryType name = .error cause) : BaseFault name cause := by
  by_cases hcause : cause = .unknownType
  · rw [hcause] at h ⊢
    exact baseFault_of_unknownType h
  rw [elementaryType] at h
  split_ifs at h
  unfold sizedType at h
  split at h
  · next digits hname =>
      obtain ⟨bits, hbound, rfl, hbits, rfl⟩ :=
        readsSize_integerWidth.exists_number (map_eq_error_iff.mp h) hcause
      exact .integerWidth (.inl (eq_append_repr "uint" hname)) hbound hbits
  · next digits hname =>
      obtain ⟨bits, hbound, rfl, hbits, rfl⟩ :=
        readsSize_integerWidth.exists_number (map_eq_error_iff.mp h) hcause
      exact .integerWidth (.inr (eq_append_repr "int" hname)) hbound hbits
  · next digits hname =>
      obtain ⟨length, hbound, rfl, hlength, rfl⟩ :=
        readsSize_bytesLength.exists_number (map_eq_error_iff.mp h) hcause
      exact .bytesLength (eq_append_repr "bytes" hname) hbound hlength
  · exact absurd (Except.error.inj h).symm hcause

/-- **What is wrong with a name that is not elementary.** -/
lemma elementaryType_eq_error_iff {name : String} {cause : TypeCause} :
    elementaryType name = .error cause ↔ BaseFault name cause := by
  refine ⟨baseFault_of_elementaryType, fun h => ?_⟩
  cases h with
  | integerWidth hname hbound hbits =>
      rcases hname with rfl | rfl
      · rw [elementaryType_uint hbound, if_neg hbits]
      · rw [elementaryType_int hbound, if_neg hbits]
  | bytesLength hname hbound hlength =>
      rw [hname, elementaryType_fixedBytes hbound, if_neg hlength]
  | unknown hname hsized =>
      -- The name has some fault, and the others are those of a word with a number after it.
      cases h : elementaryType name with
      | ok s => exact absurd (elementaryType_eq_ok_iff.mp h) (hname s)
      | error cause =>
          cases baseFault_of_elementaryType h with
          | unknown => rfl
          | integerWidth hname hbound =>
              rcases hname with hname | hname
              · exact absurd hname (hsized "uint" (by simp) _ hbound)
              · exact absurd hname (hsized "int" (by simp) _ hbound)
          | bytesLength hname hbound => exact absurd hname (hsized "bytes" (by simp) _ hbound)

/-! ## Dimensions -/

lemma wrapExtents_eq_error_iff {s : AbiType} {extents : List Extent} {cause : TypeCause} :
    wrapExtents s extents = .error cause ↔ .fixed 0 ∈ extents ∧ cause = .zeroLengthArray := by
  induction extents generalizing s with
  | nil => simp [wrapExtents]
  | cons extent extents ih =>
      rw [wrapExtents, List.mem_cons]
      split_ifs with hextent
      · simp [hextent, eq_comm]
      · simp [ih, Ne.symm hextent]

lemma blame_eq_error_iff {type : String} {x : Except TypeCause α} {fault : TypeFault} :
    blame type x = .error fault ↔ ∃ cause, x = .error cause ∧ fault = ⟨type, cause⟩ := by
  cases x <;> simp [blame, eq_comm]

namespace Parameter

/-! ## Faults, and the way to them -/

/-- What is wrong with a parameter itself, below the given number of levels.  In each case there is
none of the faults of the cases before it. -/
inductive FailsItself (depth : Nat) (p : Parameter) : TypeCause → Prop
  | unreadable {fault : TypeExpr.SyntaxFault} (hparse : TypeExpr.parse p.type = .error fault) :
      FailsItself depth p (.invalidSyntax fault)
  | dimensions {expr : TypeExpr} (hparse : TypeExpr.parse p.type = .ok expr)
      (hdepth : 128 < depth + expr.extents.length) : FailsItself depth p .tooDeeplyNested
  | noComponents {expr : TypeExpr} (hparse : TypeExpr.parse p.type = .ok expr)
      (hdepth : depth + expr.extents.length ≤ 128) (hbase : expr.base = "tuple")
      (hcomponents : p.components = none) : FailsItself depth p .missingComponents
  /-- The dimensions take all the levels that are left, and the tuple is one more. -/
  | noLevel {expr : TypeExpr} {parameters : List Parameter}
      (hparse : TypeExpr.parse p.type = .ok expr) (hdepth : depth + expr.extents.length = 128)
      (hbase : expr.base = "tuple") (hcomponents : p.components = some parameters) :
      FailsItself depth p .tooDeeplyNested
  | base {expr : TypeExpr} {cause : TypeCause} (hparse : TypeExpr.parse p.type = .ok expr)
      (hdepth : depth + expr.extents.length ≤ 128) (hbase : expr.base ≠ "tuple")
      (hcause : BaseFault expr.base cause) : FailsItself depth p cause
  /-- A dimension of length zero counts only if the base denotes a type. -/
  | zeroLength {expr : TypeExpr} {s : AbiType} (hparse : TypeExpr.parse p.type = .ok expr)
      (hdepth : depth + expr.extents.length ≤ 128)
      (hbase : BaseDenotes (depth + expr.extents.length) p.components expr.base s)
      (hzero : .fixed 0 ∈ expr.extents) : FailsItself depth p .zeroLengthArray

/-- Whether a parameter denotes a type that can stand below the given number of levels. -/
def FitsBelow (depth : Nat) (p : Parameter) : Prop :=
  ∃ s, p.resolve = .ok s ∧ depth + s.nesting ≤ 128

/-- A step down from a parameter that is built on `tuple` to one of its components, past components
that all denote types.  Each of the two has the number of levels around it before it: the component
has the dimensions of the tuple and the tuple itself around it as well. -/
inductive LeadsTo : Nat → Parameter → Nat → Parameter → Prop
  | component {depth : Nat} {p q : Parameter} {expr : TypeExpr} {before after : List Parameter}
      (hparse : TypeExpr.parse p.type = .ok expr) (hdepth : depth + expr.extents.length < 128)
      (hbase : expr.base = "tuple") (hcomponents : p.components = some (before ++ q :: after))
      (hbefore : ∀ earlier ∈ before, earlier.FitsBelow (depth + expr.extents.length + 1)) :
      LeadsTo depth p (depth + expr.extents.length + 1) q

/-- Steps one after another. -/
inductive Reaches : Nat → Parameter → Nat → Parameter → Prop
  | here (depth : Nat) (p : Parameter) : Reaches depth p depth p
  | step {depth below last : Nat} {p q r : Parameter} (hstep : LeadsTo depth p below q)
      (hrest : Reaches below q last r) : Reaches depth p last r

/-- Levels around a parameter do not change what it denotes, only whether it fits. -/
lemma fitsBelow_iff {depth : Nat} {p : Parameter} :
    p.FitsBelow depth ↔ ∃ s, p.resolveBelow depth = .ok s := by
  refine exists_congr fun s => ?_
  constructor
  · rintro ⟨hs, hdepth⟩
    obtain ⟨hspells, -⟩ := spells_of_resolveBelow hs
    exact hspells.resolveBelow rfl rfl hdepth
  · intro h
    obtain ⟨hspells, hdepth⟩ := spells_of_resolveBelow h
    exact ⟨hspells.resolveBelow rfl rfl (by omega), hdepth⟩

/-! ## One level -/

lemma fault_of_resolveBase {depth : Nat} {p : Parameter} {expr : TypeExpr} {fault : TypeFault}
    (hparse : TypeExpr.parse p.type = .ok expr) (hlimit : depth + expr.extents.length ≤ 128)
    (h : p.resolveBase (depth + expr.extents.length) expr.base = .error fault) :
    (p.type = fault.type ∧ FailsItself depth p fault.cause) ∨
      ∃ below q, LeadsTo depth p below q ∧ q.resolveBelow below = .error fault := by
  have hmax : maxNesting = 128 := rfl
  rw [resolveBase] at h
  by_cases hbase : expr.base = "tuple"
  · rw [if_pos hbase] at h
    cases hcomponents : p.components with
    | none =>
        simp only [hcomponents] at h
        cases h
        exact .inl ⟨rfl, .noComponents hparse hlimit hbase hcomponents⟩
    | some parameters =>
        simp only [hcomponents] at h
        split_ifs at h with hdepth
        · cases h
          exact .inl ⟨rfl, .noLevel hparse (by omega) hbase hcomponents⟩
        · obtain ⟨before, q, after, rfl, hbefore, hq⟩ :=
            resolveFieldsBelow_eq_error_iff.mp (map_eq_error_iff.mp h)
          have hfit := fun earlier hmem => fitsBelow_iff.mpr (hbefore earlier hmem)
          exact .inr ⟨_, q, .component hparse (by omega) hbase hcomponents hfit, hq⟩
  · rw [if_neg hbase] at h
    obtain ⟨cause, hcause, rfl⟩ := blame_eq_error_iff.mp h
    exact .inl ⟨rfl, .base hparse hlimit hbase (elementaryType_eq_error_iff.mp hcause)⟩

/-- A parameter that denotes no type has a fault of its own, or a component that denotes none. -/
lemma fault_of_resolveBelow {depth : Nat} {p : Parameter} {fault : TypeFault}
    (h : p.resolveBelow depth = .error fault) :
    (p.type = fault.type ∧ FailsItself depth p fault.cause) ∨
      ∃ below q, LeadsTo depth p below q ∧ q.resolveBelow below = .error fault := by
  cases hparse : TypeExpr.parse p.type with
  | error cause =>
      rw [resolveBelow_of_unreadable hparse] at h
      cases h
      exact .inl ⟨rfl, .unreadable hparse⟩
  | ok expr =>
      by_cases hlimit : depth + expr.extents.length ≤ maxNesting
      · rw [resolveBelow_of_le_limit hparse hlimit] at h
        rcases bind_eq_error_iff.mp h with hbase | ⟨s, hs, hwrap⟩
        · exact fault_of_resolveBase hparse hlimit hbase
        · obtain ⟨cause, hcause, rfl⟩ := blame_eq_error_iff.mp hwrap
          obtain ⟨hzero, rfl⟩ := wrapExtents_eq_error_iff.mp hcause
          exact .inl ⟨rfl, .zeroLength hparse hlimit (resolveBase_eq_ok_iff.mp hs) hzero⟩
      · have hdepth : maxNesting < depth + expr.extents.length := by omega
        rw [resolveBelow_of_limit_lt hparse hdepth] at h
        cases h
        exact .inl ⟨rfl, .dimensions hparse hdepth⟩

lemma resolveBelow_of_resolveBase {depth : Nat} {p : Parameter} {expr : TypeExpr}
    {fault : TypeFault} (hparse : TypeExpr.parse p.type = .ok expr)
    (hlimit : depth + expr.extents.length ≤ 128)
    (h : p.resolveBase (depth + expr.extents.length) expr.base = .error fault) :
    p.resolveBelow depth = .error fault := by
  rw [resolveBelow_of_le_limit hparse hlimit]
  exact bind_eq_error_iff.mpr (.inl h)

/-- A parameter is refused for a fault of its own, if it has one. -/
lemma FailsItself.resolveBelow {depth : Nat} {p : Parameter} {cause : TypeCause}
    (h : FailsItself depth p cause) : p.resolveBelow depth = .error ⟨p.type, cause⟩ := by
  have hmax : maxNesting = 128 := rfl
  cases h with
  | unreadable hparse => exact resolveBelow_of_unreadable hparse depth
  | dimensions hparse hdepth => exact resolveBelow_of_limit_lt hparse hdepth
  | noComponents hparse hdepth hbase hcomponents =>
      refine resolveBelow_of_resolveBase hparse hdepth ?_
      rw [resolveBase, if_pos hbase, hcomponents]
  | noLevel hparse hdepth hbase hcomponents =>
      refine resolveBelow_of_resolveBase hparse (by omega) ?_
      rw [resolveBase, if_pos hbase, hcomponents]
      exact if_pos (by omega)
  | base hparse hdepth hbase hcause =>
      refine resolveBelow_of_resolveBase hparse hdepth ?_
      rw [resolveBase, if_neg hbase]
      exact blame_eq_error_iff.mpr ⟨cause, elementaryType_eq_error_iff.mpr hcause, rfl⟩
  | zeroLength hparse hdepth hbase hzero =>
      rw [resolveBelow_of_le_limit hparse hdepth, resolveBase_eq_ok_iff.mpr hbase]
      exact blame_eq_error_iff.mpr ⟨_, wrapExtents_eq_error_iff.mpr ⟨hzero, rfl⟩, rfl⟩

/-- A tuple is refused for what its first component at fault is refused for. -/
lemma LeadsTo.resolveBelow {depth below : Nat} {p q : Parameter} {fault : TypeFault}
    (hstep : LeadsTo depth p below q) (h : q.resolveBelow below = .error fault) :
    p.resolveBelow depth = .error fault := by
  have hmax : maxNesting = 128 := rfl
  cases hstep with
  | @component _ expr before after hparse hdepth hbase hcomponents hbefore =>
      have hresolve := fun earlier hmem => fitsBelow_iff.mp (hbefore earlier hmem)
      have hfields : resolveFieldsBelow (depth + expr.extents.length + 1)
          (before ++ q :: after) = .error fault :=
        resolveFieldsBelow_eq_error_iff.mpr ⟨before, q, after, rfl, hresolve, h⟩
      refine resolveBelow_of_resolveBase hparse (by omega) ?_
      simp only [resolveBase, hbase, if_true, hcomponents]
      rw [if_neg (by omega)]
      exact map_eq_error_iff.mpr hfields

/-! ## All levels -/

lemma reaches_fault_of_resolveBelow {depth : Nat} {p : Parameter} {fault : TypeFault}
    (h : p.resolveBelow depth = .error fault) :
    ∃ last q, Reaches depth p last q ∧ q.type = fault.type ∧ FailsItself last q fault.cause := by
  induction p using induction_on_components generalizing depth with
  | step name type components internalType ih =>
      rcases fault_of_resolveBelow h with ⟨htype, hfails⟩ | ⟨below, q, hstep, hq⟩
      · exact ⟨depth, _, .here depth _, htype, hfails⟩
      · obtain ⟨parameters, hcomponents, hmem⟩ :
            ∃ parameters, components = some parameters ∧ q ∈ parameters := by
          cases hstep with
          | component _ _ _ hcomponents => exact ⟨_, hcomponents, List.mem_append_cons_self⟩
        obtain ⟨last, r, hreaches, hfails⟩ := ih parameters hcomponents q hmem hq
        exact ⟨last, r, .step hstep hreaches, hfails⟩

lemma Reaches.resolveBelow {depth last : Nat} {p q : Parameter} {cause : TypeCause}
    (hreaches : Reaches depth p last q) (hfails : FailsItself last q cause) :
    p.resolveBelow depth = .error ⟨q.type, cause⟩ := by
  induction hreaches with
  | here depth p => exact hfails.resolveBelow
  | step hstep _ ih => exact hstep.resolveBelow (ih hfails)

/-- **Resolution reports the first fault there is.**  A parameter is refused with a written type and
a cause exactly if going down from it, through components of tuples and past components that all
denote types that fit where they stand, leads to a parameter of this type with a fault of its own
for this cause.  The levels that count against the limit are the array dimensions and the tuples
around that parameter, and its own dimensions. -/
theorem resolve_reports_first_fault (p : Parameter) (fault : TypeFault) :
    p.resolve = .error fault ↔
      ∃ depth q, Reaches 0 p depth q ∧ q.type = fault.type ∧ FailsItself depth q fault.cause := by
  refine ⟨reaches_fault_of_resolveBelow, ?_⟩
  rintro ⟨depth, q, hreaches, htype, hfails⟩
  have hresolve := hreaches.resolveBelow hfails
  rwa [htype] at hresolve

/-- The width of an inner component comes before the dimensions of length zero around it, its own
included, and before all that stands after it. -/
example : Parameter.resolve ⟨"orders", "tuple[0]", some [⟨"maker", "address", none, none⟩,
    ⟨"fills", "tuple[]", some [⟨"amounts", "uint7[0]", none, none⟩], none⟩,
    ⟨"proof", "bytes33", none, none⟩], none⟩ = .error ⟨"uint7[0]", .invalidIntegerWidth⟩ := by
  decide +kernel

end Parameter

end ContractInterface

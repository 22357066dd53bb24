import ContractInterface.Proofs.Lookup
import ContractInterface.Proofs.Resolution

/-!
# The types of an entry

The signature of an entry says what its parameters denote.  Functions, events, errors and
constructors come by theirs in ways of their own; `Entry.map_canonical?_signature` is what these
ways have in common, as one equation: the inputs are resolved, then the outputs, and if the entry
has a name its canonical text is that name with the types of the inputs.

So an entry has a signature exactly if all its parameters denote types
(`Entry.exists_signature_iff`), and otherwise the fault is that of the first parameter that denotes
none (`Entry.signature_eq_error_iff`).
-/

namespace ContractInterface

/-! ## Lists of parameters -/

/-- Whether a parameter denotes a type. -/
def Parameter.Resolves (p : Parameter) : Prop := ∃ s, p.resolve = .ok s

/-- Whether a fault is that of the first parameter of a list that denotes no type. -/
def FirstFault (parameters : List Parameter) (fault : TypeFault) : Prop :=
  ∃ before p after, parameters = before ++ p :: after ∧ (∀ q ∈ before, q.Resolves) ∧
    p.resolve = .error fault

lemma exists_resolveFields_iff {parameters : List Parameter} :
    (∃ fields, resolveFields parameters = .ok fields) ↔ ∀ p ∈ parameters, p.Resolves := by
  simp only [resolveFields_eq_ok_iff]
  induction parameters with
  | nil => simp
  | cons p parameters ih =>
      rw [List.forall_mem_cons, ← ih]
      simp only [List.forall₂_cons_left_iff]
      constructor
      · rintro ⟨_, field, fields, hfield, hfields, rfl⟩
        exact ⟨⟨field.2, hfield.2⟩, fields, hfields⟩
      · rintro ⟨⟨s, hs⟩, fields, hfields⟩
        exact ⟨_, (p.name, s), fields, ⟨rfl, hs⟩, hfields, rfl⟩

lemma firstFault_cons_iff {p : Parameter} {parameters : List Parameter} {fault : TypeFault} :
    FirstFault (p :: parameters) fault ↔
      p.resolve = .error fault ∨ p.Resolves ∧ FirstFault parameters fault :=
  exists_first_cons_iff

lemma FirstFault.not_forall_resolves {parameters : List Parameter} {fault : TypeFault}
    (h : FirstFault parameters fault) : ¬∀ p ∈ parameters, p.Resolves := by
  obtain ⟨before, p, after, rfl, -, hp⟩ := h
  intro hresolves
  obtain ⟨s, hs⟩ := hresolves p List.mem_append_cons_self
  rw [hs] at hp
  cases hp

/-- The fault of a list of parameters is the first one in it. -/
lemma resolveFields_eq_error_iff {parameters : List Parameter} {fault : TypeFault} :
    resolveFields parameters = .error fault ↔ FirstFault parameters fault :=
  resolveFieldsBelow_eq_error_iff

lemma firstFault_append_iff {parameters others : List Parameter} {fault : TypeFault} :
    FirstFault (parameters ++ others) fault ↔
      FirstFault parameters fault ∨ (∀ p ∈ parameters, p.Resolves) ∧ FirstFault others fault := by
  induction parameters with
  | nil => simp [FirstFault]
  | cons p parameters ih =>
      rw [List.cons_append, firstFault_cons_iff, firstFault_cons_iff, ih, List.forall_mem_cons]
      tauto

/-! ## Signatures -/

namespace Entry

/-- The parameters for what an entry gives back. -/
def outputs : Entry → List Parameter
  | .function f => f.outputs
  | _ => []

/-- The parameters of an entry, in the order in which they are resolved. -/
def parameters (entry : Entry) : List Parameter := entry.inputs ++ entry.outputs

/-- Whether all parameters of an entry denote types. -/
def Resolves (entry : Entry) : Prop := ∀ p ∈ entry.parameters, p.Resolves

lemma Resolves.inputs {entry : Entry} (h : entry.Resolves) :
    ∃ inputs, resolveFields entry.inputs = .ok inputs :=
  exists_resolveFields_iff.mpr fun p hp => h p (List.mem_append_left _ hp)

lemma Resolves.outputs {entry : Entry} (h : entry.Resolves) : ∀ p ∈ entry.outputs, p.Resolves :=
  fun p hp => h p (List.mem_append_right _ hp)

end Entry

/-- The parameters of an event denote what they do without their flags. -/
lemma map_field_resolveEventFields (inputs : List EventParameter) :
    List.map EventField.field <$> resolveEventFields inputs =
      resolveFields (inputs.map EventParameter.parameter) := by
  induction inputs with
  | nil => rfl
  | cons input inputs ih =>
      rw [List.map_cons, resolveFields, resolveFieldsBelow, ← resolveFields, ← ih,
        resolveEventFields, Parameter.resolve]
      cases input.parameter.resolveBelow 0 with
      | error fault => rfl
      | ok s => cases resolveEventFields inputs <;> rfl

namespace Entry

/-- **What a signature is made of.**  The inputs are resolved first and the outputs next; the
canonical text, if the entry has a name, is made of the name and the inputs. -/
lemma map_canonical?_signature (entry : Entry) :
    Signature.canonical? <$> entry.signature = do
      let inputs ← resolveFields entry.inputs
      let _ ← resolveFields entry.outputs
      return entry.name?.map fun name => canonicalSignature name inputs := by
  cases entry with
  | function f =>
      simp only [signature, Function.signature, inputs, outputs, name?]
      cases resolveFields f.inputs with
      | error fault => rfl
      | ok inputs => cases resolveFields f.outputs <;> rfl
  | event e =>
      simp only [signature, Event.signature, inputs, outputs, name?,
        ← map_field_resolveEventFields]
      cases resolveEventFields e.inputs <;> rfl
  | constructor parameters mutability =>
      simp only [signature, inputs, outputs, name?]
      cases resolveFields parameters <;> rfl
  | error name parameters =>
      simp only [signature, inputs, outputs, name?]
      cases resolveFields parameters <;> rfl
  | fallback | receive => rfl

/-- An entry lacks a signature because of the first of its parameters that denotes no type. -/
lemma signature_eq_error_iff {entry : Entry} {fault : TypeFault} :
    entry.signature = .error fault ↔ FirstFault entry.parameters fault := by
  have hmap : entry.signature = .error fault ↔
      Signature.canonical? <$> entry.signature = .error fault := by
    cases entry.signature <;> simp [Functor.map, Except.map]
  rw [hmap, map_canonical?_signature, parameters, firstFault_append_iff]
  simp only [bind_eq_error_iff, pure, Except.pure, reduceCtorEq, and_false, exists_false, or_false,
    exists_and_right, exists_resolveFields_iff, resolveFields_eq_error_iff]

/-- An entry has a signature exactly if all its parameters denote types. -/
lemma exists_signature_iff {entry : Entry} :
    (∃ signature, entry.signature = .ok signature) ↔ entry.Resolves := by
  rw [Resolves, ← exists_resolveFields_iff]
  have hfaults : ∀ fault, entry.signature = .error fault ↔
      resolveFields entry.parameters = .error fault := fun fault =>
    signature_eq_error_iff.trans resolveFields_eq_error_iff.symm
  cases hsignature : entry.signature with
  | error fault => simp [(hfaults fault).mp hsignature]
  | ok signature =>
      cases hfields : resolveFields entry.parameters with
      | error fault => simp [(hfaults fault).mpr hfields] at hsignature
      | ok fields => simp

/-- A member whose parameters denote types has a canonical text, which is its name with the types of
its inputs; no other entry has one. -/
lemma hasCanonical_iff_exists {entry : Entry} {kind : MemberKind} {text : String} :
    entry.HasCanonical kind text ↔
      entry.memberKind? = some kind ∧ (∀ p ∈ entry.outputs, p.Resolves) ∧
        ∃ name inputs, entry.name? = some name ∧ resolveFields entry.inputs = .ok inputs ∧
          text = canonicalSignature name inputs := by
  have htext : (∃ signature, entry.signature = .ok signature ∧ signature.canonical? = some text) ↔
      Signature.canonical? <$> entry.signature = .ok (some text) := map_eq_ok_iff.symm
  rw [HasCanonical, htext, map_canonical?_signature, bind_eq_ok_iff]
  refine and_congr_right fun _ => ?_
  constructor
  · rintro ⟨inputs, hinputs, hrest⟩
    obtain ⟨outputs, houtputs, hpure⟩ := bind_eq_ok_iff.mp hrest
    obtain ⟨name, hname, rfl⟩ := Option.map_eq_some_iff.mp (Except.ok.inj hpure)
    exact ⟨exists_resolveFields_iff.mp ⟨outputs, houtputs⟩, name, inputs, hname, hinputs, rfl⟩
  · rintro ⟨houtputs, name, inputs, hname, hinputs, rfl⟩
    obtain ⟨outputs, houtputs⟩ := exists_resolveFields_iff.mpr houtputs
    refine ⟨inputs, hinputs, bind_eq_ok_iff.mpr ⟨outputs, houtputs, ?_⟩⟩
    rw [hname]
    rfl

lemma exists_hasCanonical {entry : Entry} {kind : MemberKind} {name : String}
    (hresolves : entry.Resolves) (hmember : entry.isMember kind name = true) :
    ∃ text, entry.HasCanonical kind text := by
  obtain ⟨hkind, hname⟩ := isMember_iff.mp hmember
  obtain ⟨inputs, hinputs⟩ := hresolves.inputs
  exact ⟨canonicalSignature name inputs, hasCanonical_iff_exists.mpr
    ⟨hkind, hresolves.outputs, name, inputs, hname, hinputs, rfl⟩⟩

end Entry

end ContractInterface

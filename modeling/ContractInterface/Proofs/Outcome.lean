import ContractInterface.Trace
import Mathlib.Data.List.Forall2
import Mathlib.Tactic.Lemma

/-!
# Outcomes of sequences of steps

What a sequence of steps comes to, told from what its steps come to.  Every statement about the
outcome of a lookup or a preparation takes the sequence apart with these, one step at a time.
-/

namespace ContractInterface

/-- Two steps succeed exactly if the first does and the second does with its result. -/
lemma bind_eq_ok_iff {step : Except ε α} {next : α → Except ε β} {b : β} :
    (step >>= next) = .ok b ↔ ∃ a, step = .ok a ∧ next a = .ok b := by
  cases step <;> simp [bind, Except.bind]

/-- Two steps fail exactly if the first does, or the second does with its result. -/
lemma bind_eq_error_iff {step : Except ε α} {next : α → Except ε β} {e : ε} :
    (step >>= next) = .error e ↔
      step = .error e ∨ ∃ a, step = .ok a ∧ next a = .error e := by
  cases step <;> simp [bind, Except.bind]

/-- A check and what follows it succeed exactly if both do. -/
lemma check_bind_eq_ok_iff {step : Except ε Unit} {next : Unit → Except ε β} {b : β} :
    (step >>= next) = .ok b ↔ step = .ok () ∧ next () = .ok b := by
  cases step <;> simp [bind, Except.bind]

/-- A check and what follows it fail exactly if the check does, or what follows it. -/
lemma check_bind_eq_error_iff {step : Except ε Unit} {next : Unit → Except ε β} {e : ε} :
    (step >>= next) = .error e ↔ step = .error e ∨ step = .ok () ∧ next () = .error e := by
  cases step <;> simp [bind, Except.bind]

lemma map_eq_ok_iff {f : α → β} {x : Except ε α} {b : β} :
    f <$> x = .ok b ↔ ∃ a, x = .ok a ∧ f a = b := by
  cases x <;> simp [Functor.map, Except.map]

lemma map_eq_error_iff {f : α → β} {x : Except ε α} {e : ε} :
    f <$> x = .error e ↔ x = .error e := by
  cases x <;> simp [Functor.map, Except.map]

lemma exists_ok_of_map {f : α → β} {x : Except ε α} (h : ∃ b, f <$> x = .ok b) :
    ∃ a, x = .ok a := by
  obtain ⟨b, hb⟩ := h
  obtain ⟨a, ha, -⟩ := map_eq_ok_iff.mp hb
  exact ⟨a, ha⟩

/-- Outcomes that are equal once a function is applied are the same fault, or results at which the
function is equal. -/
lemma cases_of_map_eq_map {f : α → β} {x y : Except ε α} (h : f <$> x = f <$> y) :
    (∃ e, x = .error e ∧ y = .error e) ∨ ∃ a b, x = .ok a ∧ y = .ok b ∧ f a = f b := by
  cases x <;> cases y <;> simp_all [Functor.map, Except.map]

lemma exists_ok_of_isOk {x : Except ε α} (h : x.isOk = true) : ∃ a, x = .ok a := by
  cases x with
  | error e => cases h
  | ok a => exact ⟨a, rfl⟩

lemma exists_error_of_isOk_eq_false {x : Except ε α} (h : x.isOk = false) :
    ∃ e, x = .error e := by
  cases x with
  | error e => exact ⟨e, rfl⟩
  | ok a => cases h

/-- Steps for all items of a list succeed exactly if each does. -/
lemma mapM_eq_ok_iff {decode : α → Except ε β} {items : List α} {values : List β} :
    items.mapM decode = .ok values ↔
      List.Forall₂ (fun item value => decode item = .ok value) items values := by
  induction items generalizing values with
  | nil => simp [pure, Except.pure, eq_comm]
  | cons item items ih =>
      rw [List.mapM_cons, bind_eq_ok_iff, List.forall₂_cons_left_iff]
      constructor
      · rintro ⟨value, hvalue, hrest⟩
        obtain ⟨rest, hvalues, hresult⟩ := bind_eq_ok_iff.mp hrest
        cases hresult
        exact ⟨value, rest, hvalue, ih.mp hvalues, rfl⟩
      · rintro ⟨value, rest, hvalue, hvalues, rfl⟩
        exact ⟨value, hvalue, bind_eq_ok_iff.mpr ⟨rest, ih.mpr hvalues, rfl⟩⟩

/-- The first member that fails is the first of all, or, if that one passes, the first that fails
after it. -/
lemma exists_first_cons_iff {passes fails : α → Prop} {first : α} {rest : List α} :
    (∃ before member after, first :: rest = before ++ member :: after ∧
        (∀ earlier ∈ before, passes earlier) ∧ fails member) ↔
      fails first ∨ passes first ∧ ∃ before member after, rest = before ++ member :: after ∧
        (∀ earlier ∈ before, passes earlier) ∧ fails member := by
  constructor
  · rintro ⟨before, member, after, hsplit, hbefore, hmember⟩
    cases before with
    | nil =>
        obtain ⟨rfl, -⟩ := List.cons.inj hsplit
        exact .inl hmember
    | cons passed before =>
        obtain ⟨rfl, hrest⟩ := List.cons.inj hsplit
        obtain ⟨hfirst, hothers⟩ := List.forall_mem_cons.mp hbefore
        exact .inr ⟨hfirst, before, member, after, hrest, hothers, hmember⟩
  · rintro (hfirst | ⟨hfirst, before, member, after, rfl, hbefore, hmember⟩)
    · exact ⟨[], first, rest, rfl, List.forall_mem_nil _, hfirst⟩
    · exact ⟨first :: before, member, after, rfl, List.forall_mem_cons.mpr ⟨hfirst, hbefore⟩,
        hmember⟩

lemma asFault_eq_ok_iff {x : Except TypeFault α} {a : α} : asFault x = .ok a ↔ x = .ok a := by
  cases x <;> simp [asFault]

lemma asFault_eq_error_iff {x : Except TypeFault α} {fault : Fault} :
    asFault x = .error fault ↔ ∃ cause, x = .error cause ∧ fault = .unresolvableType cause := by
  cases x <;> simp [asFault, eq_comm]

namespace Traced

lemma outcome_bind_eq_ok_iff {x : Traced α} {f : α → Traced β} {b : β} :
    (x >>= f).outcome = .ok b ↔ ∃ a, x.outcome = .ok a ∧ (f a).outcome = .ok b := by
  rw [outcome_bind]
  cases x.outcome <;> simp [Except.bind]

lemma outcome_bind_eq_error_iff {x : Traced α} {f : α → Traced β} {fault : Fault} :
    (x >>= f).outcome = .error fault ↔
      x.outcome = .error fault ∨ ∃ a, x.outcome = .ok a ∧ (f a).outcome = .error fault := by
  rw [outcome_bind]
  cases x.outcome <;> simp [Except.bind]

lemma outcome_mapFault_eq_ok_iff {x : Traced α} {f : Fault → Fault} {a : α} :
    (x.mapFault f).outcome = .ok a ↔ x.outcome = .ok a := by
  rw [mapFault]
  cases x.outcome <;> simp

/-- Another fault takes the place of the fault, and of nothing else. -/
lemma outcome_mapFault_eq_error_iff {x : Traced α} {f : Fault → Fault} {fault : Fault} :
    (x.mapFault f).outcome = .error fault ↔
      ∃ source, x.outcome = .error source ∧ fault = f source := by
  rw [mapFault]
  cases x.outcome <;> simp [eq_comm]

end Traced

end ContractInterface

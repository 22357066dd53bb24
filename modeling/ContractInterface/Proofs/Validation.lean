import ContractInterface.Proofs.Lookup

/-!
# What validation says

Validation goes through the entries once and keeps the kinds and canonical texts it has met.  One
step of it either refuses an entry, because the entry has no signature or repeats a member that was
met (`Entry.RefusedAfter`), or goes on with what the entry adds to the members met
(`Interface.validateAfter_step`).

What a run comes to does not depend on the way it goes.  An interface is valid exactly if every
entry has a signature and no two members of a kind have the same canonical text
(`Interface.validate_eq_ok_iff`); if it is not, the fault is that of the first entry that is refused
after those before it (`Interface.validate_eq_error_iff`).
-/

namespace ContractInterface

namespace Entry

/-- Whether two entries are not members of one kind with one canonical text. -/
def Distinct (entry other : Entry) : Prop :=
  ∀ kind text, entry.HasCanonical kind text → ¬other.HasCanonical kind text

lemma hasCanonical_iff {entry : Entry} {signature : Signature} {kind : MemberKind} {text : String}
    (h : entry.signature = .ok signature) :
    entry.HasCanonical kind text ↔
      entry.memberKind? = some kind ∧ signature.canonical? = some text := by
  simp [HasCanonical, h]

/-- A member has one kind and one canonical text. -/
lemma HasCanonical.unique {entry : Entry} {kind kind' : MemberKind} {text text' : String}
    (h : entry.HasCanonical kind text) (h' : entry.HasCanonical kind' text') :
    kind = kind' ∧ text = text' := by
  obtain ⟨hkind, signature, hsignature, htext⟩ := h
  obtain ⟨hkind', htext'⟩ := (hasCanonical_iff hsignature).mp h'
  rw [hkind, Option.some.injEq] at hkind'
  rw [htext, Option.some.injEq] at htext'
  exact ⟨hkind', htext'⟩

/-- Why an entry is refused after the members met so far. -/
inductive RefusedAfter (met : MemberKind → String → Prop) (entry : Entry) : Fault → Prop
  | unresolvable {cause : TypeFault} (hsignature : entry.signature = .error cause) :
      RefusedAfter met entry (.unresolvableType cause)
  | repeated {kind : MemberKind} {text : String} (hcanonical : entry.HasCanonical kind text)
      (hmet : met kind text) : RefusedAfter met entry (.duplicateSignature text)

/-- An entry is refused for one reason only. -/
lemma RefusedAfter.unique {met : MemberKind → String → Prop} {entry : Entry} {fault fault' : Fault}
    (h : entry.RefusedAfter met fault) (h' : entry.RefusedAfter met fault') : fault = fault' := by
  -- An entry without a signature has no canonical text to repeat.
  have hexclusive : ∀ {cause kind text}, entry.signature = .error cause →
      ¬entry.HasCanonical kind text := by
    rintro cause kind text herror ⟨-, signature, hok, -⟩
    rw [herror] at hok
    cases hok
  cases h with
  | unresolvable hsignature =>
      cases h' with
      | unresolvable hsignature' =>
          rw [hsignature, Except.error.injEq] at hsignature'
          rw [hsignature']
      | repeated hcanonical _ => exact absurd hcanonical (hexclusive hsignature)
  | repeated hcanonical _ =>
      cases h' with
      | unresolvable hsignature => exact absurd hcanonical (hexclusive hsignature)
      | repeated hcanonical' _ => rw [(hcanonical.unique hcanonical').2]

/-- An entry that is not refused has a signature and repeats no member. -/
lemma not_refusedAfter_iff {met : MemberKind → String → Prop} {entry : Entry} :
    (∀ fault, ¬entry.RefusedAfter met fault) ↔
      (∃ signature, entry.signature = .ok signature) ∧
        ∀ kind text, entry.HasCanonical kind text → ¬met kind text := by
  constructor
  · intro h
    refine ⟨?_, fun kind text hcanonical hmet => h _ (.repeated hcanonical hmet)⟩
    cases hsignature : entry.signature with
    | error cause => exact absurd (.unresolvable hsignature) (h _)
    | ok signature => exact ⟨signature, rfl⟩
  · rintro ⟨⟨signature, hsignature⟩, hnew⟩ fault hrefused
    cases hrefused with
    | unresolvable herror =>
        rw [hsignature] at herror
        cases herror
    | repeated hcanonical hmet => exact hnew _ _ hcanonical hmet

end Entry

namespace Interface

/-! ## One step -/

/-- **What one step of validation does.**  It refuses the entry, or goes on after the members met
so far and the entry, whatever entries come next. -/
lemma validateAfter_step (seen : List (MemberKind × String)) (entry : Entry) :
    (∃ fault, entry.RefusedAfter (fun kind text => (kind, text) ∈ seen) fault ∧
        ∀ rest, validateAfter seen (entry :: rest) = .error fault) ∨
      (∀ fault, ¬entry.RefusedAfter (fun kind text => (kind, text) ∈ seen) fault) ∧
        ∃ seen', (∀ kind text, (kind, text) ∈ seen' ↔
            (kind, text) ∈ seen ∨ entry.HasCanonical kind text) ∧
          ∀ rest, validateAfter seen (entry :: rest) = validateAfter seen' rest := by
  cases hsignature : entry.signature with
  | error cause =>
      refine .inl ⟨_, .unresolvable hsignature, fun rest => ?_⟩
      rw [validateAfter, hsignature]
  | ok signature =>
      by_cases hnamed : ∃ kind text, entry.HasCanonical kind text
      · obtain ⟨kind, text, hcanonical⟩ := hnamed
        obtain ⟨hkind, htext⟩ := (Entry.hasCanonical_iff hsignature).mp hcanonical
        have hstep : ∀ rest, validateAfter seen (entry :: rest) =
            if (kind, text) ∈ seen then .error (.duplicateSignature text)
            else validateAfter ((kind, text) :: seen) rest := by
          intro rest
          simp [validateAfter, hsignature, hkind, htext]
        have hentry : ∀ k t, entry.HasCanonical k t ↔ (k, t) = (kind, text) := by
          intro k t
          rw [Entry.hasCanonical_iff hsignature, hkind, htext]
          simp [eq_comm]
        by_cases hseen : (kind, text) ∈ seen
        · refine .inl ⟨_, .repeated hcanonical hseen, fun rest => ?_⟩
          rw [hstep, if_pos hseen]
        · refine .inr ⟨?_, (kind, text) :: seen, fun k t => ?_, fun rest => ?_⟩
          · refine Entry.not_refusedAfter_iff.mpr ⟨⟨signature, hsignature⟩, fun k t h => ?_⟩
            rwa [(hentry k t).mp h]
          · rw [hentry, List.mem_cons, or_comm]
          · rw [hstep, if_neg hseen]
      · have hentry : ∀ k t, ¬entry.HasCanonical k t := fun k t h => hnamed ⟨k, t, h⟩
        refine .inr ⟨?_, seen, fun k t => ?_, fun rest => ?_⟩
        · exact Entry.not_refusedAfter_iff.mpr
            ⟨⟨signature, hsignature⟩, fun k t h => absurd h (hentry k t)⟩
        · simp [hentry]
        · rw [validateAfter, hsignature]
          dsimp only
          split
          · next kind text hkind htext =>
              exact absurd ((Entry.hasCanonical_iff hsignature).mpr ⟨hkind, htext⟩)
                (hentry kind text)
          · rfl

/-! ## A run -/

/-- Entries are valid after some members exactly if they have signatures, repeat none of those
members and differ among themselves. -/
lemma validateAfter_eq_ok_iff {seen : List (MemberKind × String)} {entries : List Entry} :
    validateAfter seen entries = .ok () ↔
      (∀ entry ∈ entries, ∃ signature, entry.signature = .ok signature) ∧
        (∀ entry ∈ entries, ∀ kind text, entry.HasCanonical kind text → (kind, text) ∉ seen) ∧
        entries.Pairwise Entry.Distinct := by
  induction entries generalizing seen with
  | nil => simp [validateAfter]
  | cons entry rest ih =>
      rw [List.forall_mem_cons, List.forall_mem_cons, List.pairwise_cons]
      rcases validateAfter_step seen entry with
        ⟨fault, hrefused, hstep⟩ | ⟨hpassed, seen', hseen', hstep⟩
      · rw [hstep]
        refine iff_of_false nofun ?_
        rintro ⟨⟨hsignature, -⟩, ⟨hnew, -⟩, -⟩
        exact Entry.not_refusedAfter_iff.mpr ⟨hsignature, hnew⟩ fault hrefused
      · obtain ⟨hsignature, hnew⟩ := Entry.not_refusedAfter_iff.mp hpassed
        -- The rest repeats none of the members met then: neither those before nor the entry.
        have hrest : (∀ other ∈ rest, ∀ kind text, other.HasCanonical kind text →
              (kind, text) ∉ seen') ↔
            (∀ other ∈ rest, ∀ kind text, other.HasCanonical kind text → (kind, text) ∉ seen) ∧
              ∀ other ∈ rest, entry.Distinct other := by
          simp only [hseen', not_or, Entry.Distinct]
          constructor
          · intro h
            exact ⟨fun other hmem kind text hother => (h other hmem kind text hother).1,
              fun other hmem kind text hentry hother => (h other hmem kind text hother).2 hentry⟩
          · rintro ⟨hothers, hdistinct⟩ other hmem kind text hother
            exact ⟨hothers other hmem kind text hother,
              fun hentry => hdistinct other hmem kind text hentry hother⟩
        rw [hstep, ih, hrest]
        constructor
        · rintro ⟨hsignatures, ⟨hothers, hdistinct⟩, hpairwise⟩
          exact ⟨⟨hsignature, hsignatures⟩, ⟨hnew, hothers⟩, hdistinct, hpairwise⟩
        · rintro ⟨⟨-, hsignatures⟩, ⟨-, hothers⟩, hdistinct, hpairwise⟩
          exact ⟨hsignatures, ⟨hothers, hdistinct⟩, hpairwise⟩

/-- Validation fails at the first entry that is refused after the members met so far and those of
the entries before it. -/
lemma validateAfter_eq_error_iff {seen : List (MemberKind × String)} {entries : List Entry}
    {fault : Fault} :
    validateAfter seen entries = .error fault ↔
      ∃ before entry after, entries = before ++ entry :: after ∧
        validateAfter seen before = .ok () ∧
        entry.RefusedAfter (fun kind text => (kind, text) ∈ seen ∨
          ∃ earlier ∈ before, earlier.HasCanonical kind text) fault := by
  induction entries generalizing seen with
  | nil => simp [validateAfter]
  | cons first rest ih =>
      rcases validateAfter_step seen first with
        ⟨cause, hrefused, hstep⟩ | ⟨hpassed, seen', hseen', hstep⟩
      · rw [hstep]
        constructor
        · rintro ⟨⟩
          exact ⟨[], first, rest, rfl, rfl, by simpa using hrefused⟩
        · rintro ⟨before, entry, after, hsplit, hvalid, hentry⟩
          cases before with
          | nil =>
              obtain ⟨rfl, -⟩ := List.cons.inj hsplit
              rw [hrefused.unique (by simpa using hentry)]
          | cons _ before =>
              obtain ⟨rfl, -⟩ := List.cons.inj hsplit
              rw [hstep] at hvalid
              cases hvalid
      · -- What is met after the first entry and others is what is met after all of them.
        have hmet : ∀ before : List Entry,
            (fun kind text => (kind, text) ∈ seen' ∨
              ∃ earlier ∈ before, earlier.HasCanonical kind text) =
            fun kind text => (kind, text) ∈ seen ∨
              ∃ earlier ∈ first :: before, earlier.HasCanonical kind text := by
          intro before
          funext kind text
          simp [hseen', or_assoc]
        rw [hstep, ih]
        constructor
        · rintro ⟨before, entry, after, rfl, hvalid, hentry⟩
          refine ⟨first :: before, entry, after, rfl, ?_, ?_⟩
          · rw [hstep, hvalid]
          · rwa [← hmet]
        · rintro ⟨before, entry, after, hsplit, hvalid, hentry⟩
          cases before with
          | nil =>
              obtain ⟨rfl, -⟩ := List.cons.inj hsplit
              exact absurd (by simpa using hentry) (hpassed fault)
          | cons _ before =>
              obtain ⟨rfl, rfl⟩ := List.cons.inj hsplit
              rw [hstep] at hvalid
              exact ⟨before, entry, after, rfl, hvalid, by rwa [hmet]⟩

/-- **Validity.**  An interface is valid exactly if every entry has a signature and no two of them
are members of one kind with one canonical text. -/
lemma validate_eq_ok_iff {interface : Interface} :
    interface.validate = .ok () ↔
      (∀ entry ∈ interface.entries, ∃ signature, entry.signature = .ok signature) ∧
        interface.entries.Pairwise Entry.Distinct := by
  simp [validate, validateAfter_eq_ok_iff]

/-- An interface that is not valid has entries that are, followed by one that is refused after
them. -/
lemma validate_eq_error_iff {interface : Interface} {fault : Fault} :
    interface.validate = .error fault ↔
      ∃ before entry after, interface.entries = before ++ entry :: after ∧
        (Interface.mk before).validate = .ok () ∧
        entry.RefusedAfter (fun kind text => ∃ earlier ∈ before, earlier.HasCanonical kind text)
          fault := by
  simp [validate, validateAfter_eq_error_iff]

end Interface

end ContractInterface

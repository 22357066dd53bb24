import ContractInterface.Proofs.Declaration

/-!
# Narrowing is sound and stable

An output about which nothing is known takes on whatever is expected of it; a known one can only be
confirmed.  So an output is settled by the first known one that is expected: from then on it does
not change, and only what is the same up to names can still be expected of it
(`Output.narrow_sound_and_stable`).

Two facts carry this.  Outputs that are the same up to names compare alike with every other
(`Output.sameType_congr_left`), so it does not matter which of them is compared with what is
expected next; and an unknown output is the same as no known one, so it is open to everything on the
left of a narrowing only.
-/

namespace ContractInterface

namespace Output

/-! ## What narrowing gives -/

/-- An unknown output is the same as no known one. -/
lemma isUnknown_eq_of_sameType {output output' : Output} (h : output.sameType output' = true) :
    output.isUnknown = output'.isUnknown := by
  cases output <;> cases output' <;> simp_all [sameType, isUnknown]

/-- An unknown output becomes the expected one, and a known one stays if it is as expected. -/
lemma narrow_eq_some_iff {output expected narrowed : Output} :
    output.narrow expected = some narrowed ↔
      output.isUnknown = true ∧ narrowed = expected ∨
        output.isUnknown = false ∧ narrowed = output ∧ output.sameType expected = true := by
  cases output <;> simp [narrow, isUnknown, and_comm, eq_comm (b := narrowed)]

lemma narrow_eq_some_iff_of_known {output : Output} (hknown : output.isUnknown = false)
    {expected narrowed : Output} :
    output.narrow expected = some narrowed ↔
      narrowed = output ∧ output.sameType expected = true := by
  simp [narrow_eq_some_iff, hknown]

/-- A known output meets a list of expectations, one after the other, exactly if it is as each of
them says, and it is still the same then. -/
lemma foldlM_narrow_eq_some_iff {output : Output} (hknown : output.isUnknown = false)
    {expectations : List Output} {narrowed : Output} :
    expectations.foldlM narrow output = some narrowed ↔
      narrowed = output ∧ ∀ expected ∈ expectations, output.sameType expected = true := by
  induction expectations with
  | nil => simp [eq_comm (b := narrowed)]
  | cons expected expectations ih =>
      rw [List.foldlM_cons, Option.bind_eq_bind, Option.bind_eq_some_iff, List.forall_mem_cons]
      constructor
      · rintro ⟨middle, hfirst, hrest⟩
        -- The output comes out of the first narrowing as it was, so the others start from it too.
        obtain ⟨rfl, hsame⟩ := (narrow_eq_some_iff_of_known hknown).mp hfirst
        obtain ⟨hstays, hsames⟩ := ih.mp hrest
        exact ⟨hstays, hsame, hsames⟩
      · rintro ⟨hstays, hsame, hsames⟩
        exact ⟨output, narrow_of_sameType hsame, ih.mpr ⟨hstays, hsames⟩⟩

lemma exists_narrow_eq_some_iff {output expected : Output} :
    (∃ narrowed, output.narrow expected = some narrowed) ↔
      output.isUnknown = true ∨ output.sameType expected = true := by
  cases hknown : output.isUnknown <;> simp [narrow_eq_some_iff, hknown]

/-- What is narrowed is as expected. -/
lemma sameType_of_narrow {output expected narrowed : Output}
    (h : output.narrow expected = some narrowed) : narrowed.sameType expected = true := by
  rcases narrow_eq_some_iff.mp h with ⟨-, rfl⟩ | ⟨-, rfl, hsame⟩
  · exact sameType_refl narrowed
  · exact hsame

lemma isUnknown_iff_of_narrow {output expected narrowed : Output}
    (h : output.narrow expected = some narrowed) :
    narrowed.isUnknown = true ↔ output.isUnknown = true ∧ expected.isUnknown = true := by
  rcases narrow_eq_some_iff.mp h with ⟨hunknown, rfl⟩ | ⟨hknown, rfl, -⟩
  · simp [hunknown]
  · simp [hknown]

/-- **Narrowing is sound and stable.**  An output can be narrowed exactly if it is unknown or is as
expected already.  What it is narrowed to is as expected up to names; it is unknown only if both
are; it has the names of the output if this is known, and else those that are expected; and it is
narrowed to itself if the same is expected again.  Once a known output has been expected, nothing
can change any more: what is expected next must be the same as what was expected first, and the
result stays as it is, be it one more expectation or any number of them. -/
theorem narrow_sound_and_stable (output expected : Output) :
    ((∃ narrowed, output.narrow expected = some narrowed) ↔
        output.isUnknown = true ∨ output.sameType expected = true) ∧
      ∀ narrowed, output.narrow expected = some narrowed →
        narrowed.sameType expected = true ∧
        (narrowed.isUnknown = true ↔ output.isUnknown = true ∧ expected.isUnknown = true) ∧
        (output.isUnknown = false → narrowed = output) ∧
        (output.isUnknown = true → narrowed = expected) ∧
        narrowed.narrow expected = some narrowed ∧
        (expected.isUnknown = false →
          (∀ next result, narrowed.narrow next = some result ↔
              result = narrowed ∧ expected.sameType next = true) ∧
            ∀ (expectations : List Output) result,
              expectations.foldlM narrow narrowed = some result ↔
                result = narrowed ∧ ∀ next ∈ expectations, expected.sameType next = true) := by
  refine ⟨exists_narrow_eq_some_iff, fun narrowed h => ?_⟩
  have hsame : narrowed.sameType expected = true := sameType_of_narrow h
  refine ⟨hsame, isUnknown_iff_of_narrow h, ?_, ?_, narrow_of_sameType hsame, fun hexpected => ?_⟩
  · intro hknown
    exact ((narrow_eq_some_iff_of_known hknown).mp h).1
  · intro hunknown
    simpa [narrow_eq_some_iff, hunknown] using h
  · have hknown : narrowed.isUnknown = false := (isUnknown_eq_of_sameType hsame).trans hexpected
    constructor
    · intro next result
      rw [narrow_eq_some_iff_of_known hknown, sameType_congr_left hsame]
    · intro expectations result
      simp only [foldlM_narrow_eq_some_iff hknown, sameType_congr_left hsame]

/-- A price and a lot, which is open or not; what the results are called is left open. -/
def offer (price lot isOpen : String) : Output :=
  .record [(price, .uint 256), (lot, .tuple [(isOpen, .bool)])]

/-- An offer with names keeps them where none are expected; an unknown output that was narrowed to
an offer without names gets none from later expectations, and cannot become unknown again. -/
theorem narrow_sound_and_stable_offer :
    let named := offer "price" "lot" "open"
    let bare := offer "" "" ""
    (named.narrow bare = some named ∧ named.sameType bare = true ∧
        ∀ next result, named.narrow next = some result ↔
          result = named ∧ bare.sameType next = true) ∧
      unknown.narrow bare = some bare ∧ bare.isUnknown = false ∧
        [named, bare, offer "lot" "" "price"].foldlM narrow bare = some bare ∧
        ∀ result, [named, unknown].foldlM narrow bare ≠ some result := by
  intro named bare
  have hnamed : named.narrow bare = some named := rfl
  have hbare : unknown.narrow bare = some bare := rfl
  have hknown : bare.isUnknown = false := rfl
  obtain ⟨hsame, -, -, -, -, hsettled⟩ := (narrow_sound_and_stable named bare).2 named hnamed
  obtain ⟨-, -, -, -, -, hsettled'⟩ := (narrow_sound_and_stable unknown bare).2 bare hbare
  obtain ⟨-, hrun⟩ := hsettled' hknown
  refine ⟨⟨hnamed, hsame, (hsettled hknown).1⟩, hbare, hknown, ?_, fun result h => ?_⟩
  · exact (hrun _ _).mpr ⟨rfl, by simp [named, bare, offer, sameType, AbiType.sameFields,
      AbiType.sameType]⟩
  · have hunknown := ((hrun _ _).mp h).2 unknown (by simp)
    cases hunknown

end Output

end ContractInterface

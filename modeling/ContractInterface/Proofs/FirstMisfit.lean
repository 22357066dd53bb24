import ContractInterface.Proofs.Inhabitation

/-!
# Where a value first fails its type

A check that fails says where: its `Mismatch` has a path, what was expected at its end and what was
found there.  This module says what such a report is worth, in terms that know nothing of paths
that are put together on the way back from a failure.

* `FailsItself v s` is a failure of a value at its own level, before its parts are looked at;
* `LeadsTo v s step w t` is one step down, to a part and the type it is held to, past parts that all
  pass their checks;
* `Reaches` is any number of such steps, and `Blames` says what is wrong at the end: the place
  itself, a component that a record lacks, or a key that names no component.

The report of a failed check is what is found that way (`AbiType.check_reports_first_misfit`).  The
three loops of the check, over the items of an array, the items of a tuple and the components that a
record is to have, stop at their first failure in the same way, which is said once for all of them
in `walk_eq_error_iff`.
-/

namespace ContractInterface

/-! ## Failures, and the way to them -/

/-- How a value fails a type at its own level, whatever its parts are. -/
inductive FailsItself : Value → AbiType → Prop
  | leaf {v : Value} {s : AbiType} (hs : s.isLeaf = true) (h : ¬Inhabits v s) : FailsItself v s
  | notArray {v : Value} {element : AbiType} {extent : Extent} (h : ∀ items, v ≠ .array items) :
      FailsItself v (.array element extent)
  | extent {items : List Value} {element : AbiType} {extent : Extent}
      (h : extent.admits items.length = false) : FailsItself (.array items) (.array element extent)
  | notTuple {v : Value} {fields : List Field} (htuple : ∀ items, v ≠ .tuple items)
      (hrecord : ∀ entries, v ≠ .record entries) : FailsItself v (.tuple fields)
  | length {items : List Value} {fields : List Field} (h : items.length ≠ fields.length) :
      FailsItself (.tuple items) (.tuple fields)
  /-- A record is matched by names, which all components have to have. -/
  | unnamed {entries : List (String × Value)} {fields : List Field} {field : Field}
      (hfield : field ∈ fields) (h : field.1 = "") : FailsItself (.record entries) (.tuple fields)

/-- Whether a record has an entry for a component: the first one under its name, which passes the
check. -/
def HasComponent (entries : List (String × Value)) (field : Field) : Prop :=
  ∃ v, entries.lookup field.1 = some v ∧ field.2.check v = .ok ()

/-- A step from a value and its type to a part and the type of the part.  The value does not fail by
itself, and every part before this one passes its check. -/
inductive LeadsTo : Value → AbiType → Step → Value → AbiType → Prop
  | item {items before after : List Value} {item : Value} {element : AbiType} {extent : Extent}
      (hextent : extent.admits items.length = true) (hitems : items = before ++ item :: after)
      (hbefore : ∀ earlier ∈ before, element.check earlier = .ok ()) :
      LeadsTo (.array items) (.array element extent) (.item before.length) item element
  | component {items : List Value} {fields : List Field} {before after : List (Value × Field)}
      {item : Value} {field : Field} (hlength : items.length = fields.length)
      (hparts : items.zip fields = before ++ (item, field) :: after)
      (hbefore : ∀ earlier ∈ before, earlier.2.2.check earlier.1 = .ok ()) :
      LeadsTo (.tuple items) (.tuple fields) (.component before.length) item field.2
  | entry {entries : List (String × Value)} {fields before after : List Field} {field : Field}
      {value : Value} (hnamed : ∀ other ∈ fields, other.1 ≠ "")
      (hfields : fields = before ++ field :: after)
      (hbefore : ∀ earlier ∈ before, HasComponent entries earlier)
      (hvalue : entries.lookup field.1 = some value) :
      LeadsTo (.record entries) (.tuple fields) (.entry field.1) value field.2

/-- Steps one after another. -/
inductive Reaches : Value → AbiType → List Step → Value → AbiType → Prop
  | here (v : Value) (s : AbiType) : Reaches v s [] v s
  | step {v w x : Value} {s t u : AbiType} {step : Step} {path : List Step}
      (hstep : LeadsTo v s step w t) (hrest : Reaches w t path x u) :
      Reaches v s (step :: path) x u

/-- What is wrong with a value and its type, as what is expected and what is found, and at which of
its keys, if it is not wrong as a whole. -/
inductive Blames : Value → AbiType → List Step → String → String → Prop
  | whole {v : Value} {s : AbiType} (h : FailsItself v s) :
      Blames v s [] s.canonical v.describe
  | missing {entries : List (String × Value)} {fields before after : List Field} {field : Field}
      (hnamed : ∀ other ∈ fields, other.1 ≠ "") (hfields : fields = before ++ field :: after)
      (hbefore : ∀ earlier ∈ before, HasComponent entries earlier)
      (hmissing : ∀ entry ∈ entries, entry.1 ≠ field.1) :
      Blames (.record entries) (.tuple fields) [.entry field.1] field.2.canonical "nothing"
  /-- A key that names no component counts only once all components are there and fit. -/
  | stray {entries before after : List (String × Value)} {fields : List Field} {key : String}
      {value : Value} (hnamed : ∀ field ∈ fields, field.1 ≠ "")
      (hfields : ∀ field ∈ fields, HasComponent entries field)
      (hentries : entries = before ++ (key, value) :: after)
      (hbefore : ∀ earlier ∈ before, ∃ field ∈ fields, field.1 = earlier.1)
      (hkey : ∀ field ∈ fields, field.1 ≠ key) :
      Blames (.record entries) (.tuple fields) [.entry key] "no such field" value.describe

/-! ## Loops that stop at a failure -/

/-- What visits the members of a list in order and stops at the first failure fails with the visit
of some member, after visits to all members before it that pass. -/
lemma walk_eq_error_iff {α ε : Type} (walk : Nat → List α → Except ε Unit)
    (visit : Nat → α → Except ε Unit) {passes : α → Prop}
    (hnil : ∀ index, walk index [] = .ok ())
    (hcons : ∀ index first rest,
      walk index (first :: rest) = visit index first >>= fun _ => walk (index + 1) rest)
    (hpasses : ∀ index member, visit index member = .ok () ↔ passes member) (index : Nat)
    {members : List α} {e : ε} :
    walk index members = .error e ↔
      ∃ before member after, members = before ++ member :: after ∧
        (∀ earlier ∈ before, passes earlier) ∧
        visit (index + before.length) member = .error e := by
  induction members generalizing index with
  | nil => simp [hnil]
  | cons first rest ih =>
      rw [hcons, bind_eq_error_iff]
      constructor
      · rintro (hfirst | ⟨_, hfirst, hrest⟩)
        · exact ⟨[], first, rest, rfl, List.forall_mem_nil _, hfirst⟩
        · obtain ⟨before, member, after, rfl, hbefore, hmember⟩ := (ih (index + 1)).mp hrest
          refine ⟨first :: before, member, after, rfl,
            List.forall_mem_cons.mpr ⟨(hpasses index first).mp hfirst, hbefore⟩, ?_⟩
          rwa [List.length_cons, ← Nat.add_assoc, Nat.add_right_comm]
      · rintro ⟨before, member, after, hsplit, hbefore, hmember⟩
        cases before with
        | nil =>
            obtain ⟨rfl, -⟩ := List.cons.inj hsplit
            exact .inl hmember
        | cons passed before =>
            obtain ⟨rfl, hrest⟩ := List.cons.inj hsplit
            obtain ⟨hfirst, hothers⟩ := List.forall_mem_cons.mp hbefore
            rw [List.length_cons, ← Nat.add_assoc, Nat.add_right_comm] at hmember
            exact .inr ⟨(), (hpasses index first).mpr hfirst,
              (ih (index + 1)).mpr ⟨before, member, after, hrest, hothers, hmember⟩⟩

lemma checkedBelow_eq_error_iff {step : Step} {outcome : Except Mismatch Unit} {m : Mismatch} :
    checkedBelow step outcome = .error m ↔
      ∃ cause, outcome = .error cause ∧ m = cause.below step := by
  cases outcome <;> simp [checkedBelow, eq_comm]

lemma checkItems_eq_error_iff {check : Value → Except Mismatch Unit} {index : Nat}
    {items : List Value} {m : Mismatch} :
    checkItems check index items = .error m ↔
      ∃ before item after, items = before ++ item :: after ∧
        (∀ earlier ∈ before, check earlier = .ok ()) ∧
        ∃ cause, check item = .error cause ∧ m = cause.below (.item (index + before.length)) := by
  simp only [← checkedBelow_eq_error_iff]
  exact walk_eq_error_iff (checkItems check) (fun index item => checkedBelow (.item index)
    (check item)) (fun _ => rfl) (fun _ _ _ => rfl) (fun _ _ => checkedBelow_eq_ok_iff) index

namespace AbiType

lemma checkComponents_eq_error_iff {index : Nat} {fields : List Field} {items : List Value}
    (hlength : items.length = fields.length) {m : Mismatch} :
    checkComponents index fields items = .error m ↔
      ∃ before part after, items.zip fields = before ++ part :: after ∧
        (∀ earlier ∈ before, earlier.2.2.check earlier.1 = .ok ()) ∧
        ∃ cause, part.2.2.check part.1 = .error cause ∧
          m = cause.below (.component (index + before.length)) := by
  have hfields : (items.zip fields).map Prod.snd = fields := List.map_snd_zip (by omega)
  have hitems : (items.zip fields).map Prod.fst = items := List.map_fst_zip (by omega)
  simp only [← checkedBelow_eq_error_iff]
  -- The loop runs over two lists side by side; as a walk it is one over the list of pairs.
  rw [← walk_eq_error_iff (fun index (parts : List (Value × Field)) =>
      checkComponents index (parts.map Prod.snd) (parts.map Prod.fst))
    (fun index part => checkedBelow (.component index) (part.2.2.check part.1))
    (fun _ => by rw [List.map_nil, List.map_nil, checkComponents.eq_def])
    (fun _ _ _ => by rw [List.map_cons, List.map_cons, checkComponents])
    (fun _ _ => checkedBelow_eq_ok_iff) index, hfields, hitems]

/-- The check of a record for one component. -/
def checkEntryFor (entries : List (String × Value)) (field : Field) : Except Mismatch Unit :=
  match entries.lookup field.1 with
  | none => .error ⟨[.entry field.1], field.2.canonical, "nothing"⟩
  | some value => checkedBelow (.entry field.1) (field.2.check value)

lemma checkEntryFor_eq_ok_iff {entries : List (String × Value)} {field : Field} :
    checkEntryFor entries field = .ok () ↔ HasComponent entries field := by
  rw [checkEntryFor, HasComponent]
  cases entries.lookup field.1 <;> simp [checkedBelow_eq_ok_iff]

lemma checkEntryFor_eq_error_iff {entries : List (String × Value)} {field : Field}
    {m : Mismatch} :
    checkEntryFor entries field = .error m ↔
      (entries.lookup field.1 = none ∧
          m = ⟨[.entry field.1], field.2.canonical, "nothing"⟩) ∨
        ∃ value cause, entries.lookup field.1 = some value ∧
          field.2.check value = .error cause ∧ m = cause.below (.entry field.1) := by
  rw [checkEntryFor]
  cases entries.lookup field.1 with
  | none => simp [eq_comm]
  | some value => simp [checkedBelow_eq_error_iff]

lemma checkNamed_eq_error_iff {entries : List (String × Value)} {fields : List Field}
    {m : Mismatch} :
    checkNamed entries fields = .error m ↔
      ∃ before field after, fields = before ++ field :: after ∧
        (∀ earlier ∈ before, HasComponent entries earlier) ∧
        checkEntryFor entries field = .error m := by
  refine walk_eq_error_iff (fun _ => checkNamed entries) (fun _ => checkEntryFor entries)
    (fun _ => by rw [checkNamed]) (fun _ field rest => ?_) (fun _ _ => checkEntryFor_eq_ok_iff)
    0
  rw [checkNamed, checkEntryFor]
  cases entries.lookup field.1 <;> rfl

/-! ## The check of each kind of type -/

lemma check_leaf {s : AbiType} (hs : s.isLeaf = true) (v : Value) :
    s.check v = if s.admits v then .ok () else .error (s.mismatch v) := by
  cases s <;> simp_all [check, isLeaf]

lemma check_array_of_ne {v : Value} (h : ∀ items, v ≠ .array items) (element : AbiType)
    (extent : Extent) :
    (array element extent).check v = .error ((array element extent).mismatch v) := by
  cases v <;> simp_all [check, admits]

lemma check_tuple_of_ne {v : Value} (htuple : ∀ items, v ≠ .tuple items)
    (hrecord : ∀ entries, v ≠ .record entries) (fields : List Field) :
    (tuple fields).check v = .error ((tuple fields).mismatch v) := by
  cases v <;> simp_all [check, admits]

lemma check_array_eq_error_iff {element : AbiType} {extent : Extent} {items : List Value}
    {m : Mismatch} :
    (array element extent).check (.array items) = .error m ↔
      (extent.admits items.length = false ∧
          (array element extent).mismatch (.array items) = m) ∨
        extent.admits items.length = true ∧ checkItems element.check 0 items = .error m := by
  rw [check]
  cases extent.admits items.length <;> simp

lemma check_tuple_eq_error_iff {fields : List Field} {items : List Value} {m : Mismatch} :
    (tuple fields).check (.tuple items) = .error m ↔
      (items.length ≠ fields.length ∧ (tuple fields).mismatch (.tuple items) = m) ∨
        items.length = fields.length ∧ checkComponents 0 fields items = .error m := by
  rw [check]
  by_cases hlength : items.length = fields.length <;> simp [hlength]

lemma check_record_of_unnamed {fields : List Field} {field : Field} (hfield : field ∈ fields)
    (h : field.1 = "") (entries : List (String × Value)) :
    (tuple fields).check (.record entries) =
      .error ((tuple fields).mismatch (.record entries)) := by
  have hunnamed : (fields.any fun field => field.1 == "") = true :=
    List.any_eq_true.mpr ⟨field, hfield, by simpa using h⟩
  rw [check, if_pos hunnamed]

/-- A record that can be matched by names fails at the first component that it lacks or does not
fit, or, if there is none, at its first stray key. -/
lemma check_record_eq_error_iff {fields : List Field} (hnamed : ∀ field ∈ fields, field.1 ≠ "")
    {entries : List (String × Value)} {m : Mismatch} :
    (tuple fields).check (.record entries) = .error m ↔
      (∃ before field after, fields = before ++ field :: after ∧
          (∀ earlier ∈ before, HasComponent entries earlier) ∧
          checkEntryFor entries field = .error m) ∨
        (∀ field ∈ fields, HasComponent entries field) ∧
          ∃ entry, strayEntry? fields entries = some entry ∧
            ⟨[.entry entry.1], "no such field", entry.2.describe⟩ = m := by
  have hcomponents : checkNamed entries fields = .ok () ↔
      ∀ field ∈ fields, HasComponent entries field := checkNamed_eq_ok_iff
  rw [check, any_unnamed_eq_false_iff.mpr hnamed, if_neg (by decide), check_bind_eq_error_iff,
    checkNamed_eq_error_iff, hcomponents]
  refine or_congr_right (and_congr_right fun _ => ?_)
  cases strayEntry? fields entries <;> simp

end AbiType

lemma strayEntry?_eq_some_iff {fields : List Field} {entries : List (String × Value)}
    {entry : String × Value} :
    strayEntry? fields entries = some entry ↔
      (∀ field ∈ fields, field.1 ≠ entry.1) ∧
        ∃ before after, entries = before ++ entry :: after ∧
          ∀ earlier ∈ before, ∃ field ∈ fields, field.1 = earlier.1 := by
  simp [List.find?_eq_some_iff_append, strayEntry?]

/-! ## The report of a failure -/

/-- Whether a mismatch reports what is found by going down to a failure past all that passes. -/
def FirstMisfit (v : Value) (s : AbiType) (m : Mismatch) : Prop :=
  ∃ path w t last, Reaches v s path w t ∧ Blames w t last m.expected m.found ∧
    m.path = path ++ last

namespace FirstMisfit

lemma of_blames {v : Value} {s : AbiType} {last : List Step} {expected found : String}
    (h : Blames v s last expected found) : FirstMisfit v s ⟨last, expected, found⟩ :=
  ⟨[], v, s, last, .here v s, h, rfl⟩

lemma below {v w : Value} {s t : AbiType} {step : Step} {m : Mismatch}
    (hstep : LeadsTo v s step w t) (h : FirstMisfit w t m) : FirstMisfit v s (m.below step) := by
  obtain ⟨path, x, u, last, hreaches, hblames, hpath⟩ := h
  refine ⟨step :: path, x, u, last, .step hstep hreaches, hblames, ?_⟩
  rw [Mismatch.below, hpath, List.cons_append]

end FirstMisfit

namespace AbiType

/-! ## What is reported is the first misfit -/

lemma firstMisfit_of_check_tuple {fields : List Field} {items : List Value} {m : Mismatch}
    (hfields : ∀ field ∈ fields, ∀ {v m}, field.2.check v = .error m → FirstMisfit v field.2 m)
    (h : (tuple fields).check (.tuple items) = .error m) :
    FirstMisfit (.tuple items) (.tuple fields) m := by
  rcases check_tuple_eq_error_iff.mp h with ⟨hlength, rfl⟩ | ⟨hlength, hcomponents⟩
  · exact .of_blames (.whole (.length hlength))
  · obtain ⟨before, ⟨item, field⟩, after, hparts, hbefore, cause, hcause, rfl⟩ :=
      (checkComponents_eq_error_iff hlength).mp hcomponents
    have hpart : (item, field) ∈ items.zip fields := by simp [hparts]
    rw [Nat.zero_add]
    exact .below (.component hlength hparts hbefore)
      (hfields field (List.of_mem_zip hpart).2 hcause)

lemma firstMisfit_of_check_record {fields : List Field} {entries : List (String × Value)}
    {m : Mismatch}
    (hfields : ∀ field ∈ fields, ∀ {v m}, field.2.check v = .error m → FirstMisfit v field.2 m)
    (h : (tuple fields).check (.record entries) = .error m) :
    FirstMisfit (.record entries) (.tuple fields) m := by
  by_cases hnamed : ∀ field ∈ fields, field.1 ≠ ""
  · rcases (check_record_eq_error_iff hnamed).mp h with
      ⟨before, field, after, hsplit, hbefore, hfield⟩ | ⟨hcomponents, ⟨key, value⟩, hstray, rfl⟩
    · rcases checkEntryFor_eq_error_iff.mp hfield with
        ⟨hmissing, rfl⟩ | ⟨value, cause, hvalue, hcause, rfl⟩
      · refine .of_blames (.missing hnamed hsplit hbefore fun entry hentry heq => ?_)
        simpa [heq] using List.lookup_eq_none_iff.mp hmissing entry hentry
      · have hmem : field ∈ fields := by simp [hsplit]
        exact .below (.entry hnamed hsplit hbefore hvalue) (hfields field hmem hcause)
    · obtain ⟨hkey, before, after, hsplit, hbefore⟩ := strayEntry?_eq_some_iff.mp hstray
      exact .of_blames (.stray hnamed hcomponents hsplit hbefore hkey)
  · push Not at hnamed
    obtain ⟨field, hfield, hempty⟩ := hnamed
    rw [check_record_of_unnamed hfield hempty] at h
    obtain rfl := Except.error.inj h
    exact .of_blames (.whole (.unnamed hfield hempty))

/-- A failed check reports the first misfit. -/
lemma firstMisfit_of_check {v : Value} {s : AbiType} {m : Mismatch} (h : s.check v = .error m) :
    FirstMisfit v s m := by
  induction s using induction_on_parts generalizing v m with
  | leaf s hs =>
      rw [check_leaf hs] at h
      split_ifs at h with hadmits
      obtain rfl := Except.error.inj h
      have hfails : ¬Inhabits v s := fun hinhabits => hadmits (admits_of_inhabits hs hinhabits)
      exact .of_blames (.whole (.leaf hs hfails))
  | tuple fields ih =>
      cases v with
      | tuple items => exact firstMisfit_of_check_tuple ih h
      | record entries => exact firstMisfit_of_check_record ih h
      | _ =>
          rw [check_tuple_of_ne (by simp) (by simp)] at h
          obtain rfl := Except.error.inj h
          exact .of_blames (.whole (.notTuple (by simp) (by simp)))
  | array element extent ih =>
      cases v with
      | array items =>
          rcases check_array_eq_error_iff.mp h with ⟨hextent, rfl⟩ | ⟨hextent, hitems⟩
          · exact .of_blames (.whole (.extent hextent))
          · obtain ⟨before, item, after, hsplit, hbefore, cause, hcause, rfl⟩ :=
              checkItems_eq_error_iff.mp hitems
            rw [Nat.zero_add]
            exact .below (.item hextent hsplit hbefore) (ih hcause)
      | _ =>
          rw [check_array_of_ne (by simp)] at h
          obtain rfl := Except.error.inj h
          exact .of_blames (.whole (.notArray (by simp)))

/-! ## The first misfit is what is reported -/

lemma Every.of_leadsTo {p : AbiType → Prop} {v w : Value} {s t : AbiType} {step : Step}
    (hs : s.Every p) (h : LeadsTo v s step w t) : t.Every p := by
  cases h with
  | item => exact (every_array.mp hs).2
  | component hlength hparts =>
      have hpart := List.of_mem_zip (hparts ▸ List.mem_append_cons_self)
      exact (every_tuple.mp hs).2 _ hpart.2
  | entry hnamed hsplit => exact (every_tuple.mp hs).2 _ (hsplit ▸ List.mem_append_cons_self)

/-- A part that fails makes the whole fail, with the step to the part before its path. -/
lemma check_of_leadsTo {v w : Value} {s t : AbiType} {step : Step} {m : Mismatch}
    (hstep : LeadsTo v s step w t) (h : t.check w = .error m) :
    s.check v = .error (m.below step) := by
  cases hstep with
  | item hextent hsplit hbefore =>
      refine check_array_eq_error_iff.mpr (.inr ⟨hextent, ?_⟩)
      exact checkItems_eq_error_iff.mpr
        ⟨_, _, _, hsplit, hbefore, m, h, by rw [Nat.zero_add]⟩
  | component hlength hparts hbefore =>
      refine check_tuple_eq_error_iff.mpr (.inr ⟨hlength, ?_⟩)
      exact (checkComponents_eq_error_iff hlength).mpr
        ⟨_, _, _, hparts, hbefore, m, h, by rw [Nat.zero_add]⟩
  | entry hnamed hsplit hbefore hvalue =>
      refine (check_record_eq_error_iff hnamed).mpr (.inl ⟨_, _, _, hsplit, hbefore, ?_⟩)
      exact checkEntryFor_eq_error_iff.mpr (.inr ⟨_, m, hvalue, h, rfl⟩)

lemma check_of_failsItself {v : Value} {s : AbiType} (hwidths : s.Every PositiveWidth)
    (h : FailsItself v s) : s.check v = .error (s.mismatch v) := by
  cases h with
  | leaf hs hinhabits =>
      have hadmits : ¬s.admits v = true := fun hadmits =>
        hinhabits (inhabits_of_admits ((every_leaf hs).mp hwidths) hadmits)
      rw [check_leaf hs, if_neg hadmits]
  | notArray hne => exact check_array_of_ne hne _ _
  | extent hextent => exact check_array_eq_error_iff.mpr (.inl ⟨hextent, rfl⟩)
  | notTuple htuple hrecord => exact check_tuple_of_ne htuple hrecord _
  | length hlength => exact check_tuple_eq_error_iff.mpr (.inl ⟨hlength, rfl⟩)
  | unnamed hfield hempty => exact check_record_of_unnamed hfield hempty _

lemma check_of_blames {v : Value} {s : AbiType} {last : List Step} {expected found : String}
    (hwidths : s.Every PositiveWidth) (h : Blames v s last expected found) :
    s.check v = .error ⟨last, expected, found⟩ := by
  cases h with
  | whole hfails => exact check_of_failsItself hwidths hfails
  | missing hnamed hsplit hbefore hmissing =>
      refine (check_record_eq_error_iff hnamed).mpr (.inl ⟨_, _, _, hsplit, hbefore, ?_⟩)
      refine checkEntryFor_eq_error_iff.mpr (.inl ⟨List.lookup_eq_none_iff.mpr ?_, rfl⟩)
      intro entry hentry
      simpa using (hmissing entry hentry).symm
  | stray hnamed hfields hsplit hbefore hkey =>
      refine (check_record_eq_error_iff hnamed).mpr (.inr ⟨hfields, (_, _), ?_, rfl⟩)
      exact strayEntry?_eq_some_iff.mpr ⟨hkey, _, _, hsplit, hbefore⟩

lemma check_of_reaches {v w : Value} {s t : AbiType} {path last : List Step}
    {expected found : String} (hwidths : s.Every PositiveWidth) (hreaches : Reaches v s path w t)
    (hblames : Blames w t last expected found) :
    s.check v = .error ⟨path ++ last, expected, found⟩ := by
  induction hreaches with
  | here v s => exact check_of_blames hwidths hblames
  | step hstep _ ih => exact check_of_leadsTo hstep (ih (hwidths.of_leadsTo hstep) hblames)

end AbiType

lemma Step.pathText_eq_join (path : List Step) :
    pathText path = String.join (path.map Step.text) := by
  induction path with
  | nil => rfl
  | cons step path ih => rw [pathText, ih, List.map_cons, String.join_cons]

/-- **A mismatch reports the first misfit.**  If a check fails, its report is what is found by going
down from the value to a failure past parts that all pass their checks: the path is made of the
steps on the way, with the name of the component or the key at fault at its end if there is one, and
is written as the steps are, one after another.  The other way round, no other failure is ever
reported, if integers all have a bit: a failure that can be reached that way is the one that the
check reports. -/
theorem AbiType.check_reports_first_misfit (v : Value) (s : AbiType) (m : Mismatch) :
    (s.check v = .error m → FirstMisfit v s m ∧
        Step.pathText m.path = String.join (m.path.map Step.text)) ∧
      (s.Every PositiveWidth → FirstMisfit v s m → s.check v = .error m) := by
  refine ⟨fun h => ⟨firstMisfit_of_check h, Step.pathText_eq_join m.path⟩, ?_⟩
  rintro hwidths ⟨path, w, t, last, hreaches, hblames, hpath⟩
  have hcheck := check_of_reaches hwidths hreaches hblames
  rwa [← hpath] at hcheck

/-- A type of two ballots, each with a number and any number of votes. -/
def AbiType.ballots : AbiType :=
  .tuple [("ballots", .array (.tuple [("number", .uint 8), ("votes", .array .bool .dynamic)])
    (.fixed 2))]

/-- Two ballots, of which the second has a word among its votes.  Its number is given after its
votes; a key that names no component comes last of all. -/
def Value.ballots : Value :=
  .record [("ballots", .array [
      .record [("number", .uint 7), ("votes", .array [])],
      .record [("votes", .array [.bool true, .string "no"]), ("number", .uint 255)]]),
    ("date", .uint 0)]

/-- The word is reported, although the stray key is nearer to the root. -/
theorem AbiType.check_reports_first_misfit_ballots :
    ballots.Every PositiveWidth ∧
      ∃ m, ballots.check .ballots = .error m ∧ FirstMisfit .ballots ballots m ∧
        Step.pathText m.path = ".ballots[1].votes[1]" ∧ m.expected = "bool" ∧
        m.found = "string" := by
  have hwidths : ballots.Every PositiveWidth := by
    simp [ballots, Every, EveryField, PositiveWidth]
  have hcheck : ballots.check .ballots =
      .error ⟨[.entry "ballots", .item 1, .entry "votes", .item 1], "bool", "string"⟩ := by
    decide +kernel
  obtain ⟨hreports, hreported⟩ := check_reports_first_misfit .ballots ballots
    ⟨[.entry "ballots", .item 1, .entry "votes", .item 1], "bool", "string"⟩
  obtain ⟨hmisfit, -⟩ := hreports hcheck
  exact ⟨hwidths, _, hreported hwidths hmisfit, hmisfit, by decide +kernel, rfl, rfl⟩

end ContractInterface

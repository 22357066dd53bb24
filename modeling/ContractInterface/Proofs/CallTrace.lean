import ContractInterface.Proofs.SessionGate

/-!
# What a trace tells

Preparing a call leaves a trace of events.  Those of the lookup come first (`TraceEvent.isLookup`),
and the last event, the only one of another kind, tells what became of the call.  There are many
ways through a preparation, and most of them end early.  `Traced.Announces` is what they have in
common: a step announces its result at its end if it succeeds, and announces nothing if it fails.
Closing the trace of a failure with an event about it then makes one verdict of every outcome
(`Call.Verdict`).

The trace of a batch is made of the traces of its reads, up to the first that fails
(`Session.BatchTrace`).  `Session.trace_tells_outcome` is the statement of both.
-/

namespace ContractInterface

/-! ## Kinds of events -/

namespace TraceEvent

/-- Whether an event is one on the way of a lookup.  Such an event tells nothing of what becomes of
a call. -/
def isLookup : TraceEvent → Bool
  | .selecting .. | .disambiguating .. | .selectedQualified .. => true
  | _ => false

end TraceEvent

namespace Traced

/-! ## Steps without a verdict -/

/-- Whether a step tells nothing of what becomes of a call. -/
def Silent (x : Traced α) : Prop := ∀ event ∈ x.events, event.isLookup = true

lemma silent_pure (a : α) : (pure a : Traced α).Silent := List.forall_mem_nil _

lemma silent_ofExcept (x : Except Fault α) : (ofExcept x).Silent := List.forall_mem_nil _

lemma silent_fail (fault : Fault) : (fail fault : Traced α).Silent := List.forall_mem_nil _

lemma silent_emit {event : TraceEvent} (h : event.isLookup = true) : (emit event).Silent :=
  List.forall_mem_singleton.mpr h

lemma Silent.bind {x : Traced α} {f : α → Traced β} (hx : x.Silent) (hf : ∀ a, (f a).Silent) :
    (x >>= f).Silent := by
  cases houtcome : x.outcome with
  | ok a =>
      rw [Silent, events_bind_of_ok houtcome, List.forall_mem_append]
      exact ⟨hx, hf a⟩
  | error fault =>
      rw [Silent, events_bind_of_error houtcome]
      exact hx

/-! ## Steps that announce their result -/

/-- How a step announces its result: by its last event if it succeeds, and not at all if it
fails. -/
inductive Announces (x : Traced α) (announce : α → TraceEvent) : Prop
  | ok {a : α} (before : List TraceEvent) (houtcome : x.outcome = .ok a)
      (hevents : x.events = before ++ [announce a])
      (hbefore : ∀ event ∈ before, event.isLookup = true)
  | error {fault : Fault} (houtcome : x.outcome = .error fault) (hsilent : x.Silent)

/-- What follows a step without a verdict may announce its result. -/
lemma Silent.bind_announces {x : Traced α} {f : α → Traced β} {announce : β → TraceEvent}
    (hx : x.Silent) (hf : ∀ a, (f a).Announces announce) : (x >>= f).Announces announce := by
  cases houtcome : x.outcome with
  | error fault =>
      refine .error (outcome_bind_eq_error_iff.mpr (.inl houtcome)) ?_
      rw [Silent, events_bind_of_error houtcome]
      exact hx
  | ok a =>
      have hevents := events_bind_of_ok houtcome f
      cases hf a with
      | ok before hresult hlast hbefore =>
          refine .ok (x.events ++ before) (outcome_bind_eq_ok_iff.mpr ⟨a, houtcome, hresult⟩) ?_
            (List.forall_mem_append.mpr ⟨hx, hbefore⟩)
          rw [hevents, hlast, List.append_assoc]
      | error hfault hsilent =>
          refine .error (outcome_bind_eq_error_iff.mpr (.inr ⟨a, houtcome, hfault⟩)) ?_
          rw [Silent, hevents, List.forall_mem_append]
          exact ⟨hx, hsilent⟩

lemma announces_emit (announce : α → TraceEvent) (a : α) :
    (do emit (announce a); return a : Traced α).Announces announce :=
  .ok [] rfl rfl (List.forall_mem_nil _)

/-- If a step announces its result and a failure is told, the trace ends with the only verdict in
it. -/
lemma Announces.onFault {x : Traced α} {announce : α → TraceEvent} (h : x.Announces announce)
    (tell : Fault → TraceEvent) :
    ∃ before verdict, (x.onFault tell).events = before ++ [verdict] ∧
      (∀ event ∈ before, event.isLookup = true) ∧
      ((∃ a, x.outcome = .ok a ∧ verdict = announce a) ∨
        ∃ fault, x.outcome = .error fault ∧ verdict = tell fault) := by
  cases h with
  | ok before houtcome hevents hbefore =>
      refine ⟨before, _, ?_, hbefore, .inl ⟨_, houtcome, rfl⟩⟩
      simp only [Traced.onFault, houtcome, hevents]
  | error houtcome hsilent =>
      refine ⟨x.events, _, ?_, hsilent, .inr ⟨_, houtcome, rfl⟩⟩
      simp only [Traced.onFault, houtcome]

/-! ## Events of a step with its result changed -/

@[simp] lemma events_mapFault (x : Traced α) (f : Fault → Fault) :
    (x.mapFault f).events = x.events := by
  unfold mapFault
  split <;> rfl

lemma events_bind_pure (x : Traced α) (f : α → β) :
    (x >>= fun a => pure (f a)).events = x.events := by
  cases houtcome : x.outcome with
  | ok a => rw [events_bind_of_ok houtcome, events_pure, List.append_nil]
  | error fault => exact events_bind_of_error houtcome _

end Traced

/-! ## Lookups -/

namespace Interface

variable (interface : Interface) (kind : MemberKind) (settings : Settings)

lemma silent_refusal (fault : List String → Fault) (candidates : List Entry) :
    (do
      let texts ← Traced.ofExcept (asFault (canonicalTexts candidates))
      Traced.fail (fault texts) : Traced Entry).Silent :=
  (Traced.silent_ofExcept _).bind fun _ => Traced.silent_fail _

lemma silent_disambiguate (name : String) (candidates : List Entry) (args : List Value) :
    (disambiguate name candidates args settings).Silent := by
  rw [disambiguate]
  refine (Traced.silent_ofExcept _).bind fun compatible => ?_
  refine (Traced.silent_emit rfl).bind fun _ => ?_
  split
  · exact silent_refusal _ _
  · exact Traced.silent_pure _
  · exact Traced.silent_pure _
  · exact silent_refusal _ _

lemma silent_lookupQualified (reference : String) :
    (interface.lookupQualified kind reference).Silent := by
  rw [lookupQualified]
  refine (Traced.silent_ofExcept _).bind fun found => ?_
  cases found with
  | none => exact Traced.silent_fail _
  | some entry => exact (Traced.silent_emit rfl).bind fun _ => Traced.silent_pure _

lemma silent_lookupPlain (name : String) (args : Option (List Value)) :
    (interface.lookupPlain kind name args settings).Silent := by
  unfold lookupPlain
  refine (Traced.silent_emit rfl).bind fun _ => ?_
  split
  · exact Traced.silent_fail _
  · exact Traced.silent_pure _
  · exact silent_refusal _ _
  · exact silent_disambiguate _ _ _ _

/-- A lookup tells nothing of what becomes of the call that it is for. -/
lemma silent_lookup (reference : String) (args : Option (List Value)) :
    (interface.lookup kind reference args settings).Silent := by
  rw [lookup]
  split_ifs
  · exact silent_lookupQualified _ _ _
  · exact silent_lookupPlain _ _ _ _ _

end Interface

/-! ## Calls -/

namespace Call

lemma announces_prepareLiteral (interface : Interface) (reference : String) (access : Access)
    (args : Option (List Value)) (settings : Settings) :
    (prepareLiteral interface reference access args settings).Announces fun call =>
      .callPrepared reference access (call.signature.getD "") := by
  rw [prepareLiteral]
  refine (interface.silent_lookup _ _ _ _).bind_announces fun entry => ?_
  refine (Traced.silent_ofExcept _).bind_announces fun call => ?_
  exact Traced.announces_emit (fun call => .callPrepared reference access
    (call.signature.getD "")) call

lemma announces_prepareWidened (records : List Json) (reference : String) (access : Access)
    (args : Option (List Value)) :
    (prepareWidened records reference access args).Announces fun _ =>
      .widenedCallPrepared reference access := by
  rw [prepareWidened]
  cases LooseRecord.find? records .function reference (some (args.getD []).length) with
  | none => exact .error rfl (Traced.silent_fail _)
  | some record =>
      refine (Traced.silent_ofExcept _).bind_announces fun call => ?_
      exact Traced.announces_emit (fun _ => .widenedCallPrepared reference access) call

/-- What the last event of a preparation is, by the description and the outcome. -/
inductive Verdict (reference : String) (access : Access) :
    Description → Except Fault Call → TraceEvent → Prop
  /-- By a literal description the event names the signature of the call. -/
  | prepared {interface : Interface} {call : Call} {selected : String}
      (hselected : call.signature = some selected) :
      Verdict reference access (.literal interface) (.ok call)
        (.callPrepared reference access selected)
  | widened {records : List Json} {call : Call} (hselected : call.signature = none) :
      Verdict reference access (.widened records) (.ok call)
        (.widenedCallPrepared reference access)
  | rejected {description : Description} {fault : Fault} :
      Verdict reference access description (.error fault) (.callRejected reference access fault)

section Verdict

variable {reference : String} {access : Access} {description : Description}
  {outcome : Except Fault Call} {verdict : TraceEvent}

lemma Verdict.isLookup_eq_false (h : Verdict reference access description outcome verdict) :
    verdict.isLookup = false := by
  cases h <;> rfl

lemma Verdict.ne_submittingBatch (h : Verdict reference access description outcome verdict)
    (count : Nat) : verdict ≠ .submittingBatch count := by
  cases h <;> simp

/-- A verdict is that the call is prepared if it is, and only then. -/
lemma Verdict.prepared_iff (h : Verdict reference access description outcome verdict) :
    verdict.message ∈ ["call prepared", "call prepared against a widened description"] ↔
      ∃ call, outcome = .ok call := by
  cases h <;> simp [TraceEvent.message]

/-- A verdict is that the call is rejected if it is, and only then; it gives the fault. -/
lemma Verdict.rejected_iff (h : Verdict reference access description outcome verdict) :
    verdict.message = "call rejected" ↔
      ∃ fault, outcome = .error fault ∧ ("error", .text fault.message) ∈ verdict.details := by
  cases h <;> simp [TraceEvent.message, TraceEvent.details]

/-- A verdict names a signature if the call has it, and only then. -/
lemma Verdict.selected_iff (h : Verdict reference access description outcome verdict)
    (selected : String) :
    ("selected", .text selected) ∈ verdict.details ↔
      ∃ call, outcome = .ok call ∧ call.signature = some selected := by
  cases h with
  | prepared hselected => simp [TraceEvent.details, hselected, eq_comm]
  | widened hselected => simp [TraceEvent.details, hselected]
  | rejected => simp [TraceEvent.details]

/-- The trace of a preparation ends with the only verdict in it, if the way it takes announces the
calls that it prepares. -/
lemma exists_verdict_of_announces {args : Option (List Value)} {settings : Settings}
    {way : Traced Call} {announce : Call → TraceEvent} (hway : way.Announces announce)
    (hprepare : prepare description reference access args settings =
      way.onFault (.callRejected reference access))
    (hannounce : ∀ call, (prepare description reference access args settings).outcome = .ok call →
      Verdict reference access description (.ok call) (announce call)) :
    ∃ before verdict,
      (prepare description reference access args settings).events = before ++ [verdict] ∧
        (∀ event ∈ before, event.isLookup = true) ∧
        Verdict reference access description
          (prepare description reference access args settings).outcome verdict := by
  have houtcome : (prepare description reference access args settings).outcome = way.outcome := by
    rw [hprepare, Traced.outcome_onFault]
  obtain ⟨before, verdict, hevents, hbefore, hverdict⟩ :=
    hway.onFault (.callRejected reference access)
  rw [← hprepare] at hevents
  refine ⟨before, verdict, hevents, hbefore, ?_⟩
  rcases hverdict with ⟨call, hcall, rfl⟩ | ⟨fault, hfault, rfl⟩
  · rw [houtcome, hcall]
    exact hannounce call (houtcome.trans hcall)
  · rw [houtcome, hfault]
    exact .rejected

end Verdict

lemma exists_verdict (description : Description) (reference : String) (access : Access)
    (args : Option (List Value)) (settings : Settings) :
    ∃ before verdict,
      (prepare description reference access args settings).events = before ++ [verdict] ∧
        (∀ event ∈ before, event.isLookup = true) ∧
        Verdict reference access description
          (prepare description reference access args settings).outcome verdict := by
  cases description with
  | literal interface =>
      apply exists_verdict_of_announces
        (announces_prepareLiteral interface reference access args settings) rfl
      intro call hcall
      obtain ⟨f, -, -, hfor⟩ := exists_function_of_prepare hcall
      rw [hfor.signature]
      exact .prepared hfor.signature
  | widened records =>
      apply exists_verdict_of_announces (announces_prepareWidened records reference access args) rfl
      intro call hcall
      obtain ⟨record, -, -, rfl⟩ := exists_record_of_prepare_widened hcall
      exact .widened rfl

end Call

/-! ## Batches -/

/-- What preparing a read on its own tells. -/
def ReadRequest.trace (settings : Settings) (read : ReadRequest) : List TraceEvent :=
  (Call.prepare read.description read.reference .read read.args settings).events

lemma ReadRequest.submittingBatch_not_mem_trace (settings : Settings) (read : ReadRequest)
    (count : Nat) : .submittingBatch count ∉ read.trace settings := by
  obtain ⟨before, verdict, hevents, hbefore, hverdict⟩ :=
    Call.exists_verdict read.description read.reference .read read.args settings
  rw [trace, hevents, List.mem_append, List.mem_singleton]
  rintro (hmem | heq)
  · exact Bool.false_ne_true (hbefore _ hmem)
  · exact hverdict.ne_submittingBatch count heq.symm

namespace Session

/-- What a batch comes to and tells: each read is told as on its own, up to the first that fails. -/
inductive BatchTrace (settings : Settings) :
    List ReadRequest → Except Fault Reply → List TraceEvent → Prop
  /-- If no read fails, the batch is told to be handed on, after its reads. -/
  | submitted {reads : List ReadRequest} {calls : List Call}
      (hcalls : List.Forall₂ (ReadRequest.Yields settings) reads calls) :
      BatchTrace settings reads (.ok (.batch calls))
        (reads.flatMap (ReadRequest.trace settings) ++ [.submittingBatch reads.length])
  /-- Nothing is told after the first read that fails. -/
  | stopped {before after : List ReadRequest} {read : ReadRequest} {source : Fault}
      (hbefore : ∀ earlier ∈ before, ∃ call, earlier.Yields settings call)
      (hsource : (Call.prepare read.description read.reference .read read.args settings).outcome =
        .error source) :
      BatchTrace settings (before ++ read :: after) (.error (.batch before.length source))
        ((before ++ [read]).flatMap (ReadRequest.trace settings))

variable {settings : Settings}

/-- One read that can be prepared is told before the others. -/
lemma events_prepareReadsFrom_cons_of_yields {read : ReadRequest} {call : Call}
    (hread : read.Yields settings call) (index : Nat) (rest : List ReadRequest) :
    (prepareReadsFrom settings index (read :: rest)).events =
      read.trace settings ++ (prepareReadsFrom settings (index + 1) rest).events := by
  rw [prepareReadsFrom, Traced.events_bind_of_ok (Traced.outcome_mapFault_eq_ok_iff.mpr hread.1),
    Traced.events_mapFault, Traced.events_bind_pure]
  rfl

/-- One read that cannot be prepared is the last that is told. -/
lemma events_prepareReadsFrom_cons_of_fails {read : ReadRequest} {source : Fault}
    (hsource : (Call.prepare read.description read.reference .read read.args settings).outcome =
      .error source) (index : Nat) (rest : List ReadRequest) :
    (prepareReadsFrom settings index (read :: rest)).events = read.trace settings := by
  rw [prepareReadsFrom, Traced.events_bind_of_error
    (Traced.outcome_mapFault_eq_error_iff.mpr ⟨source, hsource, rfl⟩), Traced.events_mapFault]
  rfl

/-- Reads that can be prepared are told one after another, before the others. -/
lemma events_prepareReadsFrom_append {before : List ReadRequest}
    (hbefore : ∀ read ∈ before, ∃ call, read.Yields settings call) (index : Nat)
    (rest : List ReadRequest) :
    (prepareReadsFrom settings index (before ++ rest)).events =
      before.flatMap (ReadRequest.trace settings) ++
        (prepareReadsFrom settings (index + before.length) rest).events := by
  induction before generalizing index with
  | nil => rfl
  | cons read before ih =>
      obtain ⟨⟨call, hcall⟩, hlater⟩ := List.forall_mem_cons.mp hbefore
      rw [List.cons_append, events_prepareReadsFrom_cons_of_yields hcall, ih hlater,
        List.flatMap_cons, List.append_assoc, List.length_cons, Nat.add_right_comm, Nat.add_assoc]

lemma batchTrace_of_ok {reads : List ReadRequest} {calls : List Call}
    (h : (prepareReads settings reads).outcome = .ok calls) :
    BatchTrace settings reads (prepare settings (.readMany reads)).outcome
      (prepare settings (.readMany reads)).events := by
  have hcalls := forall₂_of_prepareReadsFrom h
  have hyield : ∀ read ∈ reads, ∃ call, read.Yields settings call := by
    intro read hread
    obtain ⟨call, -, hcall⟩ := exists_mem_of_forall₂ hcalls.flip hread
    exact ⟨call, hcall⟩
  have hevents : (prepareReads settings reads).events =
      reads.flatMap (ReadRequest.trace settings) := by
    have happend := events_prepareReadsFrom_append hyield 0 []
    rwa [List.append_nil, prepareReadsFrom, Traced.events_pure, List.append_nil] at happend
  have houtcome : (prepare settings (.readMany reads)).outcome = .ok (.batch calls) :=
    Traced.outcome_bind_eq_ok_iff.mpr ⟨calls, h, rfl⟩
  have hlast : (prepare settings (.readMany reads)).events =
      reads.flatMap (ReadRequest.trace settings) ++ [.submittingBatch reads.length] := by
    rw [prepare, Traced.events_bind_of_ok h, hevents, hcalls.length_eq]
    rfl
  rw [houtcome, hlast]
  exact .submitted hcalls

lemma batchTrace_of_error {reads : List ReadRequest} {fault : Fault}
    (h : (prepareReads settings reads).outcome = .error fault) :
    BatchTrace settings reads (prepare settings (.readMany reads)).outcome
      (prepare settings (.readMany reads)).events := by
  have houtcome : (prepare settings (.readMany reads)).outcome = .error fault :=
    Traced.outcome_bind_eq_error_iff.mpr (.inl h)
  rw [houtcome, prepare, Traced.events_bind_of_error h, prepareReads]
  cases refuses_of_prepare houtcome with
  | @readMany _ index read source hread hsource hearlier =>
      obtain ⟨before, after, rfl, rfl⟩ : ∃ before after,
          reads = before ++ read :: after ∧ before.length = index := by
        obtain ⟨hindex, rfl⟩ := List.getElem?_eq_some_iff.mp hread
        refine ⟨reads.take index, reads.drop (index + 1), ?_, List.length_take_of_le hindex.le⟩
        rw [← List.drop_eq_getElem_cons hindex, List.take_append_drop]
      rw [List.take_left] at hearlier
      rw [events_prepareReadsFrom_append hearlier, events_prepareReadsFrom_cons_of_fails hsource,
        ← List.flatMap_singleton (ReadRequest.trace settings) read, ← List.flatMap_append]
      exact .stopped hearlier hsource

/-- The trace of a batch tells that it is handed on if it is, and only then. -/
lemma BatchTrace.submittingBatch_mem_iff {reads : List ReadRequest} {outcome : Except Fault Reply}
    {events : List TraceEvent} (h : BatchTrace settings reads outcome events) :
    (∃ count, .submittingBatch count ∈ events) ↔ ∃ reply, outcome = .ok reply := by
  have hreads : ∀ (reads : List ReadRequest) (count : Nat),
      .submittingBatch count ∉ reads.flatMap (ReadRequest.trace settings) := by
    intro reads count hmem
    obtain ⟨read, -, htold⟩ := List.mem_flatMap.mp hmem
    exact read.submittingBatch_not_mem_trace settings count htold
  cases h with
  | submitted hcalls =>
      exact iff_of_true ⟨_, List.mem_append_right _ (List.mem_singleton_self _)⟩ ⟨_, rfl⟩
  | stopped hbefore hsource =>
      refine iff_of_false ?_ ?_
      · rintro ⟨count, hmem⟩
        exact hreads _ count hmem
      · rintro ⟨reply, hreply⟩
        cases hreply

lemma batchTrace_prepare (settings : Settings) (reads : List ReadRequest) :
    BatchTrace settings reads (prepare settings (.readMany reads)).outcome
      (prepare settings (.readMany reads)).events := by
  cases hreads : (prepareReads settings reads).outcome with
  | ok calls => exact batchTrace_of_ok hreads
  | error fault => exact batchTrace_of_error hreads

/-- **A trace tells the outcome.**  The events of a preparation are those of its lookup and then one
verdict: that the call is prepared, with its signature if the description is literal, or that it is
rejected, with the text of the fault.  The events of a batch are those of its reads, each as on its
own, up to the first that fails; the batch is told to be handed on, with the number of its reads, if
none does, and only then. -/
theorem trace_tells_outcome (settings : Settings) :
    (∀ description reference access args, ∃ before verdict,
      (Call.prepare description reference access args settings).events = before ++ [verdict] ∧
        (∀ event ∈ before, event.isLookup = true) ∧ verdict.isLookup = false ∧
        Call.Verdict reference access description
          (Call.prepare description reference access args settings).outcome verdict ∧
        (verdict.message ∈ ["call prepared", "call prepared against a widened description"] ↔
          ∃ call, (Call.prepare description reference access args settings).outcome = .ok call) ∧
        (∀ selected, ("selected", .text selected) ∈ verdict.details ↔ ∃ call,
          (Call.prepare description reference access args settings).outcome = .ok call ∧
            call.signature = some selected) ∧
        (verdict.message = "call rejected" ↔ ∃ fault,
          (Call.prepare description reference access args settings).outcome = .error fault ∧
            ("error", .text fault.message) ∈ verdict.details)) ∧
    ∀ reads,
      BatchTrace settings reads (prepare settings (.readMany reads)).outcome
        (prepare settings (.readMany reads)).events ∧
      ((∃ count, .submittingBatch count ∈ (prepare settings (.readMany reads)).events) ↔
        ∃ reply, (prepare settings (.readMany reads)).outcome = .ok reply) := by
  refine ⟨fun description reference access args => ?_, fun reads => ?_⟩
  · obtain ⟨before, verdict, hevents, hbefore, hverdict⟩ :=
      Call.exists_verdict description reference access args settings
    exact ⟨before, verdict, hevents, hbefore, hverdict.isLookup_eq_false, hverdict,
      hverdict.prepared_iff, hverdict.selected_iff, hverdict.rejected_iff⟩
  · have htrace := batchTrace_prepare settings reads
    exact ⟨htrace, htrace.submittingBatch_mem_iff⟩

end Session

end ContractInterface

import ContractInterface.Proofs.PreparedSubscription
import ContractInterface.Proofs.TypeFaults
import ContractInterface.Proofs.WidenedArguments

/-!
# What passes a session

A session stands between those who ask and what it hands on to.  `Session.Yields` says what a
request comes to if all is well, `Session.Refuses` what it fails with, and `Session.Served` what
becomes of the outbox in either case.  Serving a request is such a step (`Session.served_serve`), so
serving any number of them is a run of such steps (`Session.run_serveAll`).

Everything that the outbox holds after a run can therefore be accounted for
(`Session.accounted_of_run`): no call gets into it but by a request that yields it, and then with
the access that the request is for (`Session.serveAll_gate`).
-/

namespace ContractInterface

/-- A call that is prepared has the access that was asked for. -/
lemma Call.access_of_prepare {description : Description} {reference : String} {access : Access}
    {args : Option (List Value)} {settings : Settings} {call : Call}
    (h : (Call.prepare description reference access args settings).outcome = .ok call) :
    call.access = access := by
  cases description with
  | literal interface =>
      obtain ⟨f, -, -, hfor⟩ := exists_function_of_prepare h
      exact hfor.access.1
  | widened records =>
      obtain ⟨record, -, -, rfl⟩ := exists_record_of_prepare_widened h
      rfl

/-- The call that a read comes to on its own. -/
def ReadRequest.Yields (settings : Settings) (read : ReadRequest) (call : Call) : Prop :=
  (Call.prepare read.description read.reference .read read.args settings).outcome = .ok call ∧
    call.access = .read

namespace Session

/-! ## Single requests -/

/-- What a request comes to if it can be prepared. -/
inductive Yields (settings : Settings) : Request → Reply → Prop
  | read {description : Description} {reference : String} {args : Option (List Value)} {call : Call}
      (hcall : (Call.prepare description reference .read args settings).outcome = .ok call)
      (haccess : call.access = .read) :
      Yields settings (.read description reference args) (.call call)
  | write {description : Description} {reference : String} {args : Option (List Value)}
      {call : Call}
      (hcall : (Call.prepare description reference .write args settings).outcome = .ok call)
      (haccess : call.access = .write) :
      Yields settings (.write description reference args) (.call call)
  /-- A batch comes to the calls of its reads, one for each and in order. -/
  | readMany {reads : List ReadRequest} {calls : List Call}
      (hcalls : List.Forall₂ (ReadRequest.Yields settings) reads calls) :
      Yields settings (.readMany reads) (.batch calls)
  | watch {description : Description} {reference : String} {arity : Nat}
      {signature : EventSignature}
      (hsignature :
        (Subscription.prepare description reference arity settings).outcome = .ok signature)
      (harity : signature.arity = arity) :
      Yields settings (.watch description reference arity) (.subscribed ⟨signature, arity⟩)

/-- The fault of a request that cannot be prepared. -/
inductive Refuses (settings : Settings) : Request → Fault → Prop
  | read {description : Description} {reference : String} {args : Option (List Value)}
      {fault : Fault}
      (hfault : (Call.prepare description reference .read args settings).outcome = .error fault) :
      Refuses settings (.read description reference args) fault
  | write {description : Description} {reference : String} {args : Option (List Value)}
      {fault : Fault}
      (hfault : (Call.prepare description reference .write args settings).outcome = .error fault) :
      Refuses settings (.write description reference args) fault
  /-- A batch fails with its first read that does: all reads before it can be prepared. -/
  | readMany {reads : List ReadRequest} {index : Nat} {read : ReadRequest} {source : Fault}
      (hread : reads[index]? = some read)
      (hsource : (Call.prepare read.description read.reference .read read.args settings).outcome =
        .error source)
      (hearlier : ∀ earlier ∈ reads.take index, ∃ call, earlier.Yields settings call) :
      Refuses settings (.readMany reads) (.batch index source)
  | watch {description : Description} {reference : String} {arity : Nat} {fault : Fault}
      (hfault :
        (Subscription.prepare description reference arity settings).outcome = .error fault) :
      Refuses settings (.watch description reference arity) fault

lemma forall₂_of_prepareReadsFrom {settings : Settings} {index : Nat} {reads : List ReadRequest}
    {calls : List Call} (h : (prepareReadsFrom settings index reads).outcome = .ok calls) :
    List.Forall₂ (ReadRequest.Yields settings) reads calls := by
  induction reads generalizing index calls with
  | nil =>
      cases h
      exact .nil
  | cons read reads ih =>
      rw [prepareReadsFrom] at h
      obtain ⟨call, hmapped, hrest⟩ := Traced.outcome_bind_eq_ok_iff.mp h
      obtain ⟨later, hlater, hpure⟩ := Traced.outcome_bind_eq_ok_iff.mp hrest
      cases hpure
      have hcall := Traced.outcome_mapFault_eq_ok_iff.mp hmapped
      exact .cons ⟨hcall, Call.access_of_prepare hcall⟩ (ih hlater)

lemma yields_of_prepare {settings : Settings} {request : Request} {reply : Reply}
    (h : (prepare settings request).outcome = .ok reply) : Yields settings request reply := by
  cases request with
  | read description reference args =>
      obtain ⟨call, hcall, hreply⟩ := Traced.outcome_bind_eq_ok_iff.mp h
      cases hreply
      exact .read hcall (Call.access_of_prepare hcall)
  | write description reference args =>
      obtain ⟨call, hcall, hreply⟩ := Traced.outcome_bind_eq_ok_iff.mp h
      cases hreply
      exact .write hcall (Call.access_of_prepare hcall)
  | readMany reads =>
      obtain ⟨calls, hcalls, hreply⟩ := Traced.outcome_bind_eq_ok_iff.mp h
      cases hreply
      exact .readMany (forall₂_of_prepareReadsFrom hcalls)
  | watch description reference arity =>
      obtain ⟨signature, hsignature, hreply⟩ := Traced.outcome_bind_eq_ok_iff.mp h
      cases hreply
      exact .watch hsignature (Subscription.prepare_eq_ok_iff.mp hsignature).2

lemma refuses_of_prepare {settings : Settings} {request : Request} {fault : Fault}
    (h : (prepare settings request).outcome = .error fault) : Refuses settings request fault := by
  cases request with
  | read description reference args =>
      rcases Traced.outcome_bind_eq_error_iff.mp h with hfault | ⟨call, -, hreply⟩
      · exact .read hfault
      · cases hreply
  | write description reference args =>
      rcases Traced.outcome_bind_eq_error_iff.mp h with hfault | ⟨call, -, hreply⟩
      · exact .write hfault
      · cases hreply
  | readMany reads =>
      rcases Traced.outcome_bind_eq_error_iff.mp h with hfault | ⟨calls, -, hreply⟩
      · obtain ⟨index, read, source, hread, rfl, hsource, hearlier⟩ :=
          first_fault_of_prepareReadsFrom hfault
        rw [Nat.zero_add]
        refine .readMany hread hsource fun earlier hmem => ?_
        obtain ⟨call, hcall⟩ := hearlier earlier hmem
        exact ⟨call, hcall, Call.access_of_prepare hcall⟩
      · cases hreply
  | watch description reference arity =>
      rcases Traced.outcome_bind_eq_error_iff.mp h with hfault | ⟨signature, -, hreply⟩
      · exact .watch hfault
      · cases hreply

/-! ## Steps and runs -/

/-- What a request comes to, and what becomes of the outbox.  What the request yields is put at the
end of the list for its kind; if it is refused, the outbox stays as it is. -/
inductive Served (settings : Settings) (outbox : Outbox) :
    Request → Except Fault Reply → Outbox → Prop
  | call {request : Request} {call : Call} (h : Yields settings request (.call call)) :
      Served settings outbox request (.ok (.call call))
        ⟨outbox.calls ++ [call], outbox.batches, outbox.subscriptions⟩
  | batch {request : Request} {calls : List Call} (h : Yields settings request (.batch calls)) :
      Served settings outbox request (.ok (.batch calls))
        ⟨outbox.calls, outbox.batches ++ [calls], outbox.subscriptions⟩
  | subscribed {request : Request} {subscribed : Subscribed}
      (h : Yields settings request (.subscribed subscribed)) :
      Served settings outbox request (.ok (.subscribed subscribed))
        ⟨outbox.calls, outbox.batches, outbox.subscriptions ++ [subscribed]⟩
  | refused {request : Request} {fault : Fault} (h : Refuses settings request fault) :
      Served settings outbox request (.error fault) outbox

/-- Requests that are served one after another, each with what it comes to. -/
inductive Run (settings : Settings) :
    Outbox → List Request → List (Except Fault Reply) → Outbox → Prop
  | nil (outbox : Outbox) : Run settings outbox [] [] outbox
  | cons {outbox next last : Outbox} {request : Request} {requests : List Request}
      {outcome : Except Fault Reply} {outcomes : List (Except Fault Reply)}
      (hserved : Served settings outbox request outcome next)
      (hrest : Run settings next requests outcomes last) :
      Run settings outbox (request :: requests) (outcome :: outcomes) last

/-- Serving a request is a step. -/
lemma served_serve (settings : Settings) (outbox : Outbox) (request : Request) :
    Served settings outbox request (serve settings outbox request).1.outcome
      (serve settings outbox request).2 := by
  rw [serve]
  cases hprepared : (prepare settings request).outcome with
  | error fault => exact .refused (refuses_of_prepare hprepared)
  | ok reply =>
      have hyields := yields_of_prepare hprepared
      cases reply with
      | call call => exact .call hyields
      | batch calls => exact .batch hyields
      | subscribed subscribed => exact .subscribed hyields

/-- Serving requests one after another is a run, whatever the outbox holds at first. -/
lemma run_serveAll (settings : Settings) (outbox : Outbox) (requests : List Request) :
    Run settings outbox requests (requests.map fun request => (prepare settings request).outcome)
      (serveAll settings outbox requests) := by
  induction requests generalizing outbox with
  | nil => exact .nil outbox
  | cons request requests ih => exact .cons (served_serve settings outbox request) (ih _)

/-! ## Where the contents of the outbox come from -/

/-- Everything that a list of the outbox holds at last was in it at first, or one of the requests
yields it. -/
def AccountsFor {α : Type} (settings : Settings) (reply : α → Reply) (requests : List Request)
    (first last : List α) : Prop :=
  ∀ item ∈ last, item ∈ first ∨ ∃ request ∈ requests, Yields settings request (reply item)

/-- All the lists of the outbox can be accounted for. -/
structure Accounted (settings : Settings) (requests : List Request) (first last : Outbox) :
    Prop where
  calls : AccountsFor settings .call requests first.calls last.calls
  batches : AccountsFor settings .batch requests first.batches last.batches
  subscriptions :
    AccountsFor settings .subscribed requests first.subscriptions last.subscriptions

namespace AccountsFor

variable {α : Type} {settings : Settings} {reply : α → Reply} {request : Request}
  {requests : List Request} {first next last : List α}

lemma refl (items : List α) : AccountsFor settings reply requests items items :=
  fun _ => .inl

lemma concat {added : α} (h : Yields settings request (reply added)) (items : List α) :
    AccountsFor settings reply [request] items (items ++ [added]) := by
  intro item hmem
  rcases List.mem_append.mp hmem with hold | hnew
  · exact .inl hold
  · rw [List.mem_singleton.mp hnew]
    exact .inr ⟨request, List.mem_singleton_self request, h⟩

lemma cons (hstep : AccountsFor settings reply [request] first next)
    (hrest : AccountsFor settings reply requests next last) :
    AccountsFor settings reply (request :: requests) first last := by
  intro item hlast
  rcases hrest item hlast with hnext | ⟨later, hlater, hyields⟩
  · rcases hstep item hnext with hfirst | ⟨served, hserved, hyields⟩
    · exact .inl hfirst
    · obtain rfl := List.mem_singleton.mp hserved
      exact .inr ⟨served, List.mem_cons_self, hyields⟩
  · exact .inr ⟨later, List.mem_cons_of_mem request hlater, hyields⟩

end AccountsFor

lemma accounted_of_served {settings : Settings} {outbox next : Outbox} {request : Request}
    {outcome : Except Fault Reply} (h : Served settings outbox request outcome next) :
    Accounted settings [request] outbox next := by
  cases h with
  | call hyields => exact ⟨.concat hyields _, .refl _, .refl _⟩
  | batch hyields => exact ⟨.refl _, .concat hyields _, .refl _⟩
  | subscribed hyields => exact ⟨.refl _, .refl _, .concat hyields _⟩
  | refused hrefuses => exact ⟨.refl _, .refl _, .refl _⟩

lemma accounted_of_run {settings : Settings} {first last : Outbox} {requests : List Request}
    {outcomes : List (Except Fault Reply)} (h : Run settings first requests outcomes last) :
    Accounted settings requests first last := by
  induction h with
  | nil outbox => exact ⟨.refl _, .refl _, .refl _⟩
  | cons hserved hrest ih =>
      have hstep := accounted_of_served hserved
      exact ⟨hstep.calls.cons ih.calls, hstep.batches.cons ih.batches,
        hstep.subscriptions.cons ih.subscriptions⟩

/-- **The gate.**  Whatever is asked of a session, and whatever it has handed on before, a request
is served in one step: what it yields is handed on as a whole, and if it is refused, nothing is.
Requests that are served one after another are a run of such steps.  Hence, of what the outbox holds
at last and did not hold at first, every single call is that of a read or a write that was asked
for, with that access; every batch is that of the reads that were asked for together, and all its
calls are reads; and every subscription is by a handler that takes what the event delivers. -/
theorem serveAll_gate (settings : Settings) (outbox : Outbox) (requests : List Request) :
    (∀ request, Served settings outbox request (serve settings outbox request).1.outcome
        (serve settings outbox request).2) ∧
      Run settings outbox requests (requests.map fun request => (prepare settings request).outcome)
        (serveAll settings outbox requests) ∧
      (∀ call ∈ (serveAll settings outbox requests).calls, call ∈ outbox.calls ∨
        ∃ description reference args,
          Request.read description reference args ∈ requests ∧ call.access = .read ∧
              (Call.prepare description reference .read args settings).outcome = .ok call ∨
            Request.write description reference args ∈ requests ∧ call.access = .write ∧
              (Call.prepare description reference .write args settings).outcome = .ok call) ∧
      (∀ calls ∈ (serveAll settings outbox requests).batches, calls ∈ outbox.batches ∨
        ∃ reads, Request.readMany reads ∈ requests ∧
          List.Forall₂ (ReadRequest.Yields settings) reads calls ∧
          ∀ call ∈ calls, call.access = .read) ∧
      ∀ subscribed ∈ (serveAll settings outbox requests).subscriptions,
        subscribed ∈ outbox.subscriptions ∨
          ∃ description reference,
            Request.watch description reference subscribed.arity ∈ requests ∧
              (Subscription.prepare description reference subscribed.arity settings).outcome =
                .ok subscribed.signature ∧
              subscribed.signature.arity = subscribed.arity := by
  have hrun := run_serveAll settings outbox requests
  have haccounted := accounted_of_run hrun
  refine ⟨served_serve settings outbox, hrun, fun call hcall => ?_, fun calls hcalls => ?_,
    fun subscribed hsubscribed => ?_⟩
  · refine (haccounted.calls call hcall).imp_right ?_
    rintro ⟨request, hrequest, hyields⟩
    cases hyields with
    | read hprepared haccess => exact ⟨_, _, _, .inl ⟨hrequest, haccess, hprepared⟩⟩
    | write hprepared haccess => exact ⟨_, _, _, .inr ⟨hrequest, haccess, hprepared⟩⟩
  · refine (haccounted.batches calls hcalls).imp_right ?_
    rintro ⟨request, hrequest, hyields⟩
    cases hyields with
    | readMany hreads =>
        refine ⟨_, hrequest, hreads, fun call hcall => ?_⟩
        obtain ⟨read, -, hread⟩ := exists_mem_of_forall₂ hreads hcall
        exact hread.2
  · refine (haccounted.subscriptions subscribed hsubscribed).imp_right ?_
    rintro ⟨request, hrequest, hyields⟩
    cases hyields with
    | watch hprepared harity => exact ⟨_, _, hrequest, hprepared, harity⟩

end Session

end ContractInterface

import Mathlib
import Remoting.Host.Dispatch

/-!
# Remoting.Proofs.Answering

How a host answers requests (`Host.dispatch_disciplined`). There is a response exactly when the
request expects one; it carries the header of the request; it is a result exactly when the root
object was asked for and there is one, or when the handler of the operation returned; and all other
responses say what failed. A handler runs at most once, and only for a request that leads to it.

Runs of handlers are counted by running the same dispatcher in a monad that notes them
(`Host.dispatchNoting`). What can become of a request is said once, in `Host.judge_cases`, and the
rest is read off the few replies that there are (`Host.Reply`).
-/

namespace Remoting

/-! ## Requests and their handlers -/

/-- Runs of handlers: what each handler saw and what it did. -/
abbrev HandlerLog := List (Invocation × Reaction)

/-- Run a handler and note that. -/
def Handler.note (handler : Handler) (i : Invocation) : StateM HandlerLog Reaction := do
  let reaction := handler i
  modify (· ++ [(i, reaction)])
  return reaction

/-- The fault that a handler ends with, if it does not return. -/
def Outcome.fault? : Outcome → Option Fault
  | .result _ => none
  | .fault f => some f
  | .crash message => some ⟨.internal, "handler panicked: " ++ message.getD "unknown panic", none⟩

/-- What a handler sees of a request that came on no connection. -/
def Frame.invocation (f : Frame) (servant : Servant) : Invocation :=
  ⟨f.header, f.payload, servant, false⟩

theorem ObjectTable.resolve_eq_some_iff {t : ObjectTable} {id : ObjectId} {servant : Servant} :
    t.resolve id = some servant ↔ id.isNull = false ∧ t.lookup id = some servant := by
  unfold resolve
  cases id.isNull <;> simp

theorem ObjectTable.resolve_eq_none_iff {t : ObjectTable} {id : ObjectId} :
    t.resolve id = none ↔ id.isNull = true ∨ t.lookup id = none := by
  unfold resolve
  cases id.isNull <;> simp

theorem Registry.lookup_of_serving {η : Type} {r : Registry η} (hserving : r.serving = true)
    (digest : Digest) : r.lookup digest = .ok ((r.find? digest).map (·.handler)) := by
  rw [lookup, hserving]
  rfl

namespace Host

variable {h : Host} {f : Frame}

/-- Answer a request and note the handlers that run. -/
def dispatchNoting (h : Host) (f : Frame) : (Option Frame × Host) × HandlerLog :=
  (h.dispatchWith Handler.note f).run []

/-- A message is a request for an operation that has a handler, and concerns an object. -/
structure Routes (h : Host) (f : Frame) (entry : Registered Handler) (servant : Servant) :
    Prop where
  request : f.header.kind.isResponse = false
  operation : f.header.kind ≠ .helloRequest
  registered : h.registry.find? f.header.digest = some entry
  nonnull : f.header.target.isNull = false
  present : h.objects.lookup f.header.target = some servant

/-- What is wrong with a request before any handler runs. -/
inductive Refuses (h : Host) (f : Frame) : Fault → Prop where
  | noRoot (hello : f.header.kind = .helloRequest) (root : h.objects.root = none) :
    Refuses h f ⟨.dispatch, "no root object", none⟩
  | unknownOperation (operation : f.header.kind ≠ .helloRequest)
      (unregistered : h.registry.find? f.header.digest = none) :
    Refuses h f ⟨.dispatch, "unknown operation " ++ f.header.digest.render, none⟩
  | unresolvedTarget {entry : Registered Handler} (operation : f.header.kind ≠ .helloRequest)
      (registered : h.registry.find? f.header.digest = some entry)
      (absent : f.header.target.isNull = true ∨ h.objects.lookup f.header.target = none) :
    Refuses h f ⟨.dispatch, "unresolved target " ++ f.header.target.render, none⟩

/-! ## What can become of a request -/

/-- A request goes to one handler and one object. -/
theorem Routes.unique {entry entry' : Registered Handler} {servant servant' : Servant}
    (hr : h.Routes f entry servant) (hr' : h.Routes f entry' servant') :
    entry' = entry ∧ servant' = servant :=
  ⟨Option.some.inj (hr'.registered.symm.trans hr.registered),
    Option.some.inj (hr'.present.symm.trans hr.present)⟩

/-- One run of the handler that a message leads to is all the runs there can be. -/
theorem Routes.mem_singleton_iff {entry : Registered Handler} {servant : Servant}
    (hr : h.Routes f entry servant) (i : Invocation) (reaction : Reaction) :
    (i, reaction) ∈ [(f.invocation servant, entry.handler (f.invocation servant))] ↔
      ∃ entry servant, h.Routes f entry servant ∧ i = f.invocation servant ∧
        reaction = entry.handler i := by
  rw [List.mem_singleton, Prod.mk.injEq]
  constructor
  · rintro ⟨rfl, rfl⟩
    exact ⟨entry, servant, hr, rfl, rfl⟩
  · rintro ⟨entry', servant', hr', rfl, rfl⟩
    obtain ⟨rfl, rfl⟩ := hr.unique hr'
    exact ⟨rfl, rfl⟩

theorem Refuses.root_eq_none {fault : Fault} (hr : h.Refuses f fault)
    (hhello : f.header.kind = .helloRequest) : h.objects.root = none := by
  cases hr with
  | noRoot hello root => exact root
  | unknownOperation operation => exact absurd hhello operation
  | unresolvedTarget operation => exact absurd hhello operation

/-- What is refused leads to no handler. -/
theorem Refuses.not_routes {fault : Fault} (hr : h.Refuses f fault) (entry : Registered Handler)
    (servant : Servant) : ¬ h.Routes f entry servant := by
  intro hroutes
  cases hr with
  | noRoot hello root => exact hroutes.operation hello
  | unknownOperation operation unregistered =>
    exact absurd hroutes.registered (by simp [unregistered])
  | unresolvedTarget operation registered absent =>
    rcases absent with hnull | hlookup
    · exact absurd hnull (by simp [hroutes.nonnull])
    · exact absurd hlookup (by simp [hroutes.present])

theorem judge_of_hello {request : Header} (hhello : request.kind = .helloRequest) :
    h.judge request = .answered (some (h.welcome request)) := by
  have hrequest : ¬ request.kind.isResponse = true := by
    rw [hhello]
    decide
  rw [judge, if_neg hrequest, if_pos hhello]

/-- What a host that serves decides on a request for an operation. -/
theorem judge_of_operation (hserving : h.registry.serving = true) {request : Header}
    (hrequest : request.kind.isResponse = false) (hoperation : request.kind ≠ .helloRequest) :
    h.judge request =
      match h.registry.find? request.digest, h.objects.resolve request.target with
      | none, _ =>
        .answered (refuse request ⟨.dispatch, "unknown operation " ++ request.digest.render, none⟩)
      | some _, none =>
        .answered (refuse request ⟨.dispatch, "unresolved target " ++ request.target.render, none⟩)
      | some entry, some servant => .invoke entry.handler servant := by
  rw [judge, if_neg (by simp [hrequest]), if_neg hoperation, Registry.lookup_of_serving hserving]
  cases h.registry.find? request.digest with
  | none => rfl
  | some entry => cases h.objects.resolve request.target <;> rfl

/-- What a host that serves decides on a message: nothing on a response, the root object or a
refusal, or that the handler runs. -/
theorem judge_cases (hserving : h.registry.serving = true) (f : Frame) :
    (f.header.kind.isResponse = true ∧ h.judge f.header = .answered none) ∨
    (∃ root, f.header.kind = .helloRequest ∧ h.objects.root = some root ∧
      h.judge f.header = .answered (some (.resultFor f.header [.object root]))) ∨
    (∃ fault, f.header.kind.isResponse = false ∧ h.Refuses f fault ∧
      h.judge f.header = .answered (refuse f.header fault)) ∨
    ∃ entry servant, h.Routes f entry servant ∧
      h.judge f.header = .invoke entry.handler servant := by
  by_cases hresponse : f.header.kind.isResponse = true
  · exact .inl ⟨hresponse, by rw [judge, if_pos hresponse]⟩
  have hrequest : f.header.kind.isResponse = false := by simpa using hresponse
  by_cases hhello : f.header.kind = .helloRequest
  · have hjudge := judge_of_hello (h := h) hhello
    unfold welcome at hjudge
    split at hjudge
    · next root hroot => exact .inr (.inl ⟨root, hhello, hroot, hjudge⟩)
    · next hroot =>
      refine .inr (.inr (.inl ⟨_, hrequest, .noRoot hhello hroot, ?_⟩))
      rw [hjudge, refuse, hhello]
      rfl
  · have hjudge := judge_of_operation hserving hrequest hhello
    split at hjudge
    · next hfind => exact .inr (.inr (.inl ⟨_, hrequest, .unknownOperation hhello hfind, hjudge⟩))
    · next entry hfind hresolve =>
      have habsent := ObjectTable.resolve_eq_none_iff.mp hresolve
      exact .inr (.inr (.inl ⟨_, hrequest, .unresolvedTarget hhello hfind habsent, hjudge⟩))
    · next entry servant hfind hresolve =>
      obtain ⟨hnonnull, hpresent⟩ := ObjectTable.resolve_eq_some_iff.mp hresolve
      have hroutes : h.Routes f entry servant := ⟨hrequest, hhello, hfind, hnonnull, hpresent⟩
      exact .inr (.inr (.inr ⟨entry, servant, hroutes, hjudge⟩))

/-! ## Replies -/

/-- What a host has to say on a request, and the handlers that have run for it. -/
inductive Reply (h : Host) (f : Frame) : HandlerLog → Frame → Prop where
  | root {id : ObjectId} (hello : f.header.kind = .helloRequest) (root : h.objects.root = some id) :
    Reply h f [] (.resultFor f.header [.object id])
  | refusal {fault : Fault} (refuses : h.Refuses f fault) : Reply h f [] (.errorFor f.header fault)
  | result {entry : Registered Handler} {servant : Servant} {payload : List Field}
      (routes : h.Routes f entry servant)
      (returned : (entry.handler (f.invocation servant)).outcome = .result payload) :
    Reply h f [(f.invocation servant, entry.handler (f.invocation servant))]
      (.resultFor f.header payload)
  | failure {entry : Registered Handler} {servant : Servant} {fault : Fault}
      (routes : h.Routes f entry servant)
      (failed : (entry.handler (f.invocation servant)).outcome.fault? = some fault) :
    Reply h f [(f.invocation servant, entry.handler (f.invocation servant))]
      (.errorFor f.header fault)

theorem dispatchNoting_of_answered {response : Option Frame}
    (hjudge : h.judge f.header = .answered response) :
    h.dispatchNoting f = ((response, h), []) := by
  rw [dispatchNoting, dispatchWith, hjudge]
  rfl

theorem dispatchNoting_of_invoke {handler : Handler} {servant : Servant}
    (hjudge : h.judge f.header = .invoke handler servant) :
    h.dispatchNoting f =
      ((conclude f.header (handler (f.invocation servant)).outcome,
        h.apply f.header.target (handler (f.invocation servant))),
       [(f.invocation servant, handler (f.invocation servant))]) := by
  rw [dispatchNoting, dispatchWith, hjudge]
  rfl

/-- Noting what was invoked changes no answer. -/
theorem dispatchNoting_fst (h : Host) (f : Frame) : (h.dispatchNoting f).1 = h.dispatch f := by
  unfold dispatchNoting dispatch dispatchWith
  cases h.judge f.header <;> rfl

theorem conclude_cases (request : Header) (outcome : Outcome) :
    (∃ payload, outcome = .result payload ∧ conclude request outcome =
      if request.kind.expectsResponse then some (.resultFor request payload) else none) ∨
    ∃ fault, outcome.fault? = some fault ∧ conclude request outcome = refuse request fault := by
  cases outcome with
  | result payload => exact .inl ⟨payload, rfl, rfl⟩
  | fault fault => exact .inr ⟨fault, rfl, rfl⟩
  | crash message => exact .inr ⟨_, rfl, rfl⟩

/-- A request has one of the replies, which is sent if a response is expected. -/
theorem exists_reply (hserving : h.registry.serving = true)
    (hrequest : f.header.kind.isResponse = false) :
    ∃ reply, h.Reply f (h.dispatchNoting f).2 reply ∧
      (h.dispatchNoting f).1.1 = if f.header.kind.expectsResponse then some reply else none := by
  rcases judge_cases hserving f with ⟨hresponse, -⟩ | ⟨root, hhello, hroot, hjudge⟩ |
    ⟨fault, -, hrefuses, hjudge⟩ | ⟨entry, servant, hroutes, hjudge⟩
  · simp [hrequest] at hresponse
  · rw [dispatchNoting_of_answered hjudge]
    refine ⟨_, .root hhello hroot, ?_⟩
    rw [hhello]
    rfl
  · rw [dispatchNoting_of_answered hjudge]
    exact ⟨_, .refusal hrefuses, rfl⟩
  · rw [dispatchNoting_of_invoke hjudge]
    rcases conclude_cases f.header (entry.handler (f.invocation servant)).outcome with
      ⟨payload, houtcome, hconclude⟩ | ⟨fault, hfault, hconclude⟩
    · exact ⟨_, .result hroutes houtcome, hconclude⟩
    · exact ⟨_, .failure hroutes hfault, hconclude⟩

/-- A response is not answered, and no handler runs for it. -/
theorem dispatchNoting_of_isResponse (hresponse : f.header.kind.isResponse = true) :
    h.dispatchNoting f = ((none, h), []) :=
  dispatchNoting_of_answered (by rw [judge, if_pos hresponse])

/-! ## Discipline -/

/-- A request succeeds with a payload: it asks for the root object and this is it, or the handler
has run and returned it. -/
def Succeeds (h : Host) (f : Frame) (log : HandlerLog) (payload : List Field) : Prop :=
  (∃ root, f.header.kind = .helloRequest ∧ h.objects.root = some root ∧
    payload = [.object root]) ∨
  ∃ entry servant reaction, h.Routes f entry servant ∧ (f.invocation servant, reaction) ∈ log ∧
    reaction.outcome = .result payload

/-- A request fails with a fault: it is refused, or the handler has run and failed. -/
def Fails (h : Host) (f : Frame) (log : HandlerLog) (fault : Fault) : Prop :=
  h.Refuses f fault ∨ ∃ i reaction, (i, reaction) ∈ log ∧ reaction.outcome.fault? = some fault

/-- The rules for the response to a message and for the handlers that run for it. -/
structure Disciplined (h : Host) (f : Frame) (log : HandlerLog) (response : Option Frame) :
    Prop where
  answered : response.isSome = true ↔ f.header.kind.expectsResponse = true
  header : ∀ r, response = some r →
    r.header.connection = f.header.connection ∧ r.header.target = f.header.target ∧
      r.header.digest = f.header.digest ∧ r.header.callId = f.header.callId ∧
      (r.header.kind = .callResult ∨ r.header.kind = .error)
  result : ∀ r payload, response = some r →
    (r.header.kind = .callResult ∧ r.payload = payload ↔ h.Succeeds f log payload)
  error : ∀ r, response = some r → r.header.kind = .error →
    ∃ fault, h.Fails f log fault ∧ r.payload = [.string fault.wireDomain, .string fault.message]
  once : log.length ≤ 1
  invoked : ∀ i reaction, (i, reaction) ∈ log ↔
    ∃ entry servant, h.Routes f entry servant ∧ i = f.invocation servant ∧
      reaction = entry.handler i

namespace Reply

variable {log : HandlerLog} {r : Frame}

/-- A reply has the header of its request, but for the kind. -/
theorem header_eq (hr : h.Reply f log r) :
    r.header = f.header.respond .callResult ∨ r.header = f.header.respond .error := by
  cases hr with
  | root | result => exact .inl rfl
  | refusal | failure => exact .inr rfl

/-- A handler is invoked once at most. -/
theorem length_log_le (hr : h.Reply f log r) : log.length ≤ 1 := by
  cases hr <;> simp

theorem mem_log_iff (hr : h.Reply f log r) (i : Invocation) (reaction : Reaction) :
    (i, reaction) ∈ log ↔ ∃ entry servant, h.Routes f entry servant ∧ i = f.invocation servant ∧
      reaction = entry.handler i := by
  cases hr with
  | root hello _ =>
    refine ⟨fun hmem => absurd hmem List.not_mem_nil, fun ⟨_, _, hroutes, _⟩ => ?_⟩
    exact absurd hello hroutes.operation
  | refusal refuses =>
    refine ⟨fun hmem => absurd hmem List.not_mem_nil, fun ⟨entry, servant, hroutes, _⟩ => ?_⟩
    exact absurd hroutes (refuses.not_routes entry servant)
  | result routes _ => exact routes.mem_singleton_iff i reaction
  | failure routes _ => exact routes.mem_singleton_iff i reaction

/-- A result is the root object, or what a handler has returned. -/
theorem succeeds_iff (hr : h.Reply f log r) (payload : List Field) :
    r.header.kind = .callResult ∧ r.payload = payload ↔ h.Succeeds f log payload := by
  cases hr with
  | root hello root =>
    constructor
    · rintro ⟨-, rfl⟩
      exact .inl ⟨_, hello, root, rfl⟩
    · rintro (⟨id, -, hroot, rfl⟩ | ⟨_, _, _, hroutes, -⟩)
      · rw [Option.some.inj (hroot.symm.trans root)]
        exact ⟨rfl, rfl⟩
      · exact absurd hello hroutes.operation
  | refusal refuses =>
    constructor
    · rintro ⟨hkind, -⟩
      contradiction
    · rintro (⟨id, hello, hroot, -⟩ | ⟨entry, servant, _, hroutes, -⟩)
      · rw [refuses.root_eq_none hello] at hroot
        contradiction
      · exact absurd hroutes (refuses.not_routes entry servant)
  | result routes returned =>
    constructor
    · rintro ⟨-, rfl⟩
      exact .inr ⟨_, _, _, routes, List.mem_singleton_self _, returned⟩
    · rintro (⟨_, hello, -⟩ | ⟨_, _, reaction, hroutes, hmem, houtcome⟩)
      · exact absurd hello routes.operation
      · rw [(Prod.mk.inj (List.mem_singleton.mp hmem)).2, returned] at houtcome
        exact ⟨rfl, Outcome.result.inj houtcome⟩
  | failure routes failed =>
    constructor
    · rintro ⟨hkind, -⟩
      contradiction
    · rintro (⟨_, hello, -⟩ | ⟨_, _, reaction, hroutes, hmem, houtcome⟩)
      · exact absurd hello routes.operation
      · rw [(Prod.mk.inj (List.mem_singleton.mp hmem)).2] at houtcome
        rw [houtcome] at failed
        contradiction

/-- An error tells the fault. -/
theorem exists_fails (hr : h.Reply f log r) (hkind : r.header.kind = .error) :
    ∃ fault, h.Fails f log fault ∧
      r.payload = [.string fault.wireDomain, .string fault.message] := by
  cases hr with
  | root | result => contradiction
  | refusal refuses => exact ⟨_, .inl refuses, rfl⟩
  | failure routes failed => exact ⟨_, .inr ⟨_, _, List.mem_singleton_self _, failed⟩, rfl⟩

/-- A reply that is sent exactly if a response is expected keeps to the rules. -/
theorem disciplined (hr : h.Reply f log r) :
    h.Disciplined f log (if f.header.kind.expectsResponse then some r else none) := by
  have hsent {r' : Frame}
      (hr' : (if f.header.kind.expectsResponse then some r else none) = some r') : r' = r := by
    split at hr'
    · exact (Option.some.inj hr').symm
    · contradiction
  refine ⟨?_, ?_, ?_, ?_, hr.length_log_le, hr.mem_log_iff⟩
  · cases f.header.kind.expectsResponse <;> simp
  · intro r' hr'
    rw [hsent hr']
    rcases hr.header_eq with hheader | hheader <;> simp [hheader, Header.respond]
  · intro r' payload hr'
    rw [hsent hr']
    exact hr.succeeds_iff payload
  · intro r' hr' hkind
    rw [hsent hr'] at hkind ⊢
    exact hr.exists_fails hkind

end Reply

/-- To ignore a response keeps to the rules. -/
theorem disciplined_of_isResponse (hresponse : f.header.kind.isResponse = true) :
    h.Disciplined f [] none := by
  refine ⟨?_, by simp, by simp, by simp, by simp, fun i reaction => ?_⟩
  · simp [MessageKind.expectsResponse_of_isResponse hresponse]
  · refine ⟨fun hmem => absurd hmem List.not_mem_nil, fun ⟨_, _, hroutes, _⟩ => ?_⟩
    exact absurd hresponse (by simp [hroutes.request])

/-- **A host that serves keeps to the rules**, whatever the message is and whatever its handlers
do. -/
theorem dispatch_disciplined (h : Host) (hserving : h.registry.serving = true) (f : Frame) :
    (h.dispatchNoting f).1 = h.dispatch f ∧
      h.Disciplined f (h.dispatchNoting f).2 (h.dispatch f).1 := by
  refine ⟨dispatchNoting_fst h f, ?_⟩
  rw [← dispatchNoting_fst]
  by_cases hresponse : f.header.kind.isResponse = true
  · rw [dispatchNoting_of_isResponse hresponse]
    exact disciplined_of_isResponse hresponse
  · have hrequest : f.header.kind.isResponse = false := by simpa using hresponse
    obtain ⟨reply, hreply, hsent⟩ := exists_reply hserving hrequest
    rw [hsent]
    exact hreply.disciplined

/-- A host whose only handler breaks down. -/
def printer : Host where
  registry :=
    { entries := [⟨⟨0, 1⟩, "print", Script.run (.crash (some "out of paper"))⟩], serving := true }
  objects := { objects := [(⟨1⟩, { interface := ⟨7⟩ })], root := some ⟨1⟩ }

def printRequest : Frame :=
  ⟨{ kind := .twoWayCall, target := ⟨1⟩, digest := ⟨0, 1⟩, callId := ⟨5⟩ }, [.string "page"]⟩

theorem dispatch_disciplined_printer :
    printer.registry.serving = true ∧
      (printer.dispatchNoting printRequest).1 = printer.dispatch printRequest ∧
      printer.Disciplined printRequest (printer.dispatchNoting printRequest).2
        (printer.dispatch printRequest).1 ∧
      (printer.dispatchNoting printRequest).2.length = 1 ∧
      (printer.dispatch printRequest).1 =
        some (.errorFor printRequest.header
          ⟨.internal, "handler panicked: out of paper", none⟩) := by
  obtain ⟨hsame, hrules⟩ := dispatch_disciplined printer rfl printRequest
  exact ⟨rfl, hsame, hrules, rfl, rfl⟩

end Host

end Remoting

import Remoting.Proofs.CallRuns

/-!
# Remoting.Proofs.RemoteCall

Remote calls are transparent: a request through a client comes to the same result as dispatching it
at the host (`Net.request_transparent`). The one exception is a result that is nested too deep to be
read; then the call fails, and the connection stays open.

`Net.attached` sets a client and a server up at the two ends of a link; they are idle in the
beginning (`Net.idle_of_attached`).
-/

namespace Remoting

/-! ## Results -/

/-- The report about the fields of a result. -/
def Report.ofFields : Except Fault (List Field) → Report
  | .ok payload => .fields payload
  | .error e => .fault e

theorem Frame.toResult_of_result {r : Frame} (hkind : r.header.kind = .callResult) :
    r.toResult = .ok r.payload := by
  rw [toResult, hkind]

theorem Frame.toResult_of_error {r : Frame} {domain message : String}
    (hkind : r.header.kind = .error)
    (hpayload : r.payload = [.string domain, .string message]) :
    r.toResult = .error (Fault.remote domain message) := by
  rw [toResult, hkind, hpayload]
  rfl

/-- Frames that respect the limit of a link are shorter than a length can say. -/
theorem Direction.frameLimit_lt (d : Direction) : d.frameLimit < 2 ^ 32 := by
  unfold frameLimit
  split
  · decide
  · omega

/-- What a reply says: exactly what the handler returned, or the wire domain and the message of the
fault of the handler or of the host. -/
structure Host.Tells (host : Host) (request : Frame) (result : Except Fault (List Field)) :
    Prop where
  ok : ∀ payload, result = .ok payload ↔
    host.Succeeds request (host.dispatchNoting request).2 payload
  error : ∀ fault, result = .error fault → ∃ cause,
    host.Fails request (host.dispatchNoting request).2 cause ∧
      fault = Fault.remote cause.wireDomain cause.message

/-- A host that serves replies to every request that expects a response. -/
theorem Host.exists_dispatch {host : Host} (hserving : host.registry.serving = true)
    (request : Frame) (hkind : request.header.kind.expectsResponse = true) :
    ∃ reply, (host.dispatch request).1 = some reply ∧
      (reply.header = request.header.respond .callResult ∨
        reply.header = request.header.respond .error) ∧
      host.Tells request reply.toResult := by
  have hrequest : request.header.kind.isResponse = false := by
    by_contra hresponse
    rw [MessageKind.expectsResponse_of_isResponse (by simpa using hresponse)] at hkind
    contradiction
  obtain ⟨reply, hreply, hdispatch⟩ := exists_reply hserving hrequest
  rw [dispatchNoting_fst, if_pos hkind] at hdispatch
  refine ⟨reply, hdispatch, hreply.header_eq, ?_⟩
  rcases hreply.header_eq with hheader | hheader
  · have hkind' : reply.header.kind = .callResult := by
      rw [hheader]
      rfl
    rw [Frame.toResult_of_result hkind']
    refine ⟨fun payload => ?_, fun fault hfault => nomatch hfault⟩
    rw [← hreply.succeeds_iff payload, Except.ok.injEq]
    exact ⟨fun hpayload => ⟨hkind', hpayload⟩, fun hsucceeds => hsucceeds.2⟩
  · have hkind' : reply.header.kind = .error := by
      rw [hheader]
      rfl
    obtain ⟨cause, hfails, hpayload⟩ := hreply.exists_fails hkind'
    rw [Frame.toResult_of_error hkind' hpayload]
    refine ⟨fun payload => ?_, fun fault hfault => ⟨cause, hfails, (Except.error.inj hfault).symm⟩⟩
    rw [← hreply.succeeds_iff payload, hkind']
    simp

/-! ## Calls of an idle client -/

/-- A request of an idle client as it goes out. -/
def Picture.outgoing (pic : Picture) (frame : Frame) : Frame :=
  (frame.numbered pic.calls.pending.register.1).sentOn pic.calls.id

/-- What is assumed about a call of an idle client: it is not one of too many, the host serves and
the handler leaves the connection alone, the request expects a response and is not nested too deep,
and both frames are short enough for the link. -/
structure Picture.Admits (pic : Picture) (frame : Frame) : Prop where
  calls : pic.calls.pending.calls.length + 1 < 2 ^ 64
  serving : pic.host.registry.serving = true
  detaches : pic.host.Detaches (pic.outgoing frame)
  expects : frame.header.kind.expectsResponse = true
  nesting : Field.nestingEach frame.payload ≤ Field.maxNesting
  out : (pic.outgoing frame).encodedLength ≤ (pic.link.direction pic.side).frameLimit
  back : ∀ reply, (pic.host.dispatch (pic.outgoing frame)).1 = some reply →
    (reply.sentOn pic.service.id).encodedLength ≤ (pic.link.direction pic.side.other).frameLimit

section

variable {pic : Picture} {frame reply : Frame} {purpose : Purpose} {judge : Response → Report}

theorem Picture.Admits.sound (hadmits : pic.Admits frame) (hidle : pic.Idle)
    (hreply : (pic.host.dispatch (pic.outgoing frame)).1 = some reply)
    (hheader : reply.header = (pic.outgoing frame).header.respond .callResult ∨
      reply.header = (pic.outgoing frame).header.respond .error)
    (hconcludes : ∀ (net : Net) (r : Response), net.conclude r purpose = net.stop (judge r))
    (hfails : ∀ fault, judge (.error fault) = .fault fault) :
    (pic.exchange frame reply purpose judge).Sound where
  peer := hidle.peer
  expects := hadmits.expects
  concludes := hconcludes
  fails := hfails
  detaches := hadmits.detaches
  replies := hreply
  header := hheader
  fits := by
    refine Frame.fits_of_encodedLength_lt ?_ hadmits.nesting
    exact lt_of_le_of_lt hadmits.out (Direction.frameLimit_lt _)
  outSmall := hadmits.out
  backSmall := hadmits.back reply hreply
  fresh := hidle.numbered.find?_next hadmits.calls
  isOpen := hidle.isOpen
  serves := hidle.serves

/-- What the response comes to for the client depends on how deep it is nested. -/
theorem Exchange.Yields.cases {x : Exchange} {r : Response} (h : x.Yields r)
    (hsmall : x.response.encodedLength < 2 ^ 32) :
    (Field.nestingEach x.reply.payload ≤ Field.maxNesting ∧ r = .ok x.response) ∨
    (Field.maxNesting < Field.nestingEach x.reply.payload ∧
      ∃ error : FramingError, r = .error error.toFault) := by
  cases h with
  | whole hfits =>
    refine .inl ⟨Field.nestingEach_le_iff.mpr fun f hf => ?_, rfl⟩
    exact Field.nestingEach_le_iff.mp hfits.nested f (List.mem_append_right _ hf)
  | damaged hnot error =>
    refine .inr ⟨?_, error, rfl⟩
    by_contra hnesting
    exact hnot (Frame.fits_of_encodedLength_lt hsmall (Nat.le_of_not_lt hnesting))

end

namespace Net

/-- **Remote calls are transparent.** A request of an idle client has a reply, which says exactly
what the handler returned, or the domain and the message of what went wrong. In every run the report
about the request is what the reply says, or a framing fault if the reply is nested too deep to be
read, or a missed deadline if so much time has passed. In the end the connection is open and idle
again, and the host is as after dispatching the request. The request is the only one under way;
calls that are under way at the same time are the subject of `correlated_of_follow`. -/
theorem request_transparent {net : Net} {pic : Picture} (h : net.Pictures pic) (hidle : pic.Idle)
    (kind : MessageKind) (target : ObjectId) (digest : Digest) (args : List Field)
    (hadmits : pic.Admits (Request.frame kind target digest args)) :
    ∃ request reply net', request = pic.outgoing (Request.frame kind target digest args) ∧
      (pic.host.dispatch request).1 = some reply ∧ pic.host.Tells request reply.toResult ∧
      net.request 0 kind target digest args = some (pic.nextTicket, net') ∧
      net'.Completes pic.nextTicket pic.client.settings.timeout.toNat (pic.host.delayOf request)
        (fun report =>
          (Field.nestingEach reply.payload ≤ Field.maxNesting ∧
            report = .ofFields reply.toResult) ∨
          (Field.maxNesting < Field.nestingEach reply.payload ∧
            ∃ error : FramingError, report = .fault error.toFault))
        (fun pic' => pic'.Idle ∧ pic'.host = (pic.host.dispatch request).2 ∧
          ∃ report, pic'.reports = pic.reports ++ [(pic.nextTicket, report)]) := by
  obtain ⟨reply, hreply, hheader, htells⟩ :=
    Host.exists_dispatch hadmits.serving (pic.outgoing (Request.frame kind target digest args))
      hadmits.expects
  have hsound : (pic.exchange (Request.frame kind target digest args) reply .fields
      fun r => .ofFields (Request.fields r)).Sound := by
    refine hadmits.sound hidle hreply hheader (fun net r => ?_) fun fault => rfl
    rw [conclude]
    cases Request.fields r <;> rfl
  obtain ⟨net', hcall, hresolves⟩ := call_resolves h hidle hsound
  refine ⟨_, reply, net', rfl, hreply, htells, hcall, hresolves.imp ?_ ?_⟩
  · rintro report ⟨r, hyields, rfl⟩
    have hsmall := lt_of_le_of_lt (hadmits.back reply hreply) (Direction.frameLimit_lt _)
    rcases hyields.cases hsmall with ⟨hnesting, rfl⟩ | ⟨hnesting, error, rfl⟩
    · exact .inl ⟨hnesting, rfl⟩
    · exact .inr ⟨hnesting, error, rfl⟩
  · intro pic' hleaves
    exact ⟨hleaves.idle, hleaves.host, hleaves.reported⟩

/-! ## A client and a server -/

/-- A client at one end of a link and a server at the other. -/
def attached (host : Host) (link : Link) (side : Side) (settings : ClientSettings)
    (maxInFlight : Nat) : Except SetupError Net := do
  let (_, net) := ({ host } : Net).join link
  let (_, net) ← net.addClient side.index settings
  let net ← net.addServer maxInFlight
  let (_, net) ← net.serve side.other.index
  return net

end Net

/-- A link that nothing has been sent on. A stream needs some room. -/
inductive Link.New : Link → Prop where
  | memory : New .memory
  | stream {capacity : Nat} (limit : Nat) (h : 0 < capacity) : New (.stream capacity limit)

/-- What a client and a server look like in the beginning. -/
def Picture.attached (host : Host) (link : Link) (side : Side) (settings : ClientSettings)
    (maxInFlight : Nat) : Picture where
  now := 0
  side
  link := (link.split side).split side.other
  client := { settings, peer := 0 }
  calls := {}
  outbound := .ofCapacity 256
  signals := .ofCapacity 256
  service := { id := ⟨1⟩ }
  requests := .ofCapacity 256
  responses := .ofCapacity 256
  server := { Server.ofLimit maxInFlight with nextConnection := 2 }
  host
  jobs := fun
    | .clientWriter | .serverWriter => some .write
    | .clientReader | .serverReader => some .read
    | .router => some (.route 0)
    | .listener => some (.serve 0)
    | .caller | .worker => none
  call := 6
  ticket := 0
  nextTask := 6
  nextTicket := 0
  reports := []

namespace Net

variable {host : Host} {link : Link} {side : Side} {settings : ClientSettings} {maxInFlight : Nat}
  {net : Net}

theorem pictures_of_attached (h : attached host link side settings maxInFlight = .ok net) :
    net.Pictures (.attached host link side settings maxInFlight) := by
  unfold attached at h
  obtain ⟨⟨n, net₁⟩, hclient, h⟩ := bind_eq_ok_iff.mp h
  obtain ⟨net₂, hserver, h⟩ := bind_eq_ok_iff.mp h
  obtain ⟨⟨connection, net₃⟩, hserve, h⟩ := bind_eq_ok_iff.mp h
  cases h
  unfold addClient at hclient
  split at hclient
  · obtain ⟨-, rfl⟩ := Prod.mk.inj (Except.ok.inj hclient)
    obtain rfl := eq_of_addServer hserver
    unfold serve at hserve
    simp only at hserve
    split at hserve
    · contradiction
    · next s hs =>
      obtain rfl : Server.ofLimit maxInFlight = s := Option.some.inj hs
      split at hserve
      · obtain ⟨-, rfl⟩ := Prod.mk.inj (Except.ok.inj hserve)
        have htasks (id : Nat) : ([⟨0, 0, .write, none⟩, ⟨1, 0, .read, none⟩,
            ⟨2, 0, .route 0, none⟩, ⟨3, 1, .write, none⟩, ⟨4, 1, .read, none⟩,
            ⟨5, 1, .serve 0, none⟩] : List Task).find? (·.id == id) =
            (Picture.attached host link side settings maxInFlight).task? id := by
          rcases id with _ | _ | _ | _ | _ | _ | n
          iterate 6 rfl
          rcases n with _ | _ | n <;> simp [Picture.task?, Actor.ofId?, Picture.attached]
        cases side <;> exact ⟨rfl, rfl, rfl, rfl, rfl, rfl, rfl, rfl, rfl, le_rfl, htasks⟩
      · contradiction
  · contradiction

/-- A client and a server at the ends of a new link are idle. -/
theorem idle_of_attached (hnew : link.New) :
    (Picture.attached host link side settings maxInFlight).Idle := by
  have hgate {α : Type} : (Channel.ofCapacity 256 : Channel α).gate.Passable false none :=
    ⟨rfl, rfl, .inr (.inl (Nat.succ_pos 255))⟩
  have hplaces : (Server.ofLimit maxInFlight).gate.Passable false none :=
    ⟨rfl, rfl, .inr (.inl (Nat.lt_of_lt_of_le Nat.one_pos (Nat.le_max_right _ _)))⟩
  have hclear (from' : Side) :
      (((link.split side).split side.other).direction from').Conveys [] ∧
        (((link.split side).split side.other).direction from').Drained := by
    cases hnew with
    | memory =>
      cases side <;> cases from' <;>
        exact ⟨.mailbox {} rfl rfl rfl rfl rfl (by simp), trivial⟩
    | stream limit hcapacity =>
      rename_i capacity
      cases side <;> cases from' <;>
        exact ⟨.pipe { capacity } rfl rfl rfl hcapacity
          ⟨rfl, rfl, fun _ => Envelope.unwrap_nil _⟩ (by simp), rfl⟩
  exact {
    peer := rfl
    isOpen := rfl
    numbered := ⟨rfl, rfl⟩
    clientWriter := rfl
    clientReader := rfl
    router := rfl
    serverWriter := rfl
    serverReader := rfl
    listener := rfl
    caller := rfl
    worker := rfl
    out := hclear side
    outbound := rfl
    outGate := hgate
    back := hclear side.other
    responses := rfl
    backGate := hgate
    requests := rfl
    requestsOpen := rfl
    requestGate := hgate
    signals := rfl
    signalsOpen := rfl
    places := hplaces
    serves := rfl
    call := rfl
    ticket := rfl
    tickets := by simp [Picture.attached] }

theorem addServer_eq_ok (hserving : net.host.registry.serving = true)
    (hplaces : maxInFlight ≤ Gate.maxPlaces) :
    net.addServer maxInFlight =
      .ok { net with servers := net.servers ++ [.ofLimit maxInFlight] } := by
  have hserver : ¬ Gate.maxPlaces < maxInFlight := Nat.not_lt.mpr hplaces
  rw [addServer, Host.checkServing, if_pos hserving]
  show (if _ then _ else _) = _
  exact if_neg hserver

/-- A host that serves can be attached to a client by a new link. -/
theorem exists_attached (hnew : link.New) (hserving : host.registry.serving = true)
    (hplaces : maxInFlight ≤ Gate.maxPlaces) (side : Side) (settings : ClientSettings) :
    ∃ net, attached host link side settings maxInFlight = .ok net := by
  have hfree : (({ host } : Net).join link).2.isFree side.index = true := by
    cases hnew <;> cases side <;> rfl
  obtain ⟨net₁, hclient, hhost, hservers, hfree'⟩ : ∃ net₁,
      (({ host } : Net).join link).2.addClient side.index settings = .ok (0, net₁) ∧
        net₁.host = host ∧ net₁.servers = [] ∧ net₁.isFree side.other.index = true := by
    refine ⟨_, if_pos hfree, rfl, rfl, ?_⟩
    cases hnew <;> cases side <;> rfl
  have hserver := addServer_eq_ok (hhost ▸ hserving) hplaces
  obtain ⟨net₂, hserve⟩ : ∃ net₂,
      { net₁ with servers := net₁.servers ++ [Server.ofLimit maxInFlight] }.serve
        side.other.index =
        .ok (⟨1⟩, net₂) := by
    rw [hservers]
    exact ⟨_, if_pos hfree'⟩
  refine ⟨net₂, ?_⟩
  rw [attached, show (({ host } : Net).join link) = (_, _) from rfl]
  exact bind_eq_ok_iff.mpr ⟨_, hclient, bind_eq_ok_iff.mpr ⟨_, hserver,
    bind_eq_ok_iff.mpr ⟨_, hserve, rfl⟩⟩⟩

/-- A host with one object, whose only operation returns its arguments after a while. -/
def delayedEcho : Host where
  registry := { entries := [⟨⟨0, 5⟩, "echo", (Script.delay 5).run⟩], serving := true }
  objects := { objects := [(⟨1⟩, { interface := ⟨0⟩ })] }

theorem request_transparent_delayedEcho :
    ∃ net net', attached delayedEcho (.stream 16 4096) .left {} 4 = .ok net ∧
      net.request 0 .twoWayCall ⟨1⟩ ⟨0, 5⟩ [.int 7] = some (0, net') ∧
      net'.Completes 0 30000 5 (fun report => report = .fields [.int 7]) fun pic => pic.Idle := by
  have hnew : (Link.stream 16 4096).New := .stream 4096 (by decide)
  have hserving : delayedEcho.registry.serving = true := rfl
  have hplaces : 4 ≤ Gate.maxPlaces := by decide
  obtain ⟨net, hnet⟩ := exists_attached hnew hserving hplaces .left {}
  have hadmits : (Picture.attached delayedEcho (.stream 16 4096) .left {} 4).Admits
      (Request.frame .twoWayCall ⟨1⟩ ⟨0, 5⟩ [.int 7]) := {
    calls := by decide
    serving := rfl
    detaches := by
      refine Host.detaches_of_entries (fun e he => ?_) _
      obtain rfl := List.mem_singleton.mp he
      exact Script.detached_run (by simp) (by simp)
    expects := rfl
    nesting := by decide
    out := by decide
    back := by
      intro reply hreply
      obtain rfl := Option.some.inj hreply
      decide }
  obtain ⟨request, reply, net', rfl, hreply, -, hcall, hcompletes⟩ :=
    request_transparent (pictures_of_attached hnet) (idle_of_attached hnew) .twoWayCall ⟨1⟩ ⟨0, 5⟩
      [.int 7] hadmits
  obtain rfl := Option.some.inj hreply
  refine ⟨net, net', hnet, hcall, hcompletes.imp (fun report hreport => ?_) fun pic hpic => hpic.1⟩
  rcases hreport with ⟨-, hfields⟩ | ⟨hdeep, -⟩
  · exact hfields
  · contradiction

end Net

end Remoting

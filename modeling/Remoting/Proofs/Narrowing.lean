import Remoting.Proofs.Lineage
import Remoting.Proofs.RegistryHistory
import Remoting.Proofs.RemoteCall

/-!
# Remoting.Proofs.Narrowing

Narrowing a handle is exact: an object of an interface can be narrowed to just the interface, what
it needs, directly or through others, and the interface that every object has
(`Net.narrowing_exact`).

On the way a list of types is put into a result and read out of it again
(`Request.types_of_elements`), and the host finds the handler that was registered for the question
under the digest by which a client asks, although the client knows nothing of the model
(`Host.TellsTypes.judge_eq`).
-/

namespace Remoting

/-! ## Lists of types as fields -/

namespace Reading

variable {β : Type} {fields : List Field} {position : Nat} {b : β}

theorem perform_record_bind {f : List Field → Reading β} :
    ((record >>= f).perform ⟨fields, position⟩).1 = .ok b ↔
      ∃ fs, fields[position]? = some (.record fs) ∧
        ((f fs).perform ⟨fields, position + 1⟩).1 = .ok b :=
  perform_next_bind (fun g a => by cases g <;> simp)

theorem perform_sequence_bind {f : List Field → Reading β} :
    ((sequence >>= f).perform ⟨fields, position⟩).1 = .ok b ↔
      ∃ fs, fields[position]? = some (.sequence fs) ∧
        ((f fs).perform ⟨fields, position + 1⟩).1 = .ok b :=
  perform_next_bind (fun g a => by cases g <;> simp)

/-- Reading fields of their own keeps the place. -/
theorem perform_inside_bind {x : Reading α} {inner : List Field} {f : α → Reading β} {r : Reader} :
    ((x.inside inner >>= f).perform r).1 = .ok b ↔
      ∃ a, x.ofFields inner = .ok a ∧ ((f a).perform r).1 = .ok b := by
  have hinside : (x.inside inner).perform r = (x.ofFields inner, r) := rfl
  rw [perform_bind, hinside]
  cases x.ofFields inner <;> simp

theorem perform_bind_pure (x : Reading α) (f : α → β) (r : Reader) :
    ((x >>= fun a => pure (f a)).perform r).1 = (x.perform r).1.map f := by
  rw [perform_bind]
  cases h : x.perform r with
  | mk result r' => cases result <;> rfl

theorem perform_finish_bind {f : Unit → Reading β} {r : Reader} (h : r.fields.length ≤ r.position) :
    (finish >>= f).perform r = (f ()).perform r := by
  have hfinish : finish.perform r = (.ok (), r) := if_neg (Nat.not_lt.mpr h)
  rw [perform_bind, hfinish]

end Reading

namespace TypeList

open Reading

theorem readDigest_ofFields (d : Digest) :
    readDigest.ofFields [.int d.hi.toInt64, .int d.lo.toInt64] = .ok d := rfl

/-- Records of digests are read one after the other, wherever they stand. -/
theorem perform_readDigests (ds : List Digest) (before : List Field) :
    ((readDigests ds.length).perform ⟨before ++ elements ds, before.length⟩).1 = .ok ds := by
  induction ds generalizing before with
  | nil => rfl
  | cons d ds ih =>
    have hnext := ih (before ++ [digestField d])
    rw [List.append_assoc, List.length_append] at hnext
    rw [List.length_cons, readDigests, perform_record_bind]
    refine ⟨_, by rw [List.getElem?_append_right le_rfl, Nat.sub_self]; rfl, ?_⟩
    rw [perform_inside_bind]
    refine ⟨d, readDigest_ofFields d, ?_⟩
    rw [perform_bind_pure]
    exact congrArg (Except.map (d :: ·)) hnext

/-- A list of types is read out of its field. -/
theorem perform_read_bind {fields : List Field} {position : Nat} {b : β}
    {f : List Digest → Reading β} {ds : List Digest}
    (hget : fields[position]? = some (.sequence (elements ds)))
    (hrest : ((f ds).perform ⟨fields, position + 1⟩).1 = .ok b) :
    ((read >>= f).perform ⟨fields, position⟩).1 = .ok b := by
  rw [read, bind_assoc, perform_sequence_bind]
  refine ⟨elements ds, hget, ?_⟩
  rw [perform_inside_bind, elements, List.length_map]
  exact ⟨ds, perform_readDigests ds [], hrest⟩

theorem encodedLengths_elements (ds : List Digest) :
    Field.encodedLengths (elements ds) = 23 * ds.length := by
  induction ds with
  | nil => rfl
  | cons d ds ih =>
    rw [elements, List.map_cons, Field.encodedLengths, List.length_cons, Nat.mul_succ,
      Nat.add_comm]
    exact congrArg (· + 23) ih

/-- Such a field is not nested deep. -/
theorem nesting_elements (ds : List Digest) :
    Field.nestingEach [.sequence (elements ds)] ≤ Field.maxNesting := by
  have helements : Field.nestingEach (elements ds) ≤ 1 := by
    refine Field.nestingEach_le_iff.mpr fun f hf => ?_
    obtain ⟨d, -, rfl⟩ := List.mem_map.mp hf
    exact le_rfl
  rw [Field.nestingEach_le_iff]
  intro f hf
  obtain rfl := List.mem_singleton.mp hf
  exact (Nat.succ_le_succ helements).trans (by decide)

end TypeList

/-- A result that holds a list of types says just these types. -/
theorem Request.types_of_elements {r : Frame} {ds : List Digest}
    (hkind : r.header.kind = .callResult)
    (hpayload : r.payload = [.sequence (TypeList.elements ds)]) : types (.ok r) = .ok ds := by
  have hfields : fields (.ok r) = .ok [.sequence (TypeList.elements ds)] := by
    rw [← hpayload]
    exact Frame.toResult_of_result hkind
  have hread : Reading.ofFields [.sequence (TypeList.elements ds)]
      (do let a ← TypeList.read; Reading.finish; return a) = .ok ds := by
    refine TypeList.perform_read_bind rfl ?_
    rw [Reading.perform_finish_bind le_rfl]
    rfl
  rw [types, readAll, hfields]
  exact congrArg (Except.mapError FramingError.toFault) hread

/-! ## The question for types -/

/-- A host that serves tells the types of an object of an interface. -/
structure Host.TellsTypes (host : Host) (m : Model) (id : ObjectId) (i : TypeId) : Prop where
  serving : host.registry.serving = true
  /-- The handler for the question is registered. -/
  registered : ∃ (r r' : Registry Handler) (digest : Digest),
    r.registerTypeList m (Script.run (.typeList m)) = .ok (digest, r') ∧ r'.Becomes host.registry
  /-- The object is exported. -/
  exported : ∃ servant, host.objects.resolve id = some servant ∧ servant.interface = i

namespace Host.TellsTypes

variable {host : Host} {m : Model} {id : ObjectId} {i : TypeId} {edits : List Edit}

/-- The question by the digest that a client knows leads to the handler. -/
theorem judge_eq (h : host.TellsTypes m id i) (hm : (Builder.build edits).finish = .ok m) :
    ∃ digest servant, typeListQuery = .ok digest ∧ servant.interface = i ∧
      ∀ request : Header, request.kind = .typeListQuery → request.target = id →
        request.digest = digest →
          host.judge request = .invoke (Script.run (.typeList m)) servant := by
  obtain ⟨r, r', digest, hregister, hbecomes⟩ := h.registered
  obtain ⟨servant, hresolve, hinterface⟩ := h.exported
  obtain ⟨hdigest, hregister⟩ := Registry.registerTypeList_eq_ok_iff.mp hregister
  obtain ⟨digest', hdigest', hinitial⟩ := Model.agree_typeListDigest hm
  obtain rfl := Except.ok.inj (hdigest.symm.trans hdigest')
  have hquery : typeListQuery = .ok digest := by
    rw [typeListQuery, hinitial]
    rfl
  refine ⟨digest, servant, hquery, hinterface, ?_⟩
  rintro request hkind rfl rfl
  have hfind := hbecomes.find?_eq_some (Registry.find?_of_register hregister)
  have hlookup : host.registry.lookup request.digest =
      .ok (some (Script.run (.typeList m))) := by
    rw [Registry.lookup, if_pos h.serving, hfind]
    rfl
  rw [judge, hkind, hlookup, hresolve]
  rfl

end Host.TellsTypes

/-- A host answers a request at once and stays as it is. -/
structure Host.Answers (host : Host) (request : Frame) (payload : List Field) : Prop where
  dispatch : host.dispatch request = (some (.resultFor request.header payload), host)
  detaches : host.Detaches request
  delay : host.delayOf request = 0

/-- So it does when the handler just returns something. -/
theorem Host.answers_of_returning {host : Host} {request : Frame} {handler : Handler}
    {target : Servant} {payload : List Field} (hkind : request.header.kind.expectsResponse = true)
    (hjudge : host.judge request.header = .invoke handler target) (hdetached : Detached handler)
    (hreturns : handler ⟨request.header, request.payload, target, false⟩ = .returning payload) :
    host.Answers request payload where
  dispatch := by
    rw [Host.dispatch, dispatchWith, hjudge]
    show (Remoting.conclude request.header
      (handler ⟨request.header, request.payload, target, false⟩).outcome, host.apply _ _) = _
    rw [hreturns]
    exact Prod.ext (if_pos hkind) rfl
  detaches handler' target' hjudge' := by
    rw [hjudge] at hjudge'
    obtain ⟨rfl, -⟩ := Verdict.invoke.inj hjudge'
    exact hdetached
  delay := by
    rw [delayOf, hjudge]
    show (handler ⟨request.header, request.payload, target, false⟩).delay.getD 0 = 0
    rw [hreturns]
    rfl

/-- The answer to the question for the types of an object is the type list of its interface. -/
theorem Host.TellsTypes.exists_answers {host : Host} {m : Model} {id : ObjectId} {i : TypeId}
    {edits : List Edit} {digests : List Digest} (h : host.TellsTypes m id i)
    (hm : (Builder.build edits).finish = .ok m) (hdigests : m.typeList i = .ok digests) :
    ∃ digest, typeListQuery = .ok digest ∧ ∀ request : Frame,
      request.header.kind = .typeListQuery → request.header.target = id →
        request.header.digest = digest →
          host.Answers request [.sequence (TypeList.elements digests)] := by
  obtain ⟨digest, servant, hquery, hinterface, hjudge⟩ := h.judge_eq hm
  refine ⟨digest, hquery, fun request hkind htarget hdigest => ?_⟩
  refine answers_of_returning (by rw [hkind]; rfl) (hjudge request.header hkind htarget hdigest)
    (Script.detached_run (by simp) (by simp)) ?_
  simp only [Script.run, hinterface, hdigests]

/-! ## Handles of an idle client -/

/-- The connection is idle again, the host is as before, and one thing more has been reported. -/
structure Picture.Resumes (pic pic' : Picture) : Prop where
  idle : pic'.Idle
  host : pic'.host = pic.host
  reported : ∃ report, pic'.reports = pic.reports ++ [(pic.nextTicket, report)]

/-- What is assumed about a question for the types of an object of an interface: the host tells
them, the client that asks has not called too often, and the answer is short enough for the link. -/
structure Picture.Offers (pic : Picture) (m : Model) (handle : RemoteHandle) (i : TypeId) :
    Prop where
  client : handle.client = 0
  calls : pic.calls.pending.calls.length + 1 < 2 ^ 64
  tells : pic.host.TellsTypes m handle.id i
  small : ∀ (digests : List Digest) (answer : Frame) (from' : Side), m.typeList i = .ok digests →
    answer.payload = [.sequence (TypeList.elements digests)] →
      answer.encodedLength ≤ (pic.link.direction from').frameLimit

/-- The report about a result that should hold a list of types. -/
def Report.ofTypes (tell : List Digest → Report) : Except Fault (List Digest) → Report
  | .ok ds => tell ds
  | .error e => .fault e

/-- The report about narrowing a handle to an object of the given types. -/
def Report.ofNarrowing (handle : RemoteHandle) (target : Digest) (name : String)
    (ds : List Digest) : Report :=
  match handle.narrow ds target with
  | some handle' => .narrowed handle' name
  | none => .refused

theorem Report.ofNarrowing_eq (handle : RemoteHandle) (target : Digest) (name : String)
    (ds : List Digest) :
    ofNarrowing handle target name ds =
      if target ∈ ds then .narrowed { handle with interface := some target } name
      else .refused := by
  unfold ofNarrowing RemoteHandle.narrow canNarrow
  by_cases h : target ∈ ds <;> simp [h]

/-- Every header takes the same room. -/
theorem Frame.encodedLength_eq (f : Frame) :
    f.encodedLength = 49 + Field.encodedLengths f.payload := by
  simp only [encodedLength, Field.listLength, toFields, Header.fields, List.cons_append,
    List.nil_append, Field.encodedLengths, Field.encodedLength]
  omega

namespace Net

variable {net : Net} {pic : Picture} {m : Model} {i : TypeId} {edits : List Edit}
  {handle : RemoteHandle} {digests : List Digest}

/-- A question for the types of an object is answered, and the report is what is told of its
types. -/
theorem askTypes_completes (h : net.Pictures pic) (hidle : pic.Idle)
    (hm : (Builder.build edits).finish = .ok m) (hoffers : pic.Offers m handle i)
    (hdigests : m.typeList i = .ok digests) {purpose : Purpose} {tell : List Digest → Report}
    (hconcludes : ∀ (net : Net) (r : Response),
      net.conclude r purpose = net.stop (.ofTypes tell (Request.types r))) :
    ∃ net', net.askTypes handle purpose = some (pic.nextTicket, net') ∧
      net'.Completes pic.nextTicket pic.client.settings.timeout.toNat 0
        (fun report => report = tell digests) pic.Resumes := by
  obtain ⟨digest, hquery, hanswers⟩ := hoffers.tells.exists_answers hm hdigests
  have hanswer := hanswers (pic.outgoing (Request.frame .typeListQuery handle.id digest [])) rfl rfl
    rfl
  have hadmits : pic.Admits (Request.frame .typeListQuery handle.id digest []) := {
    calls := hoffers.calls
    serving := hoffers.tells.serving
    detaches := hanswer.detaches
    expects := rfl
    nesting := Nat.zero_le _
    out := by
      -- the question is a header with nothing behind it, so it is no longer than the answer
      refine le_trans ?_ (hoffers.small digests ⟨Frame.hello.header, _⟩ _ hdigests rfl)
      rw [Frame.encodedLength_eq, Frame.encodedLength_eq]
      exact Nat.le_add_right _ _
    back := by
      intro reply hreply
      rw [hanswer.dispatch] at hreply
      cases hreply
      exact hoffers.small digests _ _ hdigests rfl }
  have hsound := hadmits.sound hidle (congrArg Prod.fst hanswer.dispatch) (.inl rfl) hconcludes
    fun fault => rfl
  obtain ⟨net', hcall, hresolves⟩ := call_resolves h hidle hsound
  refine ⟨net', ?_, ?_⟩
  · rw [askTypes, hquery, ← hcall, hoffers.client]
  · rw [← hanswer.delay]
    refine hresolves.imp ?_ fun pic' hleaves => ⟨hleaves.idle, ?_, hleaves.reported⟩
    · rintro report ⟨r, hyields, rfl⟩
      have hsmall := lt_of_le_of_lt (hadmits.back _ (congrArg Prod.fst hanswer.dispatch))
        (Direction.frameLimit_lt _)
      rcases hyields.cases hsmall with ⟨-, rfl⟩ | ⟨hdeep, -⟩
      · exact congrArg (Report.ofTypes tell) (Request.types_of_elements rfl rfl)
      · exact absurd hdeep (Nat.not_lt.mpr (TypeList.nesting_elements digests))
    · exact hleaves.host.trans (congrArg Prod.snd hanswer.dispatch)

/-- **Narrowing is exact.** A client that asks for the types of an object of an interface is told
the type list of the interface. If no two interfaces have the same digest, a handle can be narrowed
to an interface exactly if that is the interface itself, one that it needs, directly or through
others, or the one that every object has. The narrowed handle refers to the same object. Nothing
else is under way meanwhile, as in `request_transparent`; calls that are under way at the same time
are the subject of `correlated_of_follow`. -/
theorem narrowing_exact (h : net.Pictures pic) (hidle : pic.Idle)
    (hm : (Builder.build edits).finish = .ok m) (hdistinct : m.Distinct) (hi : m.HasInterface i)
    (hoffers : pic.Offers m handle i) :
    (∃ digests net', m.typeList i = .ok digests ∧
      net.typeList handle = some (pic.nextTicket, net') ∧
      net'.Completes pic.nextTicket pic.client.settings.timeout.toNat 0
        (fun report => report = .types digests) pic.Resumes) ∧
    ∀ t, m.HasInterface t → ∃ d, m.typeDigest t = .ok d ∧ ∀ name,
      ∃ net', net.narrow handle d name = some (pic.nextTicket, net') ∧
        net'.Completes pic.nextTicket pic.client.settings.timeout.toNat 0
          (fun report =>
            (m.IsTypeOf t i ∧ report = .narrowed { handle with interface := some d } name) ∨
            (¬ m.IsTypeOf t i ∧ report = .refused))
          pic.Resumes := by
  obtain ⟨digests, hdigests, -⟩ := Model.exists_typeList hm hi
  refine ⟨?_, fun t ht => ?_⟩
  · have hconcludes (net : Net) (r : Response) :
        net.conclude r .types = net.stop (.ofTypes .types (Request.types r)) := by
      rw [conclude]
      cases Request.types r <;> rfl
    obtain ⟨net', hask, hcompletes⟩ := askTypes_completes h hidle hm hoffers hdigests hconcludes
    exact ⟨digests, net', hdigests, hask, hcompletes⟩
  · obtain ⟨d, hd⟩ := Model.exists_typeDigest ht
    refine ⟨d, hd, fun name => ?_⟩
    have hconcludes (net : Net) (r : Response) : net.conclude r (.narrow handle d name) =
        net.stop (.ofTypes (.ofNarrowing handle d name) (Request.types r)) := by
      rw [conclude]
      cases Request.types r with
      | error fault => rfl
      | ok ds =>
        simp only [Report.ofTypes, Report.ofNarrowing]
        cases handle.narrow ds d <;> rfl
    obtain ⟨net', hask, hcompletes⟩ := askTypes_completes h hidle hm hoffers hdigests hconcludes
    refine ⟨net', hask, hcompletes.imp (fun report hreport => ?_) fun _ => id⟩
    rw [hreport, Report.ofNarrowing_eq, ← Model.mem_typeList_iff hm hdistinct hi hdigests ht hd]
    by_cases hmem : d ∈ digests
    · exact .inl ⟨hmem, if_pos hmem⟩
    · exact .inr ⟨hmem, if_neg hmem⟩

/-! Circles are shapes, and they can be narrowed to shapes, but not to sounds. -/

def shapes : List Edit :=
  [.add "Draw" "Shape" (.interface {}),
   .add "Draw" "Circle" (.interface { prerequisites := [⟨7⟩] }),
   .add "Play" "Sound" (.interface {})]

/-- A host with a circle, where the question for types has the given digest. -/
def circle (digest : Digest) : Host where
  registry :=
    { entries := [⟨digest, "type list", Script.run (.typeList (.declared shapes))⟩]
      serving := true }
  objects := { objects := [(⟨1⟩, { interface := ⟨8⟩ })] }

theorem finish_shapes : (Builder.build shapes).finish = .ok (.declared shapes) := by
  cbv

theorem distinct_shapes : (Model.declared shapes).Distinct := by
  have hmem (t : TypeId) (h : (Model.declared shapes).HasInterface t) :
      t ∈ [.implicitBase, ⟨7⟩, ⟨8⟩, ⟨9⟩] := by
    have hkinds : ∀ n < 10, ((Model.declared shapes).type? ⟨n⟩).any (·.isInterface) = true →
        (⟨n⟩ : TypeId) ∈ [.implicitBase, ⟨7⟩, ⟨8⟩, ⟨9⟩] := by decide
    have hwithin := h.within
    obtain ⟨info, hinfo, hinterface⟩ := h
    exact hkinds t.index hwithin (by rw [hinfo]; exact hinterface)
  have hnodup :
      ([.implicitBase, ⟨7⟩, ⟨8⟩, ⟨9⟩].map (Model.declared shapes).typeDigest).Nodup := by
    decide +kernel
  intro i t d hi ht hdi hdt
  exact List.inj_on_of_nodup_map hnodup (hmem i hi) (hmem t ht) (hdi.trans hdt.symm)

theorem objectTypes_circle :
    (Model.declared shapes).objectTypes ⟨8⟩ = .ok [⟨8⟩, ⟨7⟩, .implicitBase] := by
  cbv

theorem offers_circle {digest : Digest}
    (hdigest : (Model.declared shapes).typeListDigest = .ok digest) :
    (Picture.attached (circle digest) (.stream 16 4096) .left {} 4).Offers (.declared shapes)
      ⟨0, ⟨1⟩, none⟩ ⟨8⟩ where
  client := rfl
  calls := Nat.one_lt_two_pow (by decide)
  tells := {
    serving := rfl
    registered := by
      refine ⟨{}, { (circle digest).registry with serving := false }, digest, ?_, .close .refl rfl⟩
      rw [Registry.registerTypeList, hdigest]
      rfl
    exported := ⟨_, rfl, rfl⟩ }
  small := by
    intro digests answer from' hdigests hpayload
    have hlimit : ((Picture.attached (circle digest) (.stream 16 4096) .left {} 4).link.direction
        from').frameLimit = 4096 := by
      cases from' <;> rfl
    have hlength : answer.encodedLength = 49 + (1 + (4 + 23 * digests.length) + 0) := by
      rw [Frame.encodedLength_eq, hpayload, ← TypeList.encodedLengths_elements]
      rfl
    rw [hlimit, hlength, Model.length_typeList objectTypes_circle hdigests]
    decide

theorem narrowing_exact_circle :
    ∃ digest net, (Model.declared shapes).typeListDigest = .ok digest ∧
      attached (circle digest) (.stream 16 4096) .left {} 4 = .ok net ∧
      (∃ d net', (Model.declared shapes).typeDigest ⟨7⟩ = .ok d ∧
        net.narrow ⟨0, ⟨1⟩, none⟩ d "shape" = some (0, net') ∧
        net'.Completes 0 30000 0 (fun report => report = .narrowed ⟨0, ⟨1⟩, some d⟩ "shape")
          Picture.Idle) ∧
      ∃ d net', (Model.declared shapes).typeDigest ⟨9⟩ = .ok d ∧
        net.narrow ⟨0, ⟨1⟩, none⟩ d "sound" = some (0, net') ∧
        net'.Completes 0 30000 0 (fun report => report = .refused) Picture.Idle := by
  obtain ⟨digest, hdigest, -⟩ := Model.agree_typeListDigest finish_shapes
  have hnew : (Link.stream 16 4096).New := .stream 4096 (by decide)
  have hserving : (circle digest).registry.serving = true := rfl
  have hplaces : 4 ≤ Gate.maxPlaces := by decide
  obtain ⟨net, hnet⟩ := exists_attached hnew hserving hplaces .left {}
  have hcircle : (Model.declared shapes).HasInterface ⟨8⟩ := ⟨_, rfl, rfl⟩
  obtain ⟨ids, hids, hmem⟩ :=
    Model.exists_objectTypes (Model.founded_of_finish finish_shapes) hcircle
  obtain rfl := Except.ok.inj (objectTypes_circle.symm.trans hids)
  obtain ⟨-, hnarrow⟩ := narrowing_exact (pictures_of_attached hnet) (idle_of_attached hnew)
    finish_shapes distinct_shapes hcircle (offers_circle hdigest)
  obtain ⟨shape, hshape, hnarrowed⟩ := hnarrow ⟨7⟩ ⟨_, rfl, rfl⟩
  obtain ⟨sound, hsound, hrefused⟩ := hnarrow ⟨9⟩ ⟨_, rfl, rfl⟩
  obtain ⟨net', hcall, hcompletes⟩ := hnarrowed "shape"
  obtain ⟨net'', hcall', hcompletes'⟩ := hrefused "sound"
  refine ⟨digest, net, hdigest, hnet, ⟨shape, net', hshape, hcall, ?_⟩,
    ⟨sound, net'', hsound, hcall', ?_⟩⟩
  · refine hcompletes.imp (fun report hreport => ?_) fun _ h => h.idle
    rcases hreport with ⟨-, hreport⟩ | ⟨hnot, -⟩
    · exact hreport
    · exact absurd ((hmem ⟨7⟩).mp (by decide)) hnot
  · refine hcompletes'.imp (fun report hreport => ?_) fun _ h => h.idle
    rcases hreport with ⟨hof, -⟩ | ⟨-, hreport⟩
    · exact absurd ((hmem ⟨9⟩).mpr hof) (by decide)
    · exact hreport

end Net

end Remoting

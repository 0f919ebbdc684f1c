import Remoting.Proofs.Closedness
import Remoting.Proofs.RegistryHistory

/-!
# Remoting.Proofs.Collisions

Two ways to find out that operations have the same digest agree: the check of a model, which goes
through the operations of some interfaces in order (`Model.distinctOperations`), and a registry,
which refuses a second handler for a digest.

Both succeed exactly if all digests differ. For the check this follows the list of operations
(`Model.addDistinct_cases`), and for the registry the handlers in the order in which they come
(`Registry.registerAll_cases`). That the digests differ does not depend on their order, and so
handlers may come in any order (`Model.collision_check_agrees`).
-/

namespace Remoting

open List

variable {η : Type} {m : Model}

/-- A handler for a member of an interface in a role. -/
structure Offer (η : Type) where
  interface : TypeId
  role : Role
  member : String
  handler : η

/-- The digest under which a handler is registered. -/
def Offer.digest (m : Model) (o : Offer η) : Except SchemaError Digest :=
  m.memberDigest o.role o.interface o.member

/-- Register handlers of members one after another, as long as all succeed. -/
def Registry.registerAll (r : Registry η) (m : Model) :
    List (Offer η) → Except RegistryError (List Digest × Registry η)
  | [] => .ok ([], r)
  | o :: rest => do
    let first ← r.registerMember m o.interface o.role o.member o.handler
    let others ← first.2.registerAll m rest
    return (first.1 :: others.1, others.2)

namespace Model

/-! ## Operations of several interfaces -/

/-- The interfaces that are checked: those in question, and the one that every object has. -/
def targets (interfaces : List TypeId) : List TypeId :=
  if .implicitBase ∈ interfaces then interfaces else interfaces ++ [.implicitBase]

theorem addDistinct_append (seen first second : List Operation) :
    addDistinct seen (first ++ second) =
      (addDistinct seen first >>= fun seen => addDistinct seen second) := by
  induction first generalizing seen with
  | nil => rfl
  | cons op first ih =>
    rw [cons_append, addDistinct, addDistinct]
    cases seen.find? (·.digest = op.digest) with
    | some other => rfl
    | none => exact ih (seen ++ [op])

/-- The check goes through all operations in order. -/
theorem foldlM_addDistinct {ids : List TypeId} {each : List (List Operation)}
    (h : ids.mapM m.operations = .ok each) (seen : List Operation) :
    ids.foldlM (fun seen id => do addDistinct seen (← m.operations id)) seen =
      addDistinct seen each.flatten := by
  induction ids generalizing each seen with
  | nil =>
    obtain rfl : [] = each := by simpa [pure, Except.pure] using h
    rfl
  | cons i ids ih =>
    rw [mapM_cons] at h
    obtain ⟨ops, hops, h⟩ := bind_eq_ok_iff.mp h
    obtain ⟨more, hmore, h⟩ := bind_eq_ok_iff.mp h
    cases h
    rw [foldlM_cons, hops, flatten_cons, addDistinct_append]
    exact congrArg (addDistinct seen ops >>= ·) (funext fun seen => ih hmore seen)

theorem distinctOperations_eq {interfaces : List TypeId} {each : List (List Operation)}
    (h : (targets interfaces).mapM m.operations = .ok each) :
    m.distinctOperations interfaces = addDistinct [] each.flatten :=
  foldlM_addDistinct h []

/-- Adding operations succeeds if all digests differ, and otherwise it fails at the first operation
whose digest is taken. -/
theorem addDistinct_cases (seen : List Operation) (hseen : (seen.map (·.digest)).Nodup)
    (ops : List Operation) :
    (((seen ++ ops).map (·.digest)).Nodup ∧ addDistinct seen ops = .ok (seen ++ ops)) ∨
    ∃ before first second later, ops = before ++ second :: later ∧
      ((seen ++ before).map (·.digest)).Nodup ∧ first ∈ seen ++ before ∧
      first.digest = second.digest ∧
      addDistinct seen ops = .error (.digestCollision first second) := by
  induction ops generalizing seen with
  | nil => exact .inl ⟨by simpa using hseen, by simp [addDistinct]⟩
  | cons op ops ih =>
    rw [addDistinct]
    cases hfind : seen.find? (·.digest = op.digest) with
    | some first =>
      have hdigest : first.digest = op.digest := by simpa using List.find?_some hfind
      have hmem : first ∈ seen := mem_of_find?_eq_some hfind
      exact .inr ⟨[], first, op, ops, rfl, by simpa using hseen, by simpa using hmem, hdigest,
        rfl⟩
    | none =>
      have hfresh : op.digest ∉ seen.map (·.digest) := by simpa using hfind
      have hseen' : ((seen ++ [op]).map (·.digest)).Nodup := by
        simpa using List.Nodup.concat hfresh hseen
      rcases ih _ hseen' with ⟨hnodup, hok⟩ |
        ⟨before, first, second, later, rfl, hbefore, hfirst, hdigest, herror⟩
      · exact .inl ⟨by simpa using hnodup, by simpa using hok⟩
      · exact .inr ⟨op :: before, first, second, later, rfl, by simpa using hbefore,
          by simpa using hfirst, hdigest, herror⟩

/-- The digest of a listed operation is the one of its member in its role. -/
theorem memberDigest_of_operations {i : TypeId} {ops : List Operation}
    (h : m.operations i = .ok ops) :
    (∃ info, m.type i = .ok info) ∧
      ∀ op ∈ ops, m.memberDigest op.role i op.member = .ok op.digest := by
  obtain ⟨members, -, h⟩ := bind_eq_ok_iff.mp h
  obtain ⟨info, hinfo, h⟩ := bind_eq_ok_iff.mp h
  refine ⟨⟨info, hinfo⟩, fun op hop => ?_⟩
  have hmem : Except.ok op ∈ ops.map (.ok : _ → Except SchemaError Operation) :=
    List.mem_map_of_mem hop
  rw [← mapM_eq_ok_iff.mp h] at hmem
  obtain ⟨x, -, hx⟩ := List.mem_map.mp hmem
  obtain ⟨digest, hdigest, hop⟩ := bind_eq_ok_iff.mp hx
  cases hop
  exact hdigest

end Model

/-! ## Handlers -/

namespace Registry

/-- What comes of a handler for a member that has a digest. -/
theorem registerMember_of_digest (r : Registry η) {o : Offer η} {digest : Digest} {info : TypeInfo}
    (hdigest : o.digest m = .ok digest) (hinfo : m.type o.interface = .ok info) :
    ∃ name, r.registerMember m o.interface o.role o.member o.handler =
      (r.register digest name o.handler).map (digest, ·) := by
  rw [Offer.digest] at hdigest
  refine ⟨(Operation.mk o.role info.qualifiedName o.member digest).render, ?_⟩
  rw [registerMember, hdigest, hinfo]
  simp only [Except.mapError, bind, Except.bind, pure, Except.pure]
  cases r.register digest _ o.handler <;> rfl

/-- A registry that is not sealed refuses a handler only if its digest is taken. -/
theorem register_eq_error_iff {r : Registry η} {digest : Digest} {name : String} {handler : η}
    (hopen : r.serving = false) :
    (∃ error, r.register digest name handler = .error error) ↔
      digest ∈ r.entries.map (·.digest) := by
  rw [← not_iff_not, ← find?_eq_none_iff, register, hopen]
  cases r.find? digest <;> simp

/-- Handlers are registered if all digests differ, and otherwise one of them is refused. -/
theorem registerAll_cases {r : Registry η} (hopen : r.serving = false) (hr : r.Distinct)
    {offers : List (Offer η)} {digests : List Digest}
    (hdigests : offers.map (Offer.digest m) = digests.map .ok)
    (htypes : ∀ o ∈ offers, ∃ info, m.type o.interface = .ok info) :
    ((r.entries.map (·.digest) ++ digests).Nodup ∧
      ∃ r', r.registerAll m offers = .ok (digests, r') ∧ r'.serving = false ∧
        r'.size = r.size + digests.length) ∨
    (¬ (r.entries.map (·.digest) ++ digests).Nodup ∧
      ∃ error, r.registerAll m offers = .error error) := by
  induction offers generalizing r digests with
  | nil =>
    obtain rfl : digests = [] := by simpa using hdigests.symm
    rw [append_nil]
    exact .inl ⟨hr, r, rfl, hopen, rfl⟩
  | cons o offers ih =>
    obtain ⟨digest, more, rfl, hdigest, hmore⟩ := map_eq_cons_iff.mp hdigests.symm
    obtain ⟨⟨info, hinfo⟩, htypes⟩ := List.forall_mem_cons.mp htypes
    obtain ⟨name, hmember⟩ := registerMember_of_digest r hdigest.symm hinfo
    rw [registerAll, hmember]
    cases hregister : r.register digest name o.handler with
    | error error =>
      have htaken := (register_eq_error_iff hopen).mp ⟨error, hregister⟩
      refine .inr ⟨fun hnodup => ?_, error, rfl⟩
      exact disjoint_of_nodup_append hnodup htaken List.mem_cons_self
    | ok r' =>
      have hr' := (Becomes.register .refl hregister).distinct hr
      obtain ⟨-, -, hadd⟩ := register_eq_ok_iff.mp hregister
      have hlist : r'.entries.map (·.digest) ++ more =
          r.entries.map (·.digest) ++ digest :: more := by simp [hadd]
      have hsize' : r'.size = r.size + 1 := by simp [size, hadd]
      rw [← hlist]
      rcases ih (by rw [hadd]; exact hopen) hr' hmore.symm htypes with
        ⟨hnodup, r'', hall, hopen'', hsize⟩ | ⟨hnot, error, hall⟩
      · refine .inl ⟨hnodup, r'', ?_, hopen'', ?_⟩
        · simp [Except.map, bind, Except.bind, hall, pure, Except.pure]
        · rw [hsize, hsize', length_cons]
          omega
      · exact .inr ⟨hnot, error, by simp [Except.map, bind, Except.bind, hall]⟩

end Registry

/-! ## Agreement -/

namespace Model

/-- What handlers are needed for: every operation of some interfaces, by interface, role and
member. -/
def purposes (ids : List TypeId) (each : List (List Operation)) : List (TypeId × Role × String) :=
  (ids.zip each).flatMap fun x => x.2.map fun op => (x.1, op.role, op.member)

/-- There is one handler for each operation of some interfaces. They may come in any order. -/
def Staffs (ids : List TypeId) (each : List (List Operation)) (offers : List (Offer η)) : Prop :=
  (offers.map fun o => (o.interface, o.role, o.member)).Perm (purposes ids each)

variable {ids : List TypeId} {each : List (List Operation)} {offers : List (Offer η)}

theorem memberDigest_of_purposes (h : ids.mapM m.operations = .ok each) :
    (∀ x ∈ purposes ids each, ∃ info, m.type x.1 = .ok info) ∧
      (purposes ids each).map (fun x => m.memberDigest x.2.1 x.1 x.2.2) =
        each.flatten.map fun op => .ok op.digest := by
  induction ids generalizing each with
  | nil =>
    obtain rfl : [] = each := by simpa [pure, Except.pure] using h
    exact ⟨by simp [purposes], rfl⟩
  | cons i ids ih =>
    rw [mapM_cons] at h
    obtain ⟨ops, hops, h⟩ := bind_eq_ok_iff.mp h
    obtain ⟨more, hmore, h⟩ := bind_eq_ok_iff.mp h
    cases h
    obtain ⟨htypes, hdigests⟩ := ih hmore
    obtain ⟨htype, hfirst⟩ := memberDigest_of_operations hops
    have hcons : purposes (i :: ids) (ops :: more) =
        ops.map (fun op => (i, op.role, op.member)) ++ purposes ids more := by
      simp [purposes]
    rw [hcons, flatten_cons, map_append, map_append, hdigests, List.map_map]
    refine ⟨forall_mem_append.mpr ⟨?_, htypes⟩,
      congrArg (· ++ _) (map_congr_left hfirst)⟩
    simpa using fun _ _ => htype

/-- The handlers for some operations are registered under the digests of these. -/
theorem Staffs.exists_digests (h : Staffs ids each offers)
    (heach : ids.mapM m.operations = .ok each) :
    ∃ digests : List Digest, offers.map (Offer.digest m) = digests.map .ok ∧
      digests.Perm (each.flatten.map (·.digest)) ∧
      ∀ o ∈ offers, ∃ info, m.type o.interface = .ok info := by
  obtain ⟨htypes, hall⟩ := memberDigest_of_purposes heach
  have hperm := h.map fun x => m.memberDigest x.2.1 x.1 x.2.2
  rw [List.map_map, hall] at hperm
  have hsome : ∀ o ∈ offers, ∃ d, o.digest m = .ok d := by
    intro o ho
    have hmem := hperm.subset (List.mem_map_of_mem ho)
    obtain ⟨op, -, hop⟩ := List.mem_map.mp hmem
    exact ⟨op.digest, hop.symm⟩
  obtain ⟨digests, hdigests⟩ := exists_mapM_eq_ok hsome
  rw [mapM_eq_ok_iff] at hdigests
  refine ⟨digests, hdigests, ?_, fun o ho => ?_⟩
  · have hok : (offers.map (Offer.digest m)).Perm
        ((each.flatten.map (·.digest)).map .ok) := by
      rw [List.map_map]
      exact hperm
    rw [hdigests] at hok
    exact (map_perm_map_iff fun _ _ => Except.ok.inj).mp hok
  · exact htypes _ (h.subset (List.mem_map_of_mem ho))

variable {interfaces : List TypeId}

/-- The check succeeds exactly if the digests of all operations differ. -/
theorem distinctOperations_eq_ok_iff (heach : (targets interfaces).mapM m.operations = .ok each)
    (all : List Operation) :
    m.distinctOperations interfaces = .ok all ↔
      all = each.flatten ∧ (each.flatten.map (·.digest)).Nodup := by
  rw [distinctOperations_eq heach]
  rcases addDistinct_cases [] nodup_nil each.flatten with ⟨hnodup, hok⟩ |
    ⟨before, first, second, later, hsplit, -, hfirst, hdigest, herror⟩
  · rw [nil_append] at hnodup hok
    rw [hok, Except.ok.injEq, and_iff_left hnodup, eq_comm]
  · -- the digest of the first operation comes again
    have hrepeated : ¬ (each.flatten.map (·.digest)).Nodup := by
      rw [hsplit, map_append, List.map_cons]
      intro hnodup
      refine disjoint_of_nodup_append hnodup (List.mem_map_of_mem hfirst) ?_
      rw [hdigest]
      exact List.mem_cons_self
    constructor
    · intro hok
      rw [herror] at hok
      contradiction
    · intro hall
      exact absurd hall.2 hrepeated

/-- So does registering one handler for every operation. -/
theorem Staffs.registerAll_eq_ok_iff (h : Staffs ids each offers)
    (heach : ids.mapM m.operations = .ok each) :
    (∃ result, ({} : Registry η).registerAll m offers = .ok result) ↔
      (each.flatten.map (·.digest)).Nodup := by
  obtain ⟨digests, hdigests, hperm, htypes⟩ := h.exists_digests heach
  rw [← hperm.nodup_iff]
  rcases Registry.registerAll_cases (r := {}) rfl nodup_nil hdigests htypes with
    ⟨hnodup, r, hall, -⟩ | ⟨hnot, error, hall⟩
  · simpa [hall] using hnodup
  · simpa [hall] using hnot

/-- All handlers are registered under their digests, and sealing tells their number. -/
theorem Staffs.of_registerAll (h : Staffs ids each offers)
    (heach : ids.mapM m.operations = .ok each) {digests : List Digest} {r : Registry η}
    (hall : ({} : Registry η).registerAll m offers = .ok (digests, r)) :
    offers.map (Offer.digest m) = digests.map .ok ∧
      r.close = .ok (each.flatten.length, { r with serving := true }) := by
  obtain ⟨digests', hdigests, hperm, htypes⟩ := h.exists_digests heach
  rcases Registry.registerAll_cases (r := {}) rfl nodup_nil hdigests htypes with
    ⟨-, r', hall', hopen, hsize⟩ | ⟨-, error, hall'⟩
  · obtain ⟨rfl, rfl⟩ := Prod.mk.inj (Except.ok.inj (hall.symm.trans hall'))
    refine ⟨hdigests, Registry.close_eq_ok_iff.mpr ⟨hopen, ?_, rfl⟩⟩
    have hlength := hperm.length_eq
    rw [length_map] at hlength
    rw [hsize, hlength]
    exact (Nat.zero_add _).symm
  · rw [hall] at hall'
    contradiction

/-- The check for operations with the same digest agrees with registering handlers for them.

The operations of an interface are those that `operations` lists: calling each method, getting and
setting each property, connecting to each signal, and, for the interface that every object has
alone, the question for types (`memberRoles`). -/
structure CheckAgrees (m : Model) (interfaces : List TypeId) (each : List (List Operation)) :
    Prop where
  /-- These are the operations of each interface that is checked. -/
  listed : (targets interfaces).mapM m.operations = .ok each
  /-- The check succeeds exactly if a new registry takes one handler for every operation, in
  whatever order they come. -/
  succeeds : ∀ (η : Type) (offers : List (Offer η)), Staffs (targets interfaces) each offers →
    ((∃ all, m.distinctOperations interfaces = .ok all) ↔
      ∃ result, ({} : Registry η).registerAll m offers = .ok result)
  /-- It returns the operations of one interface after the other. -/
  returns : ∀ all, m.distinctOperations interfaces = .ok all → all = each.flatten
  /-- Handlers are registered under the digests of their operations. -/
  digests : ∀ (η : Type) (offers : List (Offer η)) (digests : List Digest) (r : Registry η),
    Staffs (targets interfaces) each offers →
      ({} : Registry η).registerAll m offers = .ok (digests, r) →
        List.Forall₂ (fun o d => ∀ ops op, m.operations o.interface = .ok ops → op ∈ ops →
          op.role = o.role → op.member = o.member → op.digest = d) offers digests
  /-- Sealing the registry tells as many handlers as there are operations. -/
  counted : ∀ (η : Type) (offers : List (Offer η)) (digests : List Digest) (r : Registry η)
    (all : List Operation), Staffs (targets interfaces) each offers →
      ({} : Registry η).registerAll m offers = .ok (digests, r) →
        m.distinctOperations interfaces = .ok all → ∃ r', r.close = .ok (all.length, r')
  /-- If the check fails, it names the first operation whose digest was taken, and the operation
  before it that has the same digest. -/
  collision : ∀ error, m.distinctOperations interfaces = .error error →
    ∃ before first second later, each.flatten = before ++ second :: later ∧
      (before.map (·.digest)).Nodup ∧ first ∈ before ∧ first.digest = second.digest ∧
      error = .digestCollision first second

/-- **The check for operations with the same digest agrees with registries.** For every finished
model and any of its interfaces: the check succeeds exactly if a new registry takes one handler for
every operation, in whatever order they come, and both tell the same digests. -/
theorem collision_check_agrees {edits : List Edit} (hm : (Builder.build edits).finish = .ok m)
    (hinterfaces : ∀ i ∈ interfaces, m.HasInterface i) :
    ∃ each, m.CheckAgrees interfaces each := by
  have htargets : ∀ i ∈ targets interfaces, m.HasInterface i := by
    unfold targets
    split
    · exact hinterfaces
    · rw [List.forall_mem_append, List.forall_mem_singleton]
      exact ⟨hinterfaces, hasInterface_implicitBase hm⟩
  obtain ⟨each, heach⟩ := exists_mapM_eq_ok fun i hi => exists_operations hm (htargets i hi)
  have hcheck := distinctOperations_eq_ok_iff heach
  refine ⟨each, heach, ?_, fun all hall => ((hcheck all).mp hall).1, ?_, ?_, ?_⟩
  · intro η offers hstaffs
    simp [hcheck, hstaffs.registerAll_eq_ok_iff heach]
  · intro η offers digests r hstaffs hall
    obtain ⟨hdigests, -⟩ := hstaffs.of_registerAll heach hall
    have hpairs : List.Forall₂ (fun o d => o.digest m = .ok d) offers digests := by
      have hsame : List.Forall₂ Eq (offers.map (Offer.digest m)) (digests.map .ok) := by
        rw [hdigests, List.forall₂_eq_eq_eq]
      simpa using hsame
    refine hpairs.imp ?_
    intro o d hd ops op hops hop hrole hmember
    have hop := (memberDigest_of_operations hops).2 op hop
    rw [hrole, hmember] at hop
    exact Except.ok.inj (hop.symm.trans hd)
  · intro η offers digests r all hstaffs hregistered hall
    obtain ⟨rfl, -⟩ := (hcheck all).mp hall
    exact ⟨_, (hstaffs.of_registerAll heach hregistered).2⟩
  · intro error herror
    rw [distinctOperations_eq heach] at herror
    rcases addDistinct_cases [] List.nodup_nil each.flatten with ⟨-, hok⟩ |
      ⟨before, first, second, later, hsplit, hbefore, hfirst, hdigest, hfails⟩
    · rw [hok] at herror
      contradiction
    · exact ⟨before, first, second, later, hsplit, hbefore, hfirst, hdigest,
        Except.error.inj (herror.symm.trans hfails)⟩

/-! Two interfaces in different namespaces with the same qualified name, so that their operations
have the same digests, and one that has nothing in common with them. -/

def buttons : List Edit :=
  [.add "Text" "Ui::Button" (.interface { methods := [⟨"press", ⟨[], .void⟩⟩] }),
   .add "Text::Ui" "Button" (.interface { methods := [⟨"press", ⟨[], .void⟩⟩] }),
   .add "Text" "Label" (.interface {
     properties := [{ ident := "text", type := .string }]
     signals := [⟨"edited", ⟨[], .void⟩⟩] })]

/-- What the operations of the first button and of the label are, with the question for types. -/
def labelled : List (TypeId × Role × String) :=
  [(⟨7⟩, .call, "press"), (⟨9⟩, .get, "text"), (⟨9⟩, .set, "text"), (⟨9⟩, .connect, "edited"),
   (.implicitBase, .typeList, typeListMember)]

/-- A button and the label have operations with different digests; the two buttons collide. -/
theorem collision_check_agrees_buttons :
    (Builder.build buttons).finish = .ok (declared buttons) ∧
      (declared buttons).HasInterface ⟨7⟩ ∧ (declared buttons).HasInterface ⟨8⟩ ∧
      (declared buttons).HasInterface ⟨9⟩ ∧
      (∃ each, (declared buttons).CheckAgrees [⟨7⟩, ⟨9⟩] each ∧
        purposes (targets [⟨7⟩, ⟨9⟩]) each = labelled ∧
        ((declared buttons).distinctOperations [⟨7⟩, ⟨9⟩]).map (·.length) = .ok 5) ∧
      ∃ each op, (declared buttons).CheckAgrees [⟨8⟩, .implicitBase, ⟨7⟩] each ∧
        op.render = "Text::Ui::Button.press (call)" ∧
        (declared buttons).distinctOperations [⟨8⟩, .implicitBase, ⟨7⟩] =
          .error (.digestCollision op op) := by
  have hfinish : (Builder.build buttons).finish = .ok (declared buttons) := by cbv
  have hseven : (declared buttons).HasInterface ⟨7⟩ := ⟨_, rfl, rfl⟩
  have height : (declared buttons).HasInterface ⟨8⟩ := ⟨_, rfl, rfl⟩
  have hnine : (declared buttons).HasInterface ⟨9⟩ := ⟨_, rfl, rfl⟩
  have hbase := hasInterface_implicitBase hfinish
  obtain ⟨each, hagrees⟩ : ∃ each, (declared buttons).CheckAgrees [⟨7⟩, ⟨9⟩] each :=
    collision_check_agrees hfinish (by simp [hseven, hnine])
  obtain ⟨each', hagrees'⟩ :
      ∃ each, (declared buttons).CheckAgrees [⟨8⟩, .implicitBase, ⟨7⟩] each :=
    collision_check_agrees hfinish (by simp [height, hbase, hseven])
  have hpurposes : ((targets [⟨7⟩, ⟨9⟩]).mapM (declared buttons).operations).map
      (purposes (targets [⟨7⟩, ⟨9⟩])) = .ok labelled := rfl
  rw [hagrees.listed] at hpurposes
  have hsucceeds :
      ((declared buttons).distinctOperations [⟨7⟩, ⟨9⟩]).map (·.length) = .ok 5 := by
    decide +kernel
  refine ⟨hfinish, hseven, height, hnine, ⟨each, hagrees, Except.ok.inj hpurposes, hsucceeds⟩,
    each', ⟨.call, "Text::Ui::Button", "press",
      ((declared buttons).memberDigest .call ⟨8⟩ "press").toOption.getD default⟩,
    hagrees', rfl, ?_⟩
  decide +kernel

end Model

end Remoting

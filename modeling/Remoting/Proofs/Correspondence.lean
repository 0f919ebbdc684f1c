import Remoting.Proofs.Building
import Remoting.Proofs.DigestInputs
import Remoting.Proofs.WellFormed

/-!
# Remoting.Proofs.Correspondence

Digests do not depend on how a model was declared. When a map of type numbers carries everything
that a type is made of from one model to another (`Model.Correspondence`), the two types have the
same digest, and operations with such types have the same digest too
(`Model.digests_independent_of_declarations`). Numbers, other types, annotations, labels, defaults,
the names of parameters and the order of members do not matter.

The digest of a type is computed with a list of the types that are being digested. The map takes
that list along, and since it does not identify any two types that can be reached, a type is in the
list on the one side exactly when it is on the other (`Model.agree_memberToken`).
-/

namespace Remoting

/-! ## What a type is made of -/

namespace TypeKind

variable {types : List TypeInfo} {kind kind' : TypeKind}

/-- The types whose digests enter that of a type of this kind. Interfaces count by name alone. -/
def members : TypeKind → List TypeId
  | .record slots => slots.map (·.type)
  | .sequence element => [element.type]
  | .function s => s.parameters.map (·.type) ++ [s.result]
  | _ => []

theorem mem_members_of_mem_structureParts {type : TypeId}
    (h : StructurePart.member type ∈ kind.structureParts) : type ∈ kind.members := by
  cases kind <;> simp_all [structureParts, members, eq_comm]

/-- The parts of a well-formed type exist. -/
theorem WellFormed.within (h : kind.WellFormed types) {type : TypeId}
    (htype : type ∈ kind.members) :
    type.Within types := by
  cases kind with
  | record slots =>
    obtain ⟨s, hs, rfl⟩ := List.mem_map.mp htype
    exact h.2 s hs
  | sequence element =>
    rw [List.mem_singleton.mp htype]
    exact h.1
  | function s =>
    rcases List.mem_append.mp htype with hparameter | hresult
    · obtain ⟨p, hp, rfl⟩ := List.mem_map.mp hparameter
      exact h.parameters p hp
    · rw [List.mem_singleton.mp hresult]
      exact h.result
  | _ => contradiction

/-- Members that look the same through two views do so through whatever is made of these. -/
theorem Alike.comp {view view' : TypeId → β} (h : kind.Alike view view' kind') (g : β → γ) :
    kind.Alike (fun type => g (view type)) (fun type => g (view' type)) kind' := by
  unfold Alike at h ⊢
  split at h
  · exact h
  · have hmap := congrArg (List.map fun s => (s.1, g s.2)) h
    simpa [Function.comp_def] using hmap
  · exact ⟨h.1, congrArg g h.2⟩
  · have hmap := congrArg (List.map g) h.1
    exact ⟨by simpa [Function.comp_def] using hmap, congrArg g h.2⟩
  · exact h

/-- The pieces of structure of two kinds that are alike up to a map of type numbers. -/
theorem Alike.structureParts_eq {f : TypeId → TypeId} (h : kind.Alike f id kind') :
    kind'.structureParts =
      kind.structureParts.map (StructurePart.seen .text fun type => .member (f type)) := by
  have htext : Function.Injective StructurePart.text := fun _ _ => StructurePart.text.inj
  have hparts := ((alike_iff htext kind kind').mp (h.comp StructurePart.member)).2
  have hid : StructurePart.seen .text (fun type => .member (id type)) = id := by
    funext part
    cases part <;> rfl
  rw [hid, List.map_id] at hparts
  exact hparts.symm

end TypeKind

namespace Model

open Relation (ReflTransGen)

variable {m m' : Model} {f : TypeId → TypeId} {i j interface : TypeId} {info info' : TypeInfo}
  {members : Interface}

/-- The digest of a type enters that of another one. -/
def RefersTo (m : Model) (i j : TypeId) : Prop :=
  ∃ info, m.type? i = some info ∧ j ∈ info.kind.members

/-- The types that a type is made of, itself among them. -/
def Reaches (m : Model) : TypeId → TypeId → Prop := ReflTransGen m.RefersTo

/-- Every type is made of types of the model. -/
def Closed (m : Model) : Prop :=
  ∀ i info, m.type? i = some info → ∀ j ∈ info.kind.members, j.Within m.types

/-- A map of type numbers carries all that a type is made of from one model to another. It keeps
storage classes and qualified names, the names and ordinals of values, the names of slots, and what
refers to what, and does not identify any two types. -/
structure Correspondence (m m' : Model) (f : TypeId → TypeId) (i : TypeId) : Prop where
  injective : Set.InjOn f {j | m.Reaches i j}
  alike : ∀ j info, m.Reaches i j → m.type? j = some info →
    ∃ info', m'.type? (f j) = some info' ∧ info.storage = info'.storage ∧
      info.qualifiedName = info'.qualifiedName ∧ info.kind.Alike f id info'.kind

/-- To relate two types it is enough to look at finitely many types, among which are all those that
they refer to. -/
theorem Correspondence.of_mem {ids : List TypeId} (hi : i ∈ ids)
    (hinj : ∀ j ∈ ids, ∀ k ∈ ids, f j = f k → j = k)
    (halike : ∀ j ∈ ids, ∃ info info', m.type? j = some info ∧ m'.type? (f j) = some info' ∧
      info.storage = info'.storage ∧ info.qualifiedName = info'.qualifiedName ∧
      info.kind.Alike f id info'.kind ∧ ∀ k ∈ info.kind.members, k ∈ ids) :
    m.Correspondence m' f i := by
  have hreach : ∀ j, m.Reaches i j → j ∈ ids := by
    intro j hj
    induction hj with
    | refl => exact hi
    | tail hprevious hrefers ih =>
      obtain ⟨info, -, hinfo, -, -, -, -, hmembers⟩ := halike _ ih
      obtain ⟨info₁, hinfo₁, hk⟩ := hrefers
      rw [Option.some.inj (hinfo₁.symm.trans hinfo)] at hk
      exact hmembers _ hk
  refine ⟨fun j hj k hk => hinj j (hreach j hj) k (hreach k hk), fun j info hj hinfo => ?_⟩
  obtain ⟨info₁, info', hinfo₁, hinfo', hstorage, hname, hkind, -⟩ := halike j (hreach j hj)
  rw [Option.some.inj (hinfo.symm.trans hinfo₁)]
  exact ⟨info', hinfo', hstorage, hname, hkind⟩

/-! ## Types -/

theorem exists_type?_of_within (h : j.Within m.types) : ∃ info, m.type? j = some info :=
  ⟨_, List.getElem?_eq_getElem h⟩

/-- The tokens of a type agree when those of its members do. -/
theorem agree_typeTokens {active active' : List TypeId} (hinfo : m.type? j = some info)
    (hinfo' : m'.type? (f j) = some info') (hstorage : info.storage = info'.storage)
    (hname : info.qualifiedName = info'.qualifiedName) (halike : info.kind.Alike f id info'.kind)
    (hmembers : ∀ k ∈ info.kind.members,
      Agree (m.memberToken (j :: active) k) (m'.memberToken (f j :: active') (f k))) :
    Agree (m.typeTokens active j) (m'.typeTokens active' (f j)) := by
  have htokens : info'.tokens = info.tokens := by
    funext parts
    rw [TypeInfo.tokens, TypeInfo.tokens, hstorage, hname]
  rw [typeTokens_of_type? hinfo, typeTokens_of_type? hinfo', htokens, halike.structureParts_eq]
  refine Agree.map (Agree.mapM fun part hpart => ?_) info.tokens
  cases part with
  | text s => exact .ok (Token.text s)
  | member k => exact hmembers k (TypeKind.mem_members_of_mem_structureParts hpart)

/-- The tokens of corresponding members agree, inside corresponding types. -/
theorem agree_memberToken (hclosed : m.Closed) (hc : m.Correspondence m' f i)
    {active : List TypeId} {j : TypeId} (hactive : ∀ a ∈ active, m.Reaches i a)
    (hj : m.Reaches i j) (hwithin : j.Within m.types) :
    Agree (m.memberToken active j) (m'.memberToken (active.map f) (f j)) := by
  obtain ⟨info, hinfo⟩ := exists_type?_of_within hwithin
  obtain ⟨info', hinfo', hstorage, hname, halike⟩ := hc.alike j info hj hinfo
  by_cases hmem : j ∈ active
  · rw [memberToken_of_mem hinfo hmem, memberToken_of_mem hinfo' (List.mem_map_of_mem hmem), hname]
    exact .ok _
  · have hmem' : f j ∉ active.map f := by
      intro himage
      obtain ⟨a, ha, heq⟩ := List.mem_map.mp himage
      exact hmem (hc.injective (hactive a ha) hj heq ▸ ha)
    rw [memberToken_of_not_mem hmem, memberToken_of_not_mem hmem']
    refine Agree.map (agree_typeTokens hinfo hinfo' hstorage hname halike fun k hk => ?_) _
    have hactive' : ∀ a ∈ j :: active, m.Reaches i a := List.forall_mem_cons.mpr ⟨hj, hactive⟩
    exact agree_memberToken hclosed hc hactive' (hj.tail ⟨info, hinfo, hk⟩)
      (hclosed j info hinfo k hk)
termination_by Schema.unseen m.types.length active
decreasing_by
  exact Schema.unseen_cons_lt hwithin hmem

/-- Corresponding types have the same digest. -/
theorem agree_typeDigest (hclosed : m.Closed) (hc : m.Correspondence m' f i)
    (hi : i.Within m.types) : Agree (m.typeDigest i) (m'.typeDigest (f i)) := by
  obtain ⟨info, hinfo⟩ := exists_type?_of_within hi
  obtain ⟨info', hinfo', hstorage, hname, halike⟩ := hc.alike i info .refl hinfo
  have htokens : Agree (m.typeTokens [] i) (m'.typeTokens [] (f i)) := by
    refine agree_typeTokens hinfo hinfo' hstorage hname halike fun k hk => ?_
    have hactive : ∀ a ∈ [i], m.Reaches i a := by
      intro a ha
      rw [List.mem_singleton.mp ha]
      exact .refl
    exact agree_memberToken hclosed hc hactive (.single ⟨info, hinfo, hk⟩)
      (hclosed i info hinfo k hk)
  exact htokens.bind fun ts => .ok _

/-! ## Operations -/

/-- Operations of the same name with types of the same digests have the same digest. -/
theorem agree_operationDigest {interface' : TypeId} (hinfo : m.type? interface = some info)
    (hinfo' : m'.type? interface' = some info') (hname : info.qualifiedName = info'.qualifiedName)
    (role : Role) (member : String) {args : List TypeId} {result result' : TypeId}
    (hargs : ∀ a ∈ args, Agree (m.typeDigest a) (m'.typeDigest (f a)))
    (hresult : Agree (m.typeDigest result) (m'.typeDigest result')) :
    Agree (m.operationDigest role interface member args result)
      (m'.operationDigest role interface' member (args.map f) result') := by
  rw [operationDigest, operationDigest, type_eq_ok_iff.mpr hinfo, type_eq_ok_iff.mpr hinfo']
  show Agree (args.mapM m.typeDigest >>= _) ((args.map f).mapM m'.typeDigest >>= _)
  refine (Agree.mapM hargs).bind fun ds => hresult.bind fun d => ?_
  rw [hname]
  exact .ok _

theorem interface_eq_ok (hinfo : m.type? interface = some info)
    (hkind : info.kind = .interface members) :
    m.interface interface = .ok members := by
  simp [Model.interface, hinfo, TypeInfo.interface?, hkind]

theorem memberOf_eq_ok {name : String} {find? : Interface → String → Option α} {a : α}
    (hinfo : m.type? interface = some info) (hkind : info.kind = .interface members)
    (ha : find? members name = some a) :
    m.memberOf interface name find? = .ok a := by
  refine bind_eq_ok_iff.mpr ⟨members, interface_eq_ok hinfo hkind, ?_⟩
  rw [ha]
  rfl

/-- The entry with a key is found, when no two entries have the same key. -/
theorem find?_eq_some_of_nodup {key : α → String} {l : List α} (h : (l.map key).Nodup) {a : α}
    (ha : a ∈ l) : l.find? (fun b => key b == key a) = some a := by
  induction l with
  | nil => contradiction
  | cons b l ih =>
    rw [List.map_cons, List.nodup_cons] at h
    rcases List.mem_cons.mp ha with rfl | hmem
    · simp
    · have hne : key b ≠ key a := fun heq => h.1 (heq ▸ List.mem_map_of_mem hmem)
      rw [List.find?_cons_of_neg (by simpa using hne), ih h.2 hmem]

/-! Members are found by their names, so the digest of an operation is that of the member at
hand. -/

section Members

variable {types : List TypeInfo} {interface : TypeId} {info : TypeInfo} {members : Interface}

theorem methodDigest_of_mem (hw : members.WellFormed types) (hinfo : m.type? interface = some info)
    (hkind : info.kind = .interface members) {x : Method} (hx : x ∈ members.methods) :
    m.methodDigest interface x.name =
      m.operationDigest .call interface x.name (x.signature.parameters.map (·.type))
        x.signature.result := by
  have hnames : (members.methods.map (·.name)).Nodup := hw.names.of_append_left.of_append_right
  have hfind : members.method? x.name = some x := find?_eq_some_of_nodup hnames hx
  rw [methodDigest, memberOf_eq_ok hinfo hkind hfind]
  rfl

theorem property?_of_mem (hw : members.WellFormed types) {x : Slot}
    (hx : x ∈ members.properties) : members.property? x.ident = some x := by
  have hnames : (members.properties.map (·.ident)).Nodup := hw.names.of_append_left.of_append_left
  exact find?_eq_some_of_nodup hnames hx

section Members

variable (hw : members.WellFormed types) (hinfo : m.type? interface = some info)
  (hkind : info.kind = .interface members)
include hw hinfo hkind

theorem getterDigest_of_mem {x : Slot} (hx : x ∈ members.properties) :
    m.getterDigest interface x.ident = m.operationDigest .get interface x.ident [] x.type := by
  rw [getterDigest, memberOf_eq_ok hinfo hkind (property?_of_mem hw hx)]
  rfl

theorem setterDigest_of_mem {x : Slot} (hx : x ∈ members.properties) :
    m.setterDigest interface x.ident = m.operationDigest .set interface x.ident [x.type] .void := by
  rw [setterDigest, memberOf_eq_ok hinfo hkind (property?_of_mem hw hx)]
  rfl

theorem connectDigest_of_mem {x : Method} (hx : x ∈ members.signals) :
    m.connectDigest interface x.name =
      m.operationDigest .connect interface x.name (x.signature.parameters.map (·.type))
        x.signature.result := by
  have hnames : (members.signals.map (·.name)).Nodup := hw.names.of_append_right
  have hfind : members.signal? x.name = some x := find?_eq_some_of_nodup hnames hx
  rw [connectDigest, memberOf_eq_ok hinfo hkind hfind]
  rfl

end Members

end Members

/-- The types of a signature correspond to those of another one. -/
structure SignatureCorrespondence (m m' : Model) (f : TypeId → TypeId) (s s' : Signature) :
    Prop where
  parameters : s'.parameters.map (·.type) = s.parameters.map fun p => f p.type
  result : s'.result = f s.result
  types : ∀ i ∈ s.parameters.map (·.type) ++ [s.result], m.Correspondence m' f i

/-- Operations with corresponding signatures have the same digest. -/
theorem agree_operationDigest_of_signature (hclosed : m.Closed) {interface' : TypeId}
    (hinfo : m.type? interface = some info) (hinfo' : m'.type? interface' = some info')
    (hname : info.qualifiedName = info'.qualifiedName) (role : Role) (member : String)
    {s s' : Signature} (hs : s.WellFormed m.types) (hc : m.SignatureCorrespondence m' f s s') :
    Agree (m.operationDigest role interface member (s.parameters.map (·.type)) s.result)
      (m'.operationDigest role interface' member (s'.parameters.map (·.type)) s'.result) := by
  have hparameters : s'.parameters.map (·.type) = (s.parameters.map (·.type)).map f := by
    rw [hc.parameters, List.map_map]
    rfl
  rw [hparameters, hc.result]
  refine agree_operationDigest hinfo hinfo' hname role member (fun a ha => ?_) ?_
  · have hwithin : a.Within m.types := by
      obtain ⟨p, hp, rfl⟩ := List.mem_map.mp ha
      exact hs.parameters p hp
    exact agree_typeDigest hclosed (hc.types a (List.mem_append_left _ ha)) hwithin
  · have hresult : s.result ∈ s.parameters.map (·.type) ++ [s.result] := by simp
    exact agree_typeDigest hclosed (hc.types s.result hresult) hs.result

/-! ## Finished models -/

section Finished

variable {edits : List Edit} {b : Builder}

theorem wellFormed_of_type? (h : b.finish = .ok m) (hinfo : m.type? i = some info) :
    info.kind.WellFormed m.types := by
  obtain ⟨hb, rfl⟩ := Builder.finish_eq_ok_iff.mp h
  exact hb.kinds info (List.mem_of_getElem? hinfo)

theorem wellFormed_of_interface (h : b.finish = .ok m) (hinfo : m.type? i = some info)
    (hkind : info.kind = .interface members) : members.WellFormed m.types := by
  have hwellFormed := wellFormed_of_type? h hinfo
  rw [hkind] at hwellFormed
  exact hwellFormed

/-- What a finished model is made of exists. -/
theorem closed_of_finish (h : b.finish = .ok m) : m.Closed :=
  fun _ _ hinfo _ hj => (wellFormed_of_type? h hinfo).within hj

theorem type?_of_keeps (hkeeps : Builder.initial.Keeps b) (h : b.finish = .ok m)
    (hinfo : Builder.initial.type? i = some info) : m.type? i = some info := by
  obtain ⟨-, rfl⟩ := Builder.finish_eq_ok_iff.mp h
  exact Builder.type?_of_keeps hkeeps hinfo

/-- A finished model has the types that every builder begins with, under the same numbers. -/
theorem type?_of_finish (h : (Builder.build edits).finish = .ok m)
    (hinfo : Builder.initial.type? i = some info) : m.type? i = some info :=
  type?_of_keeps (Builder.keeps_edits Builder.initial edits) h hinfo

theorem typeDigest_of_void (hvoid : m.type? .void = some ⟨"void", [], .void⟩) :
    m.typeDigest .void = .ok (.ofTokens (TypeInfo.tokens ⟨"void", [], .void⟩ [])) := by
  rw [typeDigest, typeTokens_of_type? hvoid]
  rfl

/-- In every finished model the type without values has the same digest. -/
theorem typeDigest_void (h : (Builder.build edits).finish = .ok m) :
    m.typeDigest .void = .ok (.ofTokens (TypeInfo.tokens ⟨"void", [], .void⟩ [])) :=
  typeDigest_of_void (type?_of_finish h rfl)

end Finished

/-- **Digests do not depend on how a model was declared.** Types that correspond to each other in
two finished models have the same digest. Methods, properties and signals of interfaces with the
same qualified name have the same digests when they have the same name and their types
correspond to each other. -/
theorem digests_independent_of_declarations {edits edits' : List Edit}
    (hm : (Builder.build edits).finish = .ok m) (hm' : (Builder.build edits').finish = .ok m')
    (f : TypeId → TypeId) :
    (∀ i, i.Within m.types → m.Correspondence m' f i →
      ∃ d, m.typeDigest i = .ok d ∧ m'.typeDigest (f i) = .ok d) ∧
    ∀ (interface interface' : TypeId) (info info' : TypeInfo) (members members' : Interface),
      m.type? interface = some info → m'.type? interface' = some info' →
      info.kind = .interface members → info'.kind = .interface members' →
      info.qualifiedName = info'.qualifiedName →
      (∀ x ∈ members.methods, ∀ x' ∈ members'.methods, x.name = x'.name →
        m.SignatureCorrespondence m' f x.signature x'.signature →
        ∃ d, m.methodDigest interface x.name = .ok d ∧
          m'.methodDigest interface' x'.name = .ok d) ∧
      (∀ x ∈ members.properties, ∀ x' ∈ members'.properties, x.ident = x'.ident →
        x'.type = f x.type → m.Correspondence m' f x.type →
        (∃ d, m.getterDigest interface x.ident = .ok d ∧
          m'.getterDigest interface' x'.ident = .ok d) ∧
        ∃ d, m.setterDigest interface x.ident = .ok d ∧
          m'.setterDigest interface' x'.ident = .ok d) ∧
      (∀ x ∈ members.signals, ∀ x' ∈ members'.signals, x.name = x'.name →
        m.SignatureCorrespondence m' f x.signature x'.signature →
        ∃ d, m.connectDigest interface x.name = .ok d ∧
          m'.connectDigest interface' x'.name = .ok d) := by
  have hclosed := closed_of_finish hm
  refine ⟨fun i hi hc => agree_typeDigest hclosed hc hi, ?_⟩
  intro interface interface' info info' members members' hinfo hinfo' hkind hkind' hname
  have hw : members.WellFormed m.types := wellFormed_of_interface hm hinfo hkind
  have hw' : members'.WellFormed m'.types := wellFormed_of_interface hm' hinfo' hkind'
  refine ⟨?_, ?_, ?_⟩
  · intro x hx x' hx' hsame hc
    rw [methodDigest_of_mem hw hinfo hkind hx, methodDigest_of_mem hw' hinfo' hkind' hx', ← hsame]
    exact agree_operationDigest_of_signature hclosed hinfo hinfo' hname .call x.name
      (hw.methods x hx) hc
  · intro x hx x' hx' hsame htype hc
    have hproperty : Agree (m.typeDigest x.type) (m'.typeDigest (f x.type)) :=
      agree_typeDigest hclosed hc (hw.properties x hx)
    have hvoid : Agree (m.typeDigest .void) (m'.typeDigest .void) :=
      ⟨_, typeDigest_void hm, typeDigest_void hm'⟩
    rw [getterDigest_of_mem hw hinfo hkind hx, getterDigest_of_mem hw' hinfo' hkind' hx',
      setterDigest_of_mem hw hinfo hkind hx, setterDigest_of_mem hw' hinfo' hkind' hx', ← hsame,
      htype]
    refine ⟨agree_operationDigest (f := f) hinfo hinfo' hname .get x.ident (by simp) hproperty,
      agree_operationDigest hinfo hinfo' hname .set x.ident ?_ hvoid⟩
    intro a ha
    rw [List.mem_singleton.mp ha]
    exact hproperty
  · intro x hx x' hx' hsame hc
    rw [connectDigest_of_mem hw hinfo hkind hx, connectDigest_of_mem hw' hinfo' hkind' hx',
      ← hsame]
    exact agree_operationDigest_of_signature hclosed hinfo hinfo' hname .connect x.name
      (hw.signals x hx) hc

/-! The digests of two declarations of the same outline. Sections hold lists of sections. -/

def outline : List Edit :=
  [.declare "Text" "Section" .record,
   .add "Text" "Sections" (.sequence { ident := "section", type := ⟨7⟩ }),
   .define ⟨7⟩ (.record
    [{ ident := "title", type := .string }, { ident := "parts", type := ⟨8⟩ }]),
   .add "Text" "Outline" (.interface {
    properties := [{ ident := "top", type := ⟨7⟩ }]
    methods := [⟨"find", ⟨[{ ident := "title", type := .string }], ⟨8⟩⟩⟩, ⟨"clear", ⟨[], .void⟩⟩]
    signals := [⟨"changed", ⟨[{ ident := "section", type := ⟨7⟩ }], .void⟩⟩] })]

/-- The types in another order and among others, with labels, a default, other names of parameters
and the methods in another order. -/
def outlineRearranged : List Edit :=
  [.add "Draw" "Color" (.enum [⟨"RED", "Red", "", 1⟩]),
   .declare "Text" "Sections" .sequence,
   .declare "Text" "Outline" .interface,
   .add "Text" "Section" (.record
    [{ ident := "title", type := .string, annotations := { label := some "Title" } },
     { ident := "parts", type := ⟨8⟩ }]),
   .define ⟨8⟩ (.sequence { ident := "section", type := ⟨10⟩ }),
   .define ⟨9⟩ (.interface {
    prerequisites := [.implicitBase]
    properties := [{ ident := "top", type := ⟨10⟩, annotations := { label := some "Top" } }]
    methods := [⟨"clear", ⟨[], .void⟩⟩,
      ⟨"find", ⟨[{ ident := "name", type := .string, default := some (.text "") }], ⟨8⟩⟩⟩]
    signals := [⟨"changed", ⟨[{ ident := "which", type := ⟨10⟩ }], .void⟩⟩] })]

/-- Where the types of the one declaration stand in the other. -/
def rearrange (id : TypeId) : TypeId := if id = ⟨7⟩ then ⟨10⟩ else id

/-- All that a list of edits declares. -/
def declared (edits : List Edit) : Model :=
  ⟨(Builder.build edits).types, (Builder.build edits).namespaces⟩

theorem correspondence_outline (i : TypeId) (hi : i ∈ [⟨0⟩, ⟨4⟩, ⟨7⟩, ⟨8⟩]) :
    (declared outline).Correspondence (declared outlineRearranged) rearrange i := by
  refine .of_mem hi (by decide) ?_
  simp only [List.forall_mem_cons]
  exact ⟨⟨_, _, rfl, rfl, rfl, rfl, rfl, by decide⟩, ⟨_, _, rfl, rfl, rfl, rfl, rfl, by decide⟩,
    ⟨_, _, rfl, rfl, rfl, rfl, rfl, by decide⟩,
    ⟨_, _, rfl, rfl, rfl, rfl, ⟨rfl, rfl⟩, by decide⟩, List.forall_mem_nil _⟩

theorem digests_independent_outline :
    (Builder.build outline).finish = .ok (declared outline) ∧
      (Builder.build outlineRearranged).finish = .ok (declared outlineRearranged) ∧
      (∃ d, (declared outline).typeDigest ⟨7⟩ = .ok d ∧
        (declared outlineRearranged).typeDigest ⟨10⟩ = .ok d) ∧
      (∃ d, (declared outline).methodDigest ⟨9⟩ "find" = .ok d ∧
        (declared outlineRearranged).methodDigest ⟨9⟩ "find" = .ok d) ∧
      (∃ d, (declared outline).getterDigest ⟨9⟩ "top" = .ok d ∧
        (declared outlineRearranged).getterDigest ⟨9⟩ "top" = .ok d) ∧
      (∃ d, (declared outline).setterDigest ⟨9⟩ "top" = .ok d ∧
        (declared outlineRearranged).setterDigest ⟨9⟩ "top" = .ok d) ∧
      ∃ d, (declared outline).connectDigest ⟨9⟩ "changed" = .ok d ∧
        (declared outlineRearranged).connectDigest ⟨9⟩ "changed" = .ok d := by
  have hm : (Builder.build outline).finish = .ok (declared outline) := by cbv
  have hm' : (Builder.build outlineRearranged).finish = .ok (declared outlineRearranged) := by cbv
  obtain ⟨htypes, hoperations⟩ := digests_independent_of_declarations hm hm' rearrange
  obtain ⟨hmethods, hproperties, hsignals⟩ :=
    hoperations ⟨9⟩ ⟨9⟩ _ _ _ _ rfl rfl rfl rfl rfl
  have hfind := hmethods _ (.head _) _ (.tail _ (.head _)) rfl
    ⟨rfl, rfl, fun i hi => correspondence_outline i (by revert i; decide)⟩
  obtain ⟨hget, hset⟩ := hproperties _ (.head _) _ (.head _) rfl rfl
    (correspondence_outline ⟨7⟩ (by decide))
  have hchanged := hsignals _ (.head _) _ (.head _) rfl
    ⟨rfl, rfl, fun i hi => correspondence_outline i (by revert i; decide)⟩
  have hwithin : 7 < (declared outline).types.length := by decide
  exact ⟨hm, hm', htypes ⟨7⟩ hwithin (correspondence_outline ⟨7⟩ (by decide)), hfind, hget, hset,
    hchanged⟩

end Model

end Remoting

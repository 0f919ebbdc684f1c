import Remoting.Proofs.Correspondence
import Remoting.Schema.Lineage

/-!
# Remoting.Proofs.Lineage

The types that objects have. In a finished model the walk along prerequisites succeeds, and it meets
exactly what can be reached (`Model.exists_closure`). So the type list of an interface holds the
digests of the interface, of everything that it needs, directly or through others, and of the
interface that every object has (`Model.exists_typeList`).

A walk that passes some types by cannot promise to meet everything that can be reached, only that
what it meets is closed under prerequisites up to those types (`Model.Walked`).
-/

namespace Remoting.Model

variable {seen rest met pending ids : List TypeId} {id : TypeId}

open Relation (ReflTransGen TransGen)
open Schema (Needs)

variable {m : Model} {i t : TypeId}

/-- The type of a number is an interface. -/
def HasInterface (m : Model) (id : TypeId) : Prop :=
  ∃ info, m.type? id = some info ∧ info.isInterface = true

/-- Prerequisites are interfaces. -/
def Founded (m : Model) : Prop := ∀ child parent, Needs m.types child parent → m.HasInterface parent

theorem HasInterface.within (h : m.HasInterface t) : t.Within m.types := by
  obtain ⟨info, hinfo, -⟩ := h
  exact (List.getElem?_eq_some_iff.mp hinfo).1

theorem HasInterface.exists_members (h : m.HasInterface t) :
    ∃ info members, m.type? t = some info ∧ info.kind = .interface members := by
  obtain ⟨info, hinfo, hinterface⟩ := h
  cases hkind : info.kind with
  | interface members => exact ⟨info, members, hinfo, hkind⟩
  | _ => simp [TypeInfo.isInterface, TypeInfo.interface?, hkind] at hinterface

/-! ## Walks -/

/-- What a walk from some types has met, where it passed others by. -/
structure Walked (m : Model) (seen pending met : List TypeId) : Prop where
  reached : ∀ id ∈ met, ∃ start ∈ pending, ReflTransGen (Needs m.types) start id
  covered : ∀ id ∈ pending, id ∈ seen ∨ id ∈ met
  closed : ∀ id ∈ met, ∀ parent, Needs m.types id parent → parent ∈ seen ∨ parent ∈ met

theorem Walked.nil (m : Model) (seen : List TypeId) : m.Walked seen [] [] :=
  ⟨by simp, by simp, by simp⟩

theorem Walked.skip (h : m.Walked seen rest met)
    (hseen : id ∈ seen) : m.Walked seen (id :: rest) met where
  reached t ht := by
    obtain ⟨start, hstart, hreach⟩ := h.reached t ht
    exact ⟨start, List.mem_cons_of_mem id hstart, hreach⟩
  covered := List.forall_mem_cons.mpr ⟨.inl hseen, h.covered⟩
  closed := h.closed

/-- A type that is met, and then what it needs. -/
theorem Walked.visit {info : TypeInfo} (hinfo : m.type? id = some info)
    (h : m.Walked (id :: seen) (info.prerequisites ++ rest) met) :
    m.Walked seen (id :: rest) (id :: met) := by
  have hmove {t : TypeId} (ht : t ∈ id :: seen ∨ t ∈ met) : t ∈ seen ∨ t ∈ id :: met := by
    simp only [List.mem_cons] at ht ⊢
    tauto
  refine ⟨?_, ?_, ?_⟩
  · refine List.forall_mem_cons.mpr ⟨⟨id, List.mem_cons_self, .refl⟩, fun t ht => ?_⟩
    obtain ⟨start, hstart, hreach⟩ := h.reached t ht
    rcases List.mem_append.mp hstart with hneeded | hrest
    · exact ⟨id, List.mem_cons_self, .head ⟨info, hinfo, hneeded⟩ hreach⟩
    · exact ⟨start, List.mem_cons_of_mem id hrest, hreach⟩
  · refine List.forall_mem_cons.mpr ⟨.inr List.mem_cons_self, fun t ht => ?_⟩
    exact hmove (h.covered t (List.mem_append_right _ ht))
  · refine List.forall_mem_cons.mpr ⟨fun parent hneeds => ?_, fun t ht parent hneeds => ?_⟩
    · obtain ⟨info', hinfo', hparent⟩ := hneeds
      rw [Option.some.inj (hinfo'.symm.trans hinfo)] at hparent
      exact hmove (h.covered parent (List.mem_append_left _ hparent))
    · exact hmove (h.closed t ht parent hneeds)

/-- A walk from types of the model succeeds. -/
theorem exists_walk (hfounded : m.Founded) (seen pending : List TypeId)
    (hwithin : ∀ id ∈ pending, id.Within m.types) :
    ∃ met, m.walk seen pending = .ok met ∧ m.Walked seen pending met := by
  -- the induction is the recursion of the walk itself
  induction seen, pending using walk.induct m with
  | case1 seen =>
    rw [walk]
    exact ⟨[], rfl, .nil m seen⟩
  | case2 seen id rest hseen ih =>
    obtain ⟨met, hwalk, hmet⟩ := ih fun t ht => hwithin t (List.mem_cons_of_mem id ht)
    rw [walk, dif_pos hseen]
    exact ⟨met, hwalk, hmet.skip hseen⟩
  | case3 seen id rest hseen hnone =>
    obtain ⟨info, hinfo⟩ := exists_type?_of_within (hwithin id List.mem_cons_self)
    rw [hnone] at hinfo
    contradiction
  | case4 seen id rest hseen info hinfo ih =>
    have hwithin' : ∀ t ∈ info.prerequisites ++ rest, t.Within m.types := by
      intro t ht
      rcases List.mem_append.mp ht with hneeded | hrest
      · exact (hfounded id t ⟨info, hinfo, hneeded⟩).within
      · exact hwithin t (List.mem_cons_of_mem id hrest)
    obtain ⟨met, hwalk, hmet⟩ := ih hwithin'
    refine ⟨id :: met, ?_, hmet.visit hinfo⟩
    rw [walk, dif_neg hseen]
    split
    · next hnone =>
      rw [hnone] at hinfo
      contradiction
    · next info' hinfo' =>
      obtain rfl := Option.some.inj (hinfo'.symm.trans hinfo)
      rw [hwalk]
      rfl

/-- A walk meets every type once, and none of those that it passes by. -/
theorem nodup_of_walk (h : m.walk seen pending = .ok met) : met.Nodup ∧ ∀ id ∈ met, id ∉ seen := by
  induction seen, pending using walk.induct m generalizing met with
  | case1 seen =>
    rw [walk] at h
    cases h
    simp
  | case2 seen id rest hseen ih =>
    rw [walk, dif_pos hseen] at h
    exact ih h
  | case3 seen id rest hseen hnone =>
    rw [walk, dif_neg hseen] at h
    split at h
    · contradiction
    · next info hinfo =>
      rw [hnone] at hinfo
      contradiction
  | case4 seen id rest hseen info hinfo ih =>
    rw [walk, dif_neg hseen] at h
    split at h
    · contradiction
    · next info' hinfo' =>
      obtain rfl := Option.some.inj (hinfo'.symm.trans hinfo)
      obtain ⟨met', hwalk, hmet⟩ := bind_eq_ok_iff.mp h
      cases hmet
      obtain ⟨hnodup, hfresh⟩ := ih hwalk
      grind

/-- A walk that passes nothing by meets everything that can be reached. -/
theorem Walked.mem_iff (h : m.Walked [] pending met) :
    t ∈ met ↔ ∃ start ∈ pending, ReflTransGen (Needs m.types) start t := by
  constructor
  · exact h.reached t
  · rintro ⟨start, hstart, hreach⟩
    induction hreach with
    | refl => simpa using h.covered start hstart
    | tail _ hneeds ih => simpa using h.closed _ ih _ hneeds

/-- The closure of a type holds the type and everything that it needs, and nothing else. -/
theorem exists_closure (hfounded : m.Founded) (hi : i.Within m.types) :
    ∃ ids, m.closure i = .ok ids ∧ ∀ t, t ∈ ids ↔ ReflTransGen (Needs m.types) i t := by
  have hwithin : ∀ id ∈ [i], id.Within m.types := by simpa using hi
  obtain ⟨ids, hwalk, hwalked⟩ := exists_walk hfounded [] [i] hwithin
  exact ⟨ids, hwalk, fun t => by simp [hwalked.mem_iff]⟩

/-! ## The types of objects -/

/-- An interface is a type of the objects of another one. -/
def IsTypeOf (m : Model) (t i : TypeId) : Prop :=
  t = i ∨ TransGen (Needs m.types) i t ∨ t = .implicitBase

theorem reflTransGen_or_base_iff :
    ReflTransGen (Needs m.types) i t ∨ t = .implicitBase ↔ m.IsTypeOf t i := by
  rw [Relation.reflTransGen_iff_eq_or_transGen, IsTypeOf, or_assoc]

theorem exists_interface (h : m.HasInterface i) : ∃ members, m.interface i = .ok members := by
  obtain ⟨info, members, hinfo, hkind⟩ := h.exists_members
  exact ⟨members, interface_eq_ok hinfo hkind⟩

/-- The types of an object are those of its interface. -/
theorem exists_objectTypes (hfounded : m.Founded) (hi : m.HasInterface i) :
    ∃ ids, m.objectTypes i = .ok ids ∧ ∀ t, t ∈ ids ↔ m.IsTypeOf t i := by
  obtain ⟨members, hmembers⟩ := exists_interface hi
  obtain ⟨ids, hclosure, hids⟩ := exists_closure hfounded hi.within
  by_cases hbase : .implicitBase ∈ ids
  · refine ⟨ids, ?_, fun t => ?_⟩
    · rw [objectTypes, hmembers, hclosure]
      exact congrArg Except.ok (if_pos hbase)
    · rw [← reflTransGen_or_base_iff, ← hids]
      refine ⟨.inl, fun ht => ?_⟩
      rcases ht with hmem | rfl
      · exact hmem
      · exact hbase
  · refine ⟨ids ++ [.implicitBase], ?_, fun t => ?_⟩
    · rw [objectTypes, hmembers, hclosure]
      exact congrArg Except.ok (if_neg hbase)
    · rw [← reflTransGen_or_base_iff, ← hids, List.mem_append, List.mem_singleton]

theorem nodup_of_objectTypes (h : m.objectTypes i = .ok ids) : ids.Nodup := by
  obtain ⟨-, -, hrest⟩ := bind_eq_ok_iff.mp h
  obtain ⟨closure, hclosure, hids⟩ := bind_eq_ok_iff.mp hrest
  cases hids
  have hnodup : closure.Nodup := (nodup_of_walk hclosure).1
  split
  · exact hnodup
  · next hbase =>
    rw [List.nodup_append]
    grind

/-- Every interface has a digest; it depends on nothing but the name. -/
theorem exists_typeDigest (h : m.HasInterface t) : ∃ d, m.typeDigest t = .ok d := by
  obtain ⟨info, members, hinfo, hkind⟩ := h.exists_members
  refine ⟨.ofTokens (info.tokens []), ?_⟩
  rw [typeDigest, typeTokens_of_type? hinfo, hkind]
  rfl

theorem length_typeList {digests : List Digest}
    (hids : m.objectTypes i = .ok ids) (hdigests : m.typeList i = .ok digests) :
    digests.length = ids.length := by
  rw [typeList, hids] at hdigests
  have hmap : ids.map m.typeDigest = digests.map .ok := mapM_eq_ok_iff.mp hdigests
  simpa using (congrArg List.length hmap).symm

/-- No two interfaces have the same digest. -/
def Distinct (m : Model) : Prop :=
  ∀ i t d, m.HasInterface i → m.HasInterface t → m.typeDigest i = .ok d → m.typeDigest t = .ok d →
    i = t

section Finished

variable {edits : List Edit}

section Finished

variable (hm : (Builder.build edits).finish = .ok m)
include hm

theorem founded_of_finish : m.Founded := by
  rintro child parent ⟨info, hinfo, hparent⟩
  cases hkind : info.kind with
  | interface members =>
    rw [TypeInfo.prerequisites, hkind] at hparent
    exact (wellFormed_of_interface hm hinfo hkind).prerequisites parent hparent
  | _ => simp [TypeInfo.prerequisites, hkind] at hparent

theorem hasInterface_implicitBase : m.HasInterface .implicitBase :=
  ⟨_, type?_of_finish hm rfl, rfl⟩

/-- What an object of an interface has for types are interfaces. -/
theorem IsTypeOf.hasInterface (hi : m.HasInterface i) (ht : m.IsTypeOf t i) : m.HasInterface t := by
  rcases ht with rfl | htrans | rfl
  · exact hi
  · obtain ⟨child, -, hneeds⟩ := Relation.TransGen.tail'_iff.mp htrans
    exact founded_of_finish hm child t hneeds
  · exact hasInterface_implicitBase hm

/-- The type list of an interface holds the digests of the types that its objects have. -/
theorem exists_typeList (hi : m.HasInterface i) :
    ∃ digests, m.typeList i = .ok digests ∧
      ∀ d, d ∈ digests ↔ ∃ t, m.IsTypeOf t i ∧ m.typeDigest t = .ok d := by
  obtain ⟨ids, hids, hmem⟩ := exists_objectTypes (founded_of_finish hm) hi
  have hdigest : ∀ t ∈ ids, ∃ d, m.typeDigest t = .ok d := fun t ht =>
    exists_typeDigest (((hmem t).mp ht).hasInterface hm hi)
  choose! digest hdigest using hdigest
  have hdigests : ids.map m.typeDigest = (ids.map digest).map .ok := by
    rw [List.map_map]
    exact List.map_congr_left hdigest
  refine ⟨ids.map digest, ?_, fun d => ?_⟩
  · rw [typeList, hids]
    exact mapM_eq_ok_iff.mpr hdigests
  · have hd : d ∈ ids.map digest ↔
        (.ok d : Except SchemaError Digest) ∈ ids.map m.typeDigest := by
      rw [hdigests, List.mem_map_of_injective fun _ _ => Except.ok.inj]
    rw [hd, List.mem_map]
    simp only [hmem]

/-- Of distinct interfaces, the digest is in a type list exactly if the interface is one of the
types. -/
theorem mem_typeList_iff (hdistinct : m.Distinct) (hi : m.HasInterface i) {digests : List Digest}
    (hdigests : m.typeList i = .ok digests) {d : Digest} (ht : m.HasInterface t)
    (hd : m.typeDigest t = .ok d) : d ∈ digests ↔ m.IsTypeOf t i := by
  obtain ⟨digests', hdigests', hmem⟩ := exists_typeList hm hi
  obtain rfl := Except.ok.inj (hdigests.symm.trans hdigests')
  rw [hmem]
  constructor
  · rintro ⟨t', ht', hd'⟩
    rwa [hdistinct t t' d ht (ht'.hasInterface hm hi) hd hd']
  · exact fun hof => ⟨t, hof, hd⟩

end Finished

theorem finish_initial : (Builder.build []).finish = .ok initial := by
  cbv

/-- The digest of the question for the types of an object depends on two types only. -/
theorem agree_typeListDigest_of_types (hvoid : m.type? .void = some ⟨"void", [], .void⟩)
    (hbase : m.type? .implicitBase = some ⟨"ImplicitBase", ["Aida"], .interface {}⟩) :
    Agree m.typeListDigest initial.typeListDigest :=
  agree_operationDigest (f := id) hbase (type?_of_finish finish_initial rfl) rfl .typeList
    typeListMember (by simp) ⟨_, typeDigest_of_void hvoid, typeDigest_void finish_initial⟩

/-- The question for the types of an object has the same digest in every finished model. -/
theorem agree_typeListDigest (hm : (Builder.build edits).finish = .ok m) :
    Agree m.typeListDigest initial.typeListDigest :=
  agree_typeListDigest_of_types (type?_of_finish hm rfl) (type?_of_finish hm rfl)

end Finished

end Remoting.Model

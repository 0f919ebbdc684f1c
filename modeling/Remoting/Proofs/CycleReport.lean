import Remoting.Proofs.Building
import Remoting.Proofs.Stepwise
import Remoting.Proofs.WellFormed

/-!
# Remoting.Proofs.CycleReport

What is reported when interfaces need each other in a circle. The search for cycles is taken here
step by step, with a mark for every type and a stack of the types on the way down. A type is marked
as active when it is put on the stack and as done when it is taken off. When an active type is met
again, the cycle is cut out of the stack.

The marks say no more than the stack and the list of types that are done with
(`CycleSearch.marksOf`), so at any time the search is where `Schema.visit` is
(`CycleSearch.leads_visit`), and it ends with the same cycle (`CycleSearch.searchCycle_eq`). What a
builder that cannot be finished reports are then the names along a cycle of prerequisites
(`Builder.reported_cycle_genuine`).
-/

namespace Remoting

open Schema (Needs visit visitEach findCycle prerequisitesOf IsCycle)
open StateTransition (eval)

/-- How far the search for cycles has come with a type. -/
inductive Mark where
  | new
  /-- The type is on the way down. -/
  | active
  | done
  deriving DecidableEq, Repr

/-- A search for cycles on its way. -/
structure CycleSearch where
  marks : List Mark
  /-- The types on the way down, the last one at the end. -/
  stack : List TypeId
  /-- The types that are visited next, one after the other. -/
  pending : List TypeId
  /-- The types that are being visited, the last one first, and what is visited after each. -/
  around : List (TypeId × List TypeId)
  deriving DecidableEq, Repr

namespace CycleSearch

variable {types : List TypeInfo} {path done ids : List TypeId} {id : TypeId} {size : Nat}

/-- One step. There is none after the last type, at a type that is active, and at a number without a
mark. -/
def step (types : List TypeInfo) (s : CycleSearch) : Option CycleSearch :=
  match s.pending with
  | [] =>
    match s.around with
    | [] => none
    | (id, pending) :: around =>
      some ⟨s.marks.set id.index .done, s.stack.dropLast, pending, around⟩
  | id :: pending =>
    match s.marks[id.index]? with
    | some .done => some { s with pending }
    | some .new => types[id.index]?.map fun info =>
      ⟨s.marks.set id.index .active, s.stack ++ [id], info.prerequisites,
        (id, pending) :: s.around⟩
    | some .active | none => none

/-- What a search tells that goes no further: that there is no cycle, or the one that it has found,
which is cut out of the stack from where its first type stands. -/
def outcome? (s : CycleSearch) : Option (Option (List TypeId)) :=
  match s.pending with
  | [] => some none
  | id :: _ =>
    if s.marks[id.index]? = some .active then
      some (some (s.stack.drop ((s.stack.idxOf? id).getD 0) ++ [id]))
    else none

/-- The search begins with all types, none of which has been visited. -/
def start (types : List TypeInfo) : CycleSearch :=
  ⟨List.replicate types.length .new, [], (List.range types.length).map TypeId.mk, []⟩

/-- The outcome of the search. There is none where the search does not end, or comes to a number
without a type. -/
noncomputable def searchCycle (types : List TypeInfo) : Part (Option (List TypeId)) := do
  let s ← eval (step types) (start types)
  Part.ofOption s.outcome?

/-! ## Marks -/

/-- The mark of a type that may be on the way down, or done with. -/
def markOf (path done : List TypeId) (id : TypeId) : Mark :=
  if id ∈ done then .done else if id ∈ path then .active else .new

/-- The marks of the first types by number. -/
def marksOf (size : Nat) (path done : List TypeId) : List Mark :=
  (List.range size).map fun i => markOf path done ⟨i⟩

theorem marksOf_nil (size : Nat) : marksOf size [] [] = List.replicate size .new := by
  simp [marksOf, markOf, List.map_const']

theorem getElem?_marksOf (h : id.index < size) :
    (marksOf size path done)[id.index]? = some (markOf path done id) := by
  simp [marksOf, h]

/-- To change the mark of one type is to give it another place. -/
theorem marksOf_set {path' done' : List TypeId} {mark : Mark} (hself : markOf path' done' id = mark)
    (hothers : ∀ other, other ≠ id → markOf path' done' other = markOf path done other) :
    (marksOf size path done).set id.index mark = marksOf size path' done' := by
  apply List.ext_getElem (by simp [marksOf])
  intro i hi hi'
  by_cases heq : id.index = i
  · subst heq
    simp [marksOf, hself]
  · have hne : (⟨i⟩ : TypeId) ≠ id := fun h => heq (h ▸ rfl)
    simp [marksOf, List.getElem_set_ne heq, hothers _ hne]

theorem marksOf_set_active (h : id ∉ done) :
    (marksOf size path done).set id.index .active = marksOf size (id :: path) done := by
  refine marksOf_set (by simp [markOf, h]) fun other hother => ?_
  simp [markOf, hother]

theorem marksOf_set_done :
    (marksOf size (id :: path) done).set id.index .done = marksOf size path (id :: done) := by
  refine marksOf_set (by simp [markOf]) fun other hother => ?_
  simp [markOf, hother]

/-! ## Steps -/

/-- The search with a given way down, the last type first, and given types that are done with. -/
def standing (types : List TypeInfo) (path done pending : List TypeId)
    (around : List (TypeId × List TypeId)) : CycleSearch :=
  ⟨marksOf types.length path done, path.reverse, pending, around⟩

theorem start_eq (types : List TypeInfo) :
    start types = standing types [] [] ((List.range types.length).map TypeId.mk) [] := by
  rw [start, standing, marksOf_nil]
  rfl

variable {pending : List TypeId} {around : List (TypeId × List TypeId)}

/-- A type that is done with is passed over. -/
theorem step_done (hid : id.index < types.length) (h : id ∈ done) :
    step types (standing types path done (id :: pending) around) =
      some (standing types path done pending around) := by
  have hmark : markOf path done id = .done := if_pos h
  simp [step, standing, getElem?_marksOf hid, hmark]

/-- A new type is entered. -/
theorem step_new (hid : id.index < types.length) (hdone : id ∉ done) (hpath : id ∉ path) :
    step types (standing types path done (id :: pending) around) =
      some (standing types (id :: path) done (prerequisitesOf types id)
        ((id, pending) :: around)) := by
  have hmark : markOf path done id = .new := by simp [markOf, hdone, hpath]
  simp [step, standing, getElem?_marksOf hid, hmark, hid, marksOf_set_active hdone,
    prerequisitesOf]

/-- A type without further prerequisites is left. -/
theorem step_leave :
    step types (standing types (id :: path) done [] ((id, pending) :: around)) =
      some (standing types path (id :: done) pending around) := by
  simp [step, standing, marksOf_set_done]

/-- The end of the stack, from where a type stands that is on it once. -/
theorem drop_idxOf?_reverse (hnodup : path.Nodup) (h : id ∈ path) :
    path.reverse.drop ((path.reverse.idxOf? id).getD 0) =
      id :: (path.takeWhile (· ≠ id)).reverse := by
  obtain ⟨since, before, rfl, hsince⟩ := List.eq_append_cons_of_mem h
  have hbefore : id ∉ before := (List.nodup_cons.mp hnodup.of_append_right).1
  have hreverse : (since ++ id :: before).reverse = before.reverse ++ id :: since.reverse := by
    simp
  have hindex : (before.reverse ++ id :: since.reverse).idxOf? id = some before.reverse.length := by
    rw [List.idxOf?_eq_some_iff]
    grind
  rw [Schema.takeWhile_ne_append_cons hsince, hreverse, hindex, Option.getD_some, List.drop_left]

/-- At a type that is on the way down the search goes no further, and tells the cycle. -/
theorem step_active (hid : id.index < types.length) (hnodup : path.Nodup) (hdone : id ∉ done)
    (hpath : id ∈ path) :
    step types (standing types path done (id :: pending) around) = none ∧
      (standing types path done (id :: pending) around).outcome? =
        some (some (id :: (path.takeWhile (· ≠ id)).reverse ++ [id])) := by
  have hmark : markOf path done id = .active := by simp [markOf, hdone, hpath]
  constructor
  · simp [step, standing, getElem?_marksOf hid, hmark]
  · simp only [outcome?, standing, getElem?_marksOf hid, hmark, if_true,
      drop_idxOf?_reverse hnodup hpath]

/-! ## The whole search -/

/-- The search comes to where a visit ends, or it ends with the cycle that the visit has found. -/
def Leads (types : List TypeInfo) (s : CycleSearch) (after : List TypeId → CycleSearch) :
    Except (List TypeId) (List TypeId) → Prop
  | .ok done => StateTransition.Reaches (step types) s (after done)
  | .error cycle => ∃ s', StateTransition.Reaches (step types) s s' ∧ step types s' = none ∧
    s'.outcome? = some (some cycle)

theorem Leads.head {s s' : CycleSearch} {after : List TypeId → CycleSearch}
    {result : Except (List TypeId) (List TypeId)} (h : Leads types s' after result)
    (hreaches : StateTransition.Reaches (step types) s s') : Leads types s after result := by
  cases result with
  | ok done => exact hreaches.trans h
  | error cycle =>
    obtain ⟨s₁, hs₁, hend⟩ := h
    exact ⟨s₁, hreaches.trans hs₁, hend⟩

mutual

/-- A visit, step by step. -/
theorem leads_visit {types : List TypeInfo}
    (hneeds : ∀ child parent, Needs types child parent → parent.index < types.length)
    {path : List TypeId} {id : TypeId} (hnodup : path.Nodup) (hid : id.index < types.length)
    (done pending : List TypeId) (around : List (TypeId × List TypeId)) :
    Leads types (standing types path done (id :: pending) around)
      (fun done' => standing types path done' pending around) (visit types path done id) := by
  rw [visit]
  split
  · next hdone => exact .single (step_done hid hdone)
  · next hdone =>
    split
    · next hpath => exact ⟨_, .refl, step_active hid hnodup hdone hpath⟩
    · next hpath =>
      have hparents : ∀ parent ∈ prerequisitesOf types id, parent.index < types.length :=
        fun parent hparent => hneeds id parent (Schema.mem_prerequisitesOf_iff.mp hparent)
      have heach := leads_visitEach hneeds (List.nodup_cons.mpr ⟨hpath, hnodup⟩) done
        (prerequisitesOf types id) hparents ((id, pending) :: around)
      have hbelow := heach.head (.single (step_new hid hdone hpath))
      cases hresult : visitEach types (id :: path) done (prerequisitesOf types id) with
      | ok done' =>
        rw [hresult] at hbelow
        exact hbelow.tail step_leave
      | error cycle =>
        rw [hresult] at hbelow
        exact hbelow
termination_by (Schema.unseen types.length path, 0)
decreasing_by
  exact Prod.Lex.left _ _ (Schema.unseen_cons_lt ‹_› ‹_›)

theorem leads_visitEach {types : List TypeInfo}
    (hneeds : ∀ child parent, Needs types child parent → parent.index < types.length)
    {path : List TypeId} (hnodup : path.Nodup) (done : List TypeId) :
    (ids : List TypeId) → (∀ id ∈ ids, id.index < types.length) →
      (around : List (TypeId × List TypeId)) →
      Leads types (standing types path done ids around)
        (fun done' => standing types path done' [] around) (visitEach types path done ids)
  | [], _, around => by
    rw [visitEach]
    exact .refl
  | id :: ids, hids, around => by
    obtain ⟨hid, hids⟩ := List.forall_mem_cons.mp hids
    have hfirst := leads_visit hneeds hnodup hid done ids around
    rw [visitEach]
    split
    · next cycle hvisit =>
      rw [hvisit] at hfirst
      exact hfirst
    · next done' hvisit =>
      rw [hvisit] at hfirst
      exact (leads_visitEach hneeds hnodup done' ids hids around).head hfirst
termination_by ids => (Schema.unseen types.length path, ids.length + 1)
decreasing_by
  · exact Prod.Lex.right _ (by simp)
  · exact Prod.Lex.right _ (by simp)

end

/-- Where prerequisites are types, the search ends with the first cycle, if there is one. -/
theorem searchCycle_eq
    (hneeds : ∀ child parent, Needs types child parent → parent.index < types.length) :
    searchCycle types = Part.some (findCycle types) := by
  have hids : ∀ id ∈ (List.range types.length).map TypeId.mk, id.index < types.length := by
    simp
  have hleads := leads_visitEach hneeds List.nodup_nil [] _ hids []
  rw [← start_eq] at hleads
  have hend : ∃ s, StateTransition.Reaches (step types) (start types) s ∧ step types s = none ∧
      s.outcome? = some (findCycle types) := by
    rw [findCycle]
    cases hresult : visitEach types [] [] ((List.range types.length).map TypeId.mk) with
    | ok done =>
      rw [hresult] at hleads
      exact ⟨_, hleads, rfl, rfl⟩
    | error cycle =>
      rw [hresult] at hleads
      exact hleads
  obtain ⟨s, hreaches, hnone, houtcome⟩ := hend
  simp [searchCycle, eval_eq_some hreaches hnone, houtcome]

end CycleSearch

/-! ## What is reported -/

namespace Schema

variable {types : List TypeInfo} {owner info : TypeInfo} {names : List String}

theorem checkDistinct_ne_cycle {members : List String} :
    checkDistinct owner members ≠ .error (.cycle names) := by
  unfold checkDistinct
  split <;> simp

theorem checkReference_ne_cycle {id : TypeId} :
    checkReference types owner id ≠ .error (.cycle names) := by
  unfold checkReference
  split <;> simp

theorem checkPrerequisite_ne_cycle {id : TypeId} :
    checkPrerequisite types owner id ≠ .error (.cycle names) := by
  unfold checkPrerequisite
  split
  · simp
  · split <;> simp

theorem checkSignature_ne_cycle {s : Signature} :
    checkSignature types owner s ≠ .error (.cycle names) := by
  intro h
  simp only [checkSignature, bind_eq_error_iff] at h
  rcases h with hnames | ⟨-, -, hparameters | ⟨-, -, hresult⟩⟩
  · exact checkDistinct_ne_cycle hnames
  · obtain ⟨p, -, hp⟩ := exists_of_forM_eq_error hparameters
    exact checkReference_ne_cycle hp
  · exact checkReference_ne_cycle hresult

/-- The check of one type reports no cycle. -/
theorem checkShape_ne_cycle : checkShape types info ≠ .error (.cycle names) := by
  intro h
  unfold checkShape at h
  cases hkind : info.kind with
  | void | bool | int | float | string | any => simp [hkind] at h
  | enum values =>
    simp only [hkind, bind_eq_error_iff] at h
    rcases h with hnames | ⟨-, -, hordinals⟩
    · exact checkDistinct_ne_cycle hnames
    · split at hordinals <;> simp at hordinals
  | record slots =>
    simp only [hkind, bind_eq_error_iff] at h
    rcases h with hnames | ⟨-, -, hslots⟩
    · exact checkDistinct_ne_cycle hnames
    · obtain ⟨s, -, hs⟩ := exists_of_forM_eq_error hslots
      exact checkReference_ne_cycle hs
  | sequence element =>
    simp only [hkind, bind_eq_error_iff] at h
    rcases h with helement | ⟨-, -, hvoid⟩
    · exact checkReference_ne_cycle helement
    · split at hvoid <;> simp at hvoid
  | function signature =>
    simp only [hkind] at h
    exact checkSignature_ne_cycle h
  | interface members =>
    simp only [hkind, bind_eq_error_iff] at h
    rcases h with hneeds | ⟨-, -, hnames | ⟨-, -, hslots | ⟨-, -, hmethods⟩⟩⟩
    · obtain ⟨id, -, hid⟩ := exists_of_forM_eq_error hneeds
      exact checkPrerequisite_ne_cycle hid
    · exact checkDistinct_ne_cycle hnames
    · obtain ⟨s, -, hs⟩ := exists_of_forM_eq_error hslots
      exact checkReference_ne_cycle hs
    · obtain ⟨x, -, hx⟩ := exists_of_forM_eq_error hmethods
      exact checkSignature_ne_cycle hx

/-- A cycle is reported by the names of its types. -/
theorem checkAcyclic_eq_cycle_iff :
    checkAcyclic types = .error (.cycle names) ↔
      ∃ cycle, findCycle types = some cycle ∧ names = cycle.map (nameOf types) := by
  unfold checkAcyclic
  cases findCycle types <;> simp [eq_comm]

theorem some_nameOf {id : TypeId} (h : id.index < types.length) :
    some (nameOf types id) = types[id.index]?.map (·.qualifiedName) := by
  simp [nameOf, List.getElem?_eq_getElem h]

end Schema

namespace Builder

variable {b : Builder} {names : List String}

/-- A cycle is reported only when every type obeys the rules for its kind. -/
theorem finish_eq_cycle (h : b.finish = .error (.cycle names)) :
    (∀ info ∈ b.types, info.kind.WellFormed b.types) ∧
      Schema.checkAcyclic b.types = .error (.cycle names) := by
  simp only [finish, bind_eq_error_iff] at h
  rcases h with hdefined | ⟨-, -, hshapes | ⟨_, hkinds, hacyclic | ⟨-, -, hmodel⟩⟩⟩
  · unfold checkDefined at hdefined
    split at hdefined <;> simp at hdefined
  · obtain ⟨info, -, hinfo⟩ := exists_of_forM_eq_error hshapes
    exact absurd hinfo Schema.checkShape_ne_cycle
  · exact ⟨fun info hinfo =>
      Schema.checkShape_eq_ok_iff.mp (forM_eq_ok_iff.mp hkinds info hinfo), hacyclic⟩
  · contradiction

/-- **A reported cycle is one.** When a builder cannot be finished for a cycle, the names that it
reports are those of different interfaces each of which has the next one among its prerequisites,
and of the first one again, which the last one needs. It is the cycle that the search ends with. -/
theorem reported_cycle_genuine (h : b.finish = .error (.cycle names)) :
    ∃ cycle, IsCycle b.types cycle ∧
      names.map some = cycle.map (fun id => (b.type? id).map (·.qualifiedName)) ∧
      (SchemaError.cycle names).message =
        "cyclic interface prerequisites: " ++ " -> ".intercalate names ∧
      CycleSearch.searchCycle b.types = Part.some (some cycle) := by
  obtain ⟨hkinds, hacyclic⟩ := finish_eq_cycle h
  obtain ⟨cycle, hfind, rfl⟩ := Schema.checkAcyclic_eq_cycle_iff.mp hacyclic
  have hcycle := Schema.isCycle_of_findCycle hfind
  refine ⟨cycle, hcycle, ?_, rfl, ?_⟩
  · rw [List.map_map]
    exact List.map_congr_left fun id hid => Schema.some_nameOf (hcycle.index_lt hid)
  · rw [CycleSearch.searchCycle_eq, hfind]
    rintro child parent ⟨info, hinfo, hparent⟩
    have hwellFormed := hkinds info (List.mem_of_getElem? hinfo)
    cases hkind : info.kind with
    | interface members =>
      rw [hkind] at hwellFormed
      rw [TypeInfo.prerequisites, hkind] at hparent
      obtain ⟨info', hinfo', -⟩ := hwellFormed.prerequisites parent hparent
      exact (List.getElem?_eq_some_iff.mp hinfo').1
    | _ => simp [TypeInfo.prerequisites, hkind] at hparent

/-- All of these are widgets. A panel needs dialogs, and dialogs and windows need each other. -/
def dialogs : List Edit :=
  [.add "Ui" "Widget" (.interface {}),
   .declare "Ui" "Panel" .interface,
   .declare "Ui" "Dialog" .interface,
   .declare "Ui" "Window" .interface,
   .define ⟨8⟩ (.interface { prerequisites := [⟨7⟩, ⟨9⟩] }),
   .define ⟨9⟩ (.interface { prerequisites := [⟨7⟩, ⟨10⟩] }),
   .define ⟨10⟩ (.interface { prerequisites := [⟨7⟩, ⟨9⟩] })]

/-- The panel leads to the cycle and is not part of it. -/
theorem reported_cycle_genuine_dialogs :
    (build dialogs).finish = .error (.cycle ["Ui::Dialog", "Ui::Window", "Ui::Dialog"]) ∧
      ∃ cycle, IsCycle (build dialogs).types cycle ∧
        CycleSearch.searchCycle (build dialogs).types = Part.some (some cycle) := by
  have hfinish :
      (build dialogs).finish = .error (.cycle ["Ui::Dialog", "Ui::Window", "Ui::Dialog"]) := by
    cbv
  obtain ⟨cycle, hcycle, -, -, hsearch⟩ := reported_cycle_genuine hfinish
  exact ⟨hfinish, cycle, hcycle, hsearch⟩

end Builder

end Remoting

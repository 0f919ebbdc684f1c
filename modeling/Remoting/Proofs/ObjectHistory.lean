import Remoting.Proofs.Answering
import Remoting.Proofs.History

/-!
# Remoting.Proofs.ObjectHistory

The table of objects against its history. Everything that can be done with a table is a
`TableAction`, and `ObjectTable.after` is the table after a list of them.

An object is in the table from its export until it is taken out (`ObjectTable.present_after`), and a
number is that of the root from the time when it is made so until another one is
(`ObjectTable.root_after`). These are two matters: the root keeps its number when its object is
taken out. So the root leads to an object exactly as long as this was not taken out
(`ObjectTable.rootTold_after`).
-/

namespace Remoting

/-- Something that is done with a table of objects. -/
inductive TableAction where
  | exportObject (servant : Servant)
  | exportRoot (servant : Servant)
  | remove (id : ObjectId)
  | clear
  | setRoot (id : ObjectId)
  deriving DecidableEq, Repr

namespace TableAction

/-- Whether an object is exported. -/
def isExport : TableAction → Bool
  | .exportObject _ | .exportRoot _ => true
  | .remove _ | .clear | .setRoot _ => false

/-- Whether some number is made that of the root. -/
def makesRoot : TableAction → Bool
  | .exportRoot _ | .setRoot _ => true
  | .exportObject _ | .remove _ | .clear => false

/-- Whether the object of a number is taken out. -/
def takesOut (id : ObjectId) : TableAction → Bool
  | .remove id' => id' = id
  | .clear => true
  | .exportObject _ | .exportRoot _ | .setRoot _ => false

end TableAction

namespace ObjectTable

open TableAction (isExport takesOut makesRoot)

variable {t : ObjectTable} {actions : List TableAction} {a : TableAction} {id : ObjectId}

/-! ## What a history tells -/

/-- How many objects were exported. -/
def exports (actions : List TableAction) : Nat := actions.countP (·.isExport)

/-- The number of the next object. -/
def nextId (actions : List TableAction) : ObjectId := ⟨.ofNat (exports actions + 1)⟩

/-- An action exports an object under a number. -/
def Exports (id : ObjectId) (before : List TableAction) (a : TableAction) : Prop :=
  a.isExport = true ∧ nextId before = id

/-- An action makes a number that of the root. -/
def Roots (id : ObjectId) (before : List TableAction) (a : TableAction) : Prop :=
  a = .setRoot id ∨ (a.isExport = true ∧ a.makesRoot = true ∧ nextId before = id)

theorem exports_append (actions more : List TableAction) :
    exports (actions ++ more) = exports actions + exports more :=
  List.countP_append

/-! ## The table -/

/-- The table after one action. -/
def act (t : ObjectTable) : TableAction → ObjectTable
  | .exportObject servant => (t.exportObject servant).2
  | .exportRoot servant => (t.exportRoot servant).2
  | .remove id => (t.remove id).2
  | .clear => t.clear
  | .setRoot id => t.setRoot id

/-- The table after some actions, from the beginning. -/
def after (actions : List TableAction) : ObjectTable := actions.foldl act {}

theorem after_concat : after (actions ++ [a]) = (after actions).act a := by
  simp [after, List.foldl_append]

/-- The number that the next object gets. -/
def fresh (t : ObjectTable) : ObjectId := ⟨t.ids.next⟩

theorem fresh_after (actions : List TableAction) : (after actions).fresh = nextId actions := by
  induction actions using List.reverseRecOn with
  | nil => rfl
  | append_singleton actions a ih =>
    rw [after_concat, nextId, exports_append]
    cases a with
    | exportObject servant | exportRoot servant =>
      show (⟨(after actions).fresh.val + 1⟩ : ObjectId) = _
      rw [ih, nextId]
      simp [exports, isExport, UInt64.ofNat_add]
    | remove id | clear | setRoot id => exact ih

/-- Whether a number has an object. -/
def Has (t : ObjectTable) (id : ObjectId) : Prop := (t.lookup id).isSome = true

theorem has_iff : t.Has id ↔ ∃ o ∈ t.objects, o.1 = id := by
  simp [Has, lookup]

theorem has_exportObject (t : ObjectTable) (servant : Servant) (id : ObjectId) :
    (t.exportObject servant).2.Has id ↔ t.fresh = id ∨ t.Has id := by
  have hobjects : (t.exportObject servant).2.objects =
      t.objects.filter (·.1 != t.fresh) ++ [(t.fresh, servant)] := rfl
  simp only [has_iff, hobjects, List.mem_append, List.mem_filter, List.mem_singleton]
  grind

/-- What one action does to the object of a number. -/
theorem has_act (t : ObjectTable) (a : TableAction) (id : ObjectId) :
    (t.act a).Has id ↔
      (a.isExport = true ∧ t.fresh = id) ∨ (t.Has id ∧ a.takesOut id = false) := by
  cases a with
  | exportObject servant | exportRoot servant =>
    refine (has_exportObject t servant id).trans ?_
    simp [isExport, takesOut]
  | remove id' =>
    simp only [has_iff, act, remove, List.mem_filter]
    grind [isExport, takesOut]
  | clear => simp [has_iff, act, clear, isExport, takesOut]
  | setRoot id' => simp [has_iff, act, setRoot, isExport, takesOut]

/-- What one action does to the root. -/
theorem root_act (t : ObjectTable) (a : TableAction) :
    (t.act a).root = some id ↔
      (a = .setRoot id ∨ (a.isExport = true ∧ a.makesRoot = true ∧ t.fresh = id)) ∨
        (t.root = some id ∧ a.makesRoot = false) := by
  cases a with
  | exportRoot servant =>
    have hroot : (t.act (.exportRoot servant)).root = some t.fresh := rfl
    simp [hroot, isExport, makesRoot]
  | setRoot id' => simp [act, setRoot, isExport, makesRoot]
  | exportObject servant | remove id' | clear =>
    simp [act, exportObject, remove, clear, isExport, makesRoot]

/-- An object is in the table from its export until it is taken out. -/
theorem present_after :
    (after actions).Has id ↔ Since (Exports id) (·.takesOut id = false) actions := by
  induction actions using List.reverseRecOn with
  | nil => simp [since_nil, has_iff, after]
  | append_singleton actions a ih =>
    rw [after_concat, has_act, since_concat, ih, fresh_after, Exports]

/-- The root is the number that was made so last. -/
theorem root_after :
    (after actions).root = some id ↔ Since (Roots id) (·.makesRoot = false) actions := by
  induction actions using List.reverseRecOn with
  | nil => simp [since_nil, after]
  | append_singleton actions a ih =>
    rw [after_concat, root_act, since_concat, ih, fresh_after, Roots]

/-! ## The root -/

/-- An action may be done: only a number that has an object may be made that of the root. -/
def Allows (t : ObjectTable) : TableAction → Prop
  | .setRoot id => t.Has id
  | .exportObject _ | .exportRoot _ | .remove _ | .clear => True

/-- All actions may be done, one after the other. -/
def AllowsAll (t : ObjectTable) : List TableAction → Prop
  | [] => True
  | a :: actions => t.Allows a ∧ (t.act a).AllowsAll actions

instance (t : ObjectTable) (id : ObjectId) : Decidable (t.Has id) :=
  inferInstanceAs (Decidable (_ = true))

instance (t : ObjectTable) : DecidablePred t.Allows
  | .setRoot id => inferInstanceAs (Decidable (t.Has id))
  | .exportObject _ | .exportRoot _ | .remove _ | .clear => .isTrue trivial

instance decidableAllowsAll (t : ObjectTable) : DecidablePred t.AllowsAll
  | [] => .isTrue trivial
  | a :: actions =>
    have := decidableAllowsAll (t.act a) actions
    inferInstanceAs (Decidable (t.Allows a ∧ (t.act a).AllowsAll actions))

theorem allowsAll_append (t : ObjectTable) (actions more : List TableAction) :
    t.AllowsAll (actions ++ more) ↔
      t.AllowsAll actions ∧ (actions.foldl act t).AllowsAll more := by
  induction actions generalizing t with
  | nil => simp [AllowsAll]
  | cons a actions ih => simp [AllowsAll, ih, and_assoc]

/-- A history in which all actions were allowed. -/
def Orderly (actions : List TableAction) : Prop := AllowsAll {} actions

theorem Orderly.of_append {more : List TableAction} (h : Orderly (actions ++ more)) :
    Orderly actions :=
  ((allowsAll_append _ actions more).mp h).1

theorem Orderly.allows {since : List TableAction} (h : Orderly (actions ++ a :: since)) :
    (after actions).Allows a :=
  ((allowsAll_append _ actions (a :: since)).mp h).2.1

/-- A number that is made that of the root has an object. -/
theorem Roots.has {before : List TableAction} (h : Roots id before a)
    (hallows : (after before).Allows a) : (after (before ++ [a])).Has id := by
  rw [after_concat, has_act]
  rcases h with rfl | ⟨hexport, -, hid⟩
  · exact .inr ⟨hallows, rfl⟩
  · exact .inl ⟨hexport, (fresh_after before).trans hid⟩

/-- As long as all actions are allowed, an object is also in the table from the time when it is made
the root until it is taken out. -/
theorem present_iff_since (h : Orderly actions) :
    (after actions).Has id ↔
      Since (fun before a => Roots id before a ∨ Exports id before a) (·.takesOut id = false)
        actions := by
  induction actions using List.reverseRecOn with
  | nil => simp [since_nil, has_iff, after]
  | append_singleton actions a ih =>
    rw [since_concat, ← ih h.of_append]
    constructor
    · rw [after_concat, has_act, fresh_after]
      rintro (hexports | hkept)
      · exact .inl (.inr hexports)
      · exact .inr hkept
    · rintro ((hroots | hexports) | hkept)
      · exact hroots.has h.allows
      · rw [after_concat, has_act, fresh_after]
        exact .inl hexports
      · rw [after_concat, has_act]
        exact .inr hkept

/-- No object gets the number that stands for none before all others were given. -/
theorem isNull_eq_false_of_has (h : (after actions).Has id)
    (hcount : exports actions < UInt64.size) : id.isNull = false := by
  obtain ⟨before, a, since, rfl, ⟨hexport, rfl⟩, -⟩ := present_after.mp h
  have hlt : exports before + 1 < UInt64.size := by
    rw [exports_append, exports, exports, List.countP_cons, hexport] at hcount
    simp only [exports, if_true] at hcount ⊢
    omega
  have hval : (UInt64.ofNat (exports before + 1)).toNat = exports before + 1 :=
    UInt64.toNat_ofNat_of_lt' hlt
  rw [ObjectId.isNull, beq_eq_false_iff_ne]
  intro hzero
  simp [show UInt64.ofNat (exports before + 1) = 0 from hzero] at hval

/-- What can be told of the root. -/
structure RootTold (actions : List TableAction) (id : ObjectId) : Prop where
  /-- It was made so when it had an object, and no other number since. -/
  made : Since (fun before a => Roots id before a ∧ (after (before ++ [a])).Has id)
    (·.makesRoot = false) actions
  /-- It is resolved exactly if it does not stand for none, and nothing has taken its object out
  since it was made the root or exported. -/
  resolves : (∃ servant, (after actions).resolve id = some servant) ↔ id.isNull = false ∧
    Since (fun before a => Roots id before a ∨ Exports id before a) (·.takesOut id = false) actions
  /-- It does not stand for none before all numbers were given. -/
  proper : exports actions < UInt64.size → id.isNull = false
  /-- Whoever asks for the root object is answered with it. -/
  told : ∀ (h : Host) (f : Frame), h.objects = after actions → f.header.kind = .helloRequest →
    h.dispatch f = (some (.resultFor f.header [.object id]), h)

theorem dispatch_of_root {h : Host} {f : Frame} (hroot : h.objects.root = some id)
    (hhello : f.header.kind = .helloRequest) :
    h.dispatch f = (some (.resultFor f.header [.object id]), h) := by
  have hwelcome : h.welcome f.header = .resultFor f.header [.object id] := by
    rw [Host.welcome, hroot]
  rw [← Host.dispatchNoting_fst, Host.dispatchNoting_of_answered (Host.judge_of_hello hhello),
    hwelcome]

/-- **The root is resolved until its object is taken out.** -/
theorem rootTold_after (horderly : Orderly actions) (hroot : (after actions).root = some id) :
    RootTold actions id where
  made := by
    obtain ⟨before, a, since, rfl, hroots, hsince⟩ := root_after.mp hroot
    exact ⟨before, a, since, rfl, ⟨hroots, hroots.has horderly.allows⟩, hsince⟩
  resolves := by
    rw [← present_iff_since horderly]
    simp [resolve_eq_some_iff, Has, Option.isSome_iff_exists]
  proper hcount := by
    obtain ⟨before, a, since, rfl, hroots, -⟩ := root_after.mp hroot
    refine isNull_eq_false_of_has (hroots.has horderly.allows) (Nat.lt_of_le_of_lt ?_ hcount)
    rw [List.append_cons before a since, exports_append (before ++ [a])]
    exact Nat.le_add_right _ _
  told h f hobjects hhello := dispatch_of_root (hobjects ▸ hroot) hhello

/-- The first root is taken out, and another object becomes the root. -/
def succession : List TableAction :=
  [.exportRoot { interface := ⟨7⟩ }, .exportObject { interface := ⟨8⟩ }, .remove ⟨1⟩,
   .setRoot ⟨2⟩, .exportObject { interface := ⟨7⟩ }, .remove ⟨3⟩]

theorem rootTold_succession :
    Orderly succession ∧ (after succession).root = some ⟨2⟩ ∧
      (after succession).resolve ⟨2⟩ = some { interface := ⟨8⟩ } ∧ RootTold succession ⟨2⟩ := by
  have horderly : Orderly succession := by
    unfold Orderly
    decide
  exact ⟨horderly, rfl, rfl, rootTold_after horderly rfl⟩

/-- The root is exported and taken out. -/
def departure : List TableAction := [.exportRoot { interface := ⟨6⟩ }, .remove ⟨1⟩]

/-- Whoever asks for the root object is still told its number, which leads to no object. -/
theorem departed_root_told :
    Orderly departure ∧ (after departure).root = some ⟨1⟩ ∧
      (after departure).resolve ⟨1⟩ = none ∧
      (({ objects := after departure } : Host).dispatch .hello).1 =
        some (.resultFor Frame.hello.header [.object ⟨1⟩]) := by
  have horderly : Orderly departure := by
    unfold Orderly
    decide
  exact ⟨horderly, rfl, rfl, rfl⟩

end ObjectTable

end Remoting

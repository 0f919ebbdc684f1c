import Remoting.Proofs.Bindings
import Remoting.Proofs.Closedness

/-!
# Remoting.Proofs.Naming

Names of types, from their declaration to the finished model. A type is found where it was declared,
in any spelling of the path, and under its qualified name, whatever is done later
(`Builder.findable_of_answer`).

A name may also be bound to a type number as such, and nobody looks at the number, also not when the
model is finished. So names lead to types of the model exactly when all the numbers that were bound
like this are those of types (`Builder.resolves_within_iff`).
-/

namespace Remoting

/-- The path and the name under which an edit declares a type, as they are written. -/
def Edit.place? : Edit → Option (String × String)
  | .declare path name _ | .add path name _ => some (path, name)
  | .openNamespace _ | .bind _ _ _ | .define _ _ => none

namespace Builder

open Schema (splitPath joinPath)

variable {b : Builder} {m : Model} {before since edits : List Edit} {e : Edit}
  {path name scope : String} {id : TypeId}

/-! ## Types that were declared -/

/-- A type is found under the name of its declaration. -/
structure Findable (b : Builder) (path name : String) (id : TypeId) : Prop where
  /-- Its name leads to it from where it was declared, however the path is written. -/
  near : ∀ scope, splitPath scope = splitPath path →
    b.resolve scope name = .ok id ∧ ∀ m, b.finish = .ok m → m.resolve scope name = .ok id
  /-- Its qualified name leads to it from the outermost scope, if no segment has a `:`. -/
  qualified : (∀ s ∈ splitPath path, ':' ∉ s.toList) → ∃ info, b.type? id = some info ∧
    info.name = name ∧ info.path = splitPath path ∧
    b.resolve "" info.qualifiedName = .ok id ∧
    ∀ m, b.finish = .ok m → m.type? id = some info ∧ m.resolve "" info.qualifiedName = .ok id

theorem eq_of_finish (h : b.finish = .ok m) : m = ⟨b.types, b.namespaces⟩ :=
  (finish_eq_ok_iff.mp h).2

theorem eq_next_of_answer {info : TypeInfo} {a : Option TypeId}
    (hinfo : e.declaration? = some info) (ha : (build before).answer e = .ok a) :
    a = some (build before).next := by
  rw [← Tables.answerAfter_eq] at ha
  rw [(Tables.next_of_answerAfter hinfo ha).1, Tables.types_after, List.length_map, next]

theorem declares_of_place? (hplace : e.place? = some (path, name))
    (ha : (build before).answer e = .ok (some id)) :
    Binds (joinPath (splitPath path)) name (.type id) before e ∧
      ∃ info, Tables.Declares id info before e ∧ info.name = name ∧ info.path = splitPath path := by
  have ha' : Tables.answerAfter before e = .ok (some id) := by
    rw [Tables.answerAfter_eq, ha]
  cases e with
  | openNamespace | bind | define => contradiction
  | declare path name storage =>
    cases hplace
    refine ⟨⟨?_, _, ha⟩, _, ⟨rfl, ha'⟩, rfl, rfl⟩
    rw [Edit.binding?, Option.some.inj (eq_next_of_answer rfl ha)]
  | add path name kind =>
    cases hplace
    refine ⟨⟨?_, _, ha⟩, _, ⟨rfl, ha'⟩, rfl, rfl⟩
    rw [Edit.binding?, Option.some.inj (eq_next_of_answer rfl ha)]

/-- A type keeps the name and the place that it was declared with. -/
theorem exists_type?_of_declaredAs {info : TypeInfo} (h : Tables.DeclaredAs edits id info) :
    ∃ info', (build edits).type? id = some info' ∧ info'.name = info.name ∧
      info'.path = info.path := by
  obtain ⟨d, hd, hname, hpath, -⟩ := h.exists_declaration
  refine ⟨d.info, ?_, hname, hpath⟩
  rw [type?, types, List.getElem?_map, hd]
  rfl

/-- A name that is bound to a type leads to it from where it is bound. -/
theorem resolve_of_binding? {segments : List String} {leaf : String}
    (hname : splitPath name = segments ++ [leaf])
    (h : b.binding? (joinPath (splitPath scope ++ segments)) leaf = some (.type id)) :
    b.resolve scope name = .ok id ∧ ∀ m, b.finish = .ok m → m.resolve scope name = .ok id := by
  have hresolve := Schema.resolveIn_of_binding? hname h
  refine ⟨hresolve, fun m hm => ?_⟩
  rw [eq_of_finish hm]
  exact hresolve

/-- **Types are found** where they were declared, at any later time. -/
theorem findable_of_answer (hplace : e.place? = some (path, name))
    (ha : (build before).answer e = .ok (some id)) (hne : name ≠ "") (hfree : ':' ∉ name.toList) :
    (build (before ++ e :: since)).Findable path name id := by
  obtain ⟨hbinds, info₀, hdeclares, rfl, hpath₀⟩ := declares_of_place? hplace ha
  have hbinding : (build (before ++ e :: since)).binding? (joinPath (splitPath path)) info₀.name =
      some (.type id) := binding?_of_happened ⟨before, e, since, rfl, hbinds⟩
  have hleaf : splitPath info₀.name = [info₀.name] :=
    Schema.splitPath_of_isPath (Schema.isPath_of_colon_free (by simpa) (by simpa))
  refine ⟨fun scope hscope => ?_, fun hsegments => ?_⟩
  · refine resolve_of_binding? (hleaf.trans (List.nil_append [info₀.name]).symm) ?_
    rw [hscope, List.append_nil, hbinding]
  · obtain ⟨info, hinfo, hname, hpath⟩ :=
      exists_type?_of_declaredAs ⟨before, e, since, rfl, hdeclares⟩
    rw [hpath₀] at hpath
    have hsplit : splitPath info.qualifiedName = splitPath path ++ [info₀.name] := by
      rw [TypeInfo.qualifiedName_eq, hname, hpath]
      exact Schema.splitPath_joinPath (Schema.isPath_splitPath_concat hsegments hne hfree)
    have houter : (build (before ++ e :: since)).binding?
        (joinPath (splitPath "" ++ splitPath path)) info₀.name = some (.type id) := hbinding
    obtain ⟨hresolve, hfinished⟩ := resolve_of_binding? hsplit houter
    refine ⟨info, hinfo, hname, hpath, hresolve, fun m hm => ⟨?_, hfinished m hm⟩⟩
    rw [eq_of_finish hm]
    exact hinfo

/-- Two namespaces, before `newcomer` is declared. -/
def groundwork : List Edit :=
  [.openNamespace "Ui", .bind "Ui::View" "point" (.constant (.text "origin"))]

/-- A declaration with a path that is written in an odd way. -/
def newcomer : Edit := .declare "::Ui::::View::" "Point" .record

/-- Other things of the same name around `newcomer` and inside it, one that is refused, and the
definition. -/
def additions : List Edit :=
  [.bind "Ui" "Point" (.constant (.int 2)), .add "" "Point" (.sequence ⟨"at", ⟨7⟩, {}⟩),
   .add "Ui::View::Point" "Point" (.enum []), .declare "Ui::View" "Point" .enum,
   .define ⟨7⟩ (.record [⟨"x", .float, {}⟩])]

theorem findable_newcomer :
    (build groundwork).answer newcomer = .ok (some ⟨7⟩) ∧
      (build (groundwork ++ newcomer :: additions)).Findable "::Ui::::View::" "Point" ⟨7⟩ ∧
      ∃ m, (build (groundwork ++ newcomer :: additions)).finish = .ok m ∧
        m.resolve "Ui::View" "Point" = .ok ⟨7⟩ ∧ m.resolve "" "Ui::View::Point" = .ok ⟨7⟩ ∧
        m.resolve "Ui" "Point" = .ok ⟨8⟩ ∧ m.resolve "Ui::View::Point" "Point" = .ok ⟨9⟩ := by
  have ha : (build groundwork).answer newcomer = .ok (some ⟨7⟩) := by cbv
  have hfindable : (build (groundwork ++ newcomer :: additions)).Findable
      "::Ui::::View::" "Point" ⟨7⟩ := findable_of_answer rfl ha (by decide) (by decide)
  have hfinish : (build (groundwork ++ newcomer :: additions)).finish =
      .ok ⟨(build (groundwork ++ newcomer :: additions)).types,
        (build (groundwork ++ newcomer :: additions)).namespaces⟩ := by cbv
  obtain ⟨-, hnear⟩ := hfindable.near "Ui::View" (by cbv)
  exact ⟨ha, hfindable, _, hfinish, hnear _ hfinish, by cbv, by cbv, by cbv⟩

/-- With a `:` at the end of a segment, a qualified name leads elsewhere. -/
example :
    (build [.add "A:" "B" (.enum [])]).resolve "A:" "B" = .ok ⟨7⟩ ∧
      (build [.add "A:" "B" (.enum [])]).resolve "" "A:::B" = .error (.unresolved "A:::B") := by
  cbv

/-! ## Numbers that were bound as such -/

/-- An edit binds a name to a type number as such and is accepted. -/
def Enters (path name : String) (id : TypeId) (before : List Edit) (e : Edit) : Prop :=
  e = .bind path name (.type id) ∧ ∃ a, (build before).answer e = .ok a

theorem type_of_mem_initial : ∀ ns ∈ initial.namespaces, ∀ entry ∈ ns.bindings,
    ∀ id ∈ entry.2.type?, id.Within initial.types := by
  unfold TypeId.Within
  decide

theorem within_initial_of_binding? {key : String}
    (h : initial.binding? key name = some (.type id)) : id.Within initial.types := by
  obtain ⟨ns, hns, hfind⟩ := Option.bind_eq_some_iff.mp h
  obtain ⟨entry, hentry, htype⟩ := Option.map_eq_some_iff.mp hfind
  refine type_of_mem_initial ns (List.mem_of_find?_eq_some hns) entry
    (List.mem_of_find?_eq_some hentry) id ?_
  rw [htype]
  rfl

theorem within_build_of_within (h : id.Within initial.types) (edits : List Edit) :
    id.Within (build edits).types := by
  have hlt : id.index < initial.declarations.length := by simpa [TypeId.Within, types] using h
  have hd := getElem?_build edits (List.getElem?_eq_getElem hlt)
  simpa [TypeId.Within, types] using (List.getElem?_eq_some_iff.mp hd).1

theorem within_of_declaredAs {info : TypeInfo} (h : Tables.DeclaredAs edits id info) :
    id.Within (build edits).types := by
  obtain ⟨info', hinfo', -⟩ := exists_type?_of_declaredAs h
  exact (List.getElem?_eq_some_iff.mp hinfo').1

/-- A name comes to stand for a type by its declaration, or because it was bound so. -/
theorem Binds.declares_or_enters {key : String} (h : Binds key name (.type id) before e) :
    (∃ info, Tables.Declares id info before e) ∨
      ∃ path, Enters path name id before e := by
  obtain ⟨he, a, ha⟩ := h
  have hdeclares {info : TypeInfo} (hinfo : e.declaration? = some info)
      (hid : (build before).next = id) : Tables.Declares id info before e := by
    refine ⟨hinfo, ?_⟩
    rw [Tables.answerAfter_eq, ha, eq_next_of_answer hinfo ha, hid]
  cases e with
  | openNamespace | define => contradiction
  | bind path name binding =>
    obtain ⟨-, rfl, rfl⟩ := by simpa [Edit.binding?] using he
    exact .inr ⟨path, rfl, a, ha⟩
  | declare path name storage =>
    obtain ⟨-, -, hid⟩ := by simpa [Edit.binding?] using he
    exact .inl ⟨_, hdeclares rfl hid⟩
  | add path name kind =>
    obtain ⟨-, -, hid⟩ := by simpa [Edit.binding?] using he
    exact .inl ⟨_, hdeclares rfl hid⟩

theorem Enters.binds (h : Enters path name id before e) :
    Binds (joinPath (splitPath path)) name (.type id) before e := by
  obtain ⟨rfl, ha⟩ := h
  exact ⟨rfl, ha⟩

/-- A name stands for a type that there is, or was bound to a number as such. -/
theorem within_or_happened_enters {key : String}
    (h : (build edits).binding? key name = some (.type id)) :
    id.Within (build edits).types ∨ ∃ path, Happened (Enters path name id) edits := by
  rcases origin_of_binding? h with hinitial | ⟨before, e, since, rfl, hbinds⟩
  · exact .inl (within_build_of_within (within_initial_of_binding? hinitial) edits)
  · rcases hbinds.declares_or_enters with ⟨info, hdeclares⟩ | ⟨path, henters⟩
    · exact .inl (within_of_declaredAs ⟨before, e, since, rfl, hdeclares⟩)
    · exact .inr ⟨path, before, e, since, rfl, henters⟩

/-- **Names lead into the model** exactly when each name that can be looked up and was bound to a
number as such was bound to that of a type. -/
theorem resolves_within_iff (hm : (build edits).finish = .ok m) :
    (∀ scope name id, m.resolve scope name = .ok id →
        ∃ info, m.type? id = some info ∧ m.type id = .ok info) ↔
      ∀ path name id, Happened (Enters path name id) edits → splitPath name = [name] →
        id.Within m.types := by
  constructor
  · intro hresolves path name id ⟨before, e, since, heq, henters⟩ hname
    have hbinding : (build edits).binding? (joinPath (splitPath path ++ [])) name =
        some (.type id) := by
      rw [List.append_nil]
      exact binding?_of_happened ⟨before, e, since, heq, henters.binds⟩
    obtain ⟨-, hfinished⟩ := resolve_of_binding? hname hbinding
    obtain ⟨info, -, hinfo⟩ := hresolves path name id (hfinished m hm)
    exact Model.within_iff_type.mpr ⟨info, hinfo⟩
  · intro hwithin scope name id hresolve
    have hid : id.Within m.types := by
      rw [eq_of_finish hm] at hresolve
      obtain ⟨key, leaf, hleaf, hbinding⟩ := Schema.exists_binding?_of_resolveIn hresolve
      rcases within_or_happened_enters hbinding with hid | ⟨path, henters⟩
      · rwa [eq_of_finish hm]
      · exact hwithin path leaf id henters hleaf
    obtain ⟨info, hinfo⟩ := Model.exists_type?_of_within hid
    exact ⟨info, hinfo, Model.type_eq_ok_iff.mpr hinfo⟩

/-- A type with a second name, and a number without a type under a name that nobody can ask for. -/
def aliases : List Edit :=
  [.add "Ui" "Point" (.record []), .bind "Geo" "Dot" (.type ⟨7⟩), .bind "Geo" "::" (.type ⟨99⟩)]

theorem resolves_within_aliases :
    ∃ m, (build aliases).finish = .ok m ∧ m.resolve "Geo" "Dot" = .ok ⟨7⟩ ∧
      ∀ scope name id, m.resolve scope name = .ok id →
        ∃ info, m.type? id = some info ∧ m.type id = .ok info := by
  have hfinish : (build aliases).finish =
      .ok ⟨(build aliases).types, (build aliases).namespaces⟩ := by cbv
  refine ⟨_, hfinish, by cbv, (resolves_within_iff hfinish).mpr ?_⟩
  rintro path name id ⟨before, e, since, heq, rfl, -⟩ hname
  have hmem : Edit.bind path name (.type id) ∈ aliases := by simp [heq]
  have hsplit : splitPath "::" = [] := by cbv
  rcases (by simpa [aliases] using hmem) with ⟨-, -, rfl⟩ | ⟨-, rfl, -⟩
  · exact Model.within_iff_type.mpr ⟨⟨"Point", ["Ui"], .record []⟩, by cbv⟩
  · rw [hsplit] at hname
    contradiction

/-- A model may be finished with a name for a type that it does not have. -/
theorem ghost_resolves :
    ∃ m, (build [.bind "Ui" "Ghost" (.type ⟨99⟩)]).finish = .ok m ∧
      m.resolve "Ui" "Ghost" = .ok ⟨99⟩ ∧ m.type? ⟨99⟩ = none ∧
      m.type ⟨99⟩ = .error (.absent ⟨99⟩) := by
  have hfinish : (build [.bind "Ui" "Ghost" (.type ⟨99⟩)]).finish =
      .ok ⟨(build [.bind "Ui" "Ghost" (.type ⟨99⟩)]).types,
        (build [.bind "Ui" "Ghost" (.type ⟨99⟩)]).namespaces⟩ := by cbv
  exact ⟨_, hfinish, by cbv, by cbv, by cbv⟩

end Builder

end Remoting

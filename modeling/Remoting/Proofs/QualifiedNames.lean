import Remoting.Proofs.Naming

/-!
# Remoting.Proofs.QualifiedNames

Types and their qualified names. Every type is bound under its name in the namespace where it
stands, so no two types have one name in one place (`Builder.binding?_of_type?`).

A qualified name is the written path with the name behind it, and does not tell where the path ends.
The name `B::C` in `A` reads like the name `C` in `A::B`, and `:B` in `A` like `B` in `A:`. Nothing
else can make two qualified names the same (`TypeInfo.qualifiedName_eq_iff`). So qualified names
tell types apart, and what is digested tells interfaces apart, unless there is a name like these
among them (`Model.namesApart_of_finish`).
-/

namespace Remoting

/-! ## Qualified names -/

namespace TypeInfo

open Schema (joinPath separator IsPath)

variable {t t' : TypeInfo}

/-- What stands before the name in a qualified name. -/
def lead (t : TypeInfo) : String := if t.path.isEmpty then "" else joinPath t.path ++ "::"

theorem qualifiedName_eq_lead (t : TypeInfo) : t.qualifiedName = t.lead ++ t.name := by
  unfold qualifiedName lead
  split <;> simp

/-- The name of a type takes in the end of what stands before the name of another one. -/
def TakesIn (t t' : TypeInfo) : Prop :=
  ∃ front, t.name = front ++ t'.name ∧ t'.lead = t.lead ++ front ∧
    (front = ":" ∨ separator <:+ front.toList)

theorem lead_cases (t : TypeInfo) :
    t.path = [] ∧ t.lead = "" ∨
      t.lead = joinPath t.path ++ "::" ∧ t.lead.toList = (joinPath t.path).toList ++ separator := by
  unfold lead separator
  cases t.path <;> simp

/-- Different paths stand differently before a name. -/
theorem lead_inj (hpath : IsPath t.path) (hpath' : IsPath t'.path) (h : t.lead = t'.lead) :
    t.path = t'.path := by
  rcases t.lead_cases with ⟨hnil, hlead⟩ | ⟨hlead, -⟩ <;>
    rcases t'.lead_cases with ⟨hnil', hlead'⟩ | ⟨hlead', -⟩
  · rw [hnil, hnil']
  · simp [hlead, hlead'] at h
  · simp [hlead, hlead'] at h
  · rw [hlead, hlead', String.append_left_inj] at h
    rw [← Schema.splitPath_joinPath hpath, h, Schema.splitPath_joinPath hpath']

/-- What is left of a text that ends in a separator ends in one, or is the half of it. -/
theorem eq_colon_or_suffix {front text rest : List Char} (h : text ++ front = rest ++ separator)
    (hne : front ≠ []) : front = [':'] ∨ separator <:+ front := by
  have hfront : front <:+ rest ++ separator := ⟨text, h⟩
  have hsep : separator <:+ rest ++ separator := List.suffix_append rest separator
  rcases List.suffix_or_suffix_of_suffix hfront hsep with hpart | hall
  · rcases (by simpa [separator, List.suffix_cons_iff, hne] using hpart) with rfl | rfl
    · exact .inr (List.suffix_refl _)
    · exact .inl rfl
  · exact .inr hall

theorem takesIn_of_append {front : List Char} (hname : t.name.toList = front ++ t'.name.toList)
    (hlead : t'.lead.toList = t.lead.toList ++ front) (hne : front ≠ []) : t.TakesIn t' := by
  refine ⟨.ofList front, ?_, ?_, ?_⟩
  · rw [← String.toList_inj, hname, String.toList_append, String.toList_ofList]
  · rw [← String.toList_inj, hlead, String.toList_append, String.toList_ofList]
  · rcases t'.lead_cases with ⟨-, hnone⟩ | ⟨-, hends⟩
    · simp [hnone, hne] at hlead
    · rw [hlead] at hends
      rcases eq_colon_or_suffix hends hne with rfl | hsuffix
      · exact .inl rfl
      · exact .inr (by rwa [String.toList_ofList])

theorem same_or_takesIn (hpath : IsPath t.path) (hpath' : IsPath t'.path) {front : List Char}
    (hlead : t'.lead.toList = t.lead.toList ++ front)
    (hname : t.name.toList = front ++ t'.name.toList) :
    (t.path = t'.path ∧ t.name = t'.name) ∨ t.TakesIn t' := by
  by_cases hne : front = []
  · subst hne
    rw [List.append_nil, String.toList_inj] at hlead
    rw [List.nil_append, String.toList_inj] at hname
    exact .inl ⟨lead_inj hpath hpath' hlead.symm, hname⟩
  · exact .inr (takesIn_of_append hname hlead hne)

/-- A name that takes in part of a path reads the same. -/
theorem TakesIn.qualifiedName_eq (h : t.TakesIn t') : t.qualifiedName = t'.qualifiedName := by
  obtain ⟨front, hname, hlead, -⟩ := h
  rw [qualifiedName_eq_lead, qualifiedName_eq_lead, hname, hlead, String.append_assoc]

/-- Qualified names are the same for types of one name in one place, and where the name of one type
takes in the end of the path of the other. -/
theorem qualifiedName_eq_iff (hpath : IsPath t.path) (hpath' : IsPath t'.path) :
    t.qualifiedName = t'.qualifiedName ↔
      (t.path = t'.path ∧ t.name = t'.name) ∨ t.TakesIn t' ∨ t'.TakesIn t := by
  constructor
  · intro h
    rw [qualifiedName_eq_lead, qualifiedName_eq_lead, ← String.toList_inj, String.toList_append,
      String.toList_append] at h
    rcases List.append_eq_append_iff.mp h with ⟨front, hlead, hname⟩ | ⟨front, hlead, hname⟩
    · exact (same_or_takesIn hpath hpath' hlead hname).imp_right .inl
    · rcases same_or_takesIn hpath' hpath hlead hname with ⟨hsame, hname⟩ | htakes
      · exact .inl ⟨hsame.symm, hname.symm⟩
      · exact .inr (.inr htakes)
  · rintro (⟨hsame, hname⟩ | h | h)
    · rw [qualifiedName, qualifiedName, hsame, hname]
    · exact h.qualifiedName_eq
    · exact h.qualifiedName_eq.symm

/-- A name that takes in nothing: it does not begin with a `:`, and has no separator. -/
def IsPlain (name : String) : Prop := ¬ [':'] <+: name.toList ∧ ¬ separator <:+: name.toList

instance : DecidablePred IsPlain := fun _ => inferInstanceAs (Decidable (_ ∧ _))

/-- A plain name takes in nothing. -/
theorem TakesIn.not_isPlain (h : t.TakesIn t') : ¬ IsPlain t.name := by
  obtain ⟨front, hname, -, hfront⟩ := h
  rw [IsPlain, hname, String.toList_append]
  rintro ⟨hbegins, hinside⟩
  rcases hfront with rfl | hsuffix
  · exact hbegins ⟨t'.name.toList, rfl⟩
  · exact hinside (hsuffix.isInfix.trans (List.prefix_append _ _).isInfix)

/-! ## Interfaces in digests -/

/-- Interfaces are digested alike exactly if they have the same qualified name. -/
theorem bytes_tokens_eq_iff (h : t.storage = t'.storage) :
    Token.bytes (t.tokens []) = Token.bytes (t'.tokens []) ↔
      t.qualifiedName = t'.qualifiedName := by
  constructor
  · intro hbytes
    simp only [tokens, h, Token.bytes, List.flatMap_cons, List.flatMap_nil, List.append_nil,
      List.append_cancel_left_eq, Token.toBytes, Token.announced, List.cons_append,
      List.cons.injEq, true_and] at hbytes
    exact utf8_inj (List.append_inj hbytes (by simp)).2
  · intro hname
    rw [tokens, tokens, h, hname]

end TypeInfo

/-! ## Places -/

namespace Builder

open Schema (splitPath joinPath IsPath)

variable {edits before : List Edit} {e : Edit} {id : TypeId} {info : TypeInfo}

theorem placed_initial (h : initial.type? id = some info) :
    splitPath (joinPath info.path) = info.path ∧
      initial.binding? (joinPath info.path) info.name = some (.type id) := by
  obtain ⟨i⟩ := id
  have hi : i < 7 := (List.getElem?_eq_some_iff.mp h).1
  interval_cases i <;> obtain rfl := Option.some.inj h <;> exact ⟨rfl, rfl⟩

theorem binds_of_declares (h : Tables.Declares id info before e) :
    IsPath info.path ∧ Binds (joinPath info.path) info.name (.type id) before e := by
  obtain ⟨hinfo, hanswer⟩ := h
  rw [Tables.answerAfter_eq] at hanswer
  cases e with
  | openNamespace | bind | define => contradiction
  | declare path name storage =>
    cases hinfo
    exact ⟨Schema.isPath_splitPath path, (declares_of_place? rfl hanswer).1⟩
  | add path name kind =>
    cases hinfo
    exact ⟨Schema.isPath_splitPath path, (declares_of_place? rfl hanswer).1⟩

/-- Every type is bound under its name where it stands. -/
theorem binding?_of_type? (h : (build edits).type? id = some info) :
    IsPath info.path ∧
      (build edits).binding? (joinPath info.path) info.name = some (.type id) := by
  by_cases hinitial : id.index < initial.declarations.length
  · have hd := List.getElem?_eq_getElem hinitial
    have hinfo : initial.type? id = some info := by
      rw [← h, type?, types, type?, types, List.getElem?_map, List.getElem?_map, hd,
        getElem?_build edits hd]
    obtain ⟨hsplit, hinitially⟩ := placed_initial hinfo
    have hbound : (build []).binding? (joinPath info.path) info.name = some (.type id) := hinitially
    refine ⟨?_, binding?_build_append hbound edits⟩
    rw [← hsplit]
    exact Schema.isPath_splitPath _
  · rw [type?, types, List.getElem?_map] at h
    obtain ⟨d, hd, rfl⟩ := Option.map_eq_some_iff.mp h
    obtain ⟨info₀, hdeclared⟩ := (Tables.told (not_lt.mp hinitial) hd).1
    obtain ⟨d', hd', hname, hpath, -⟩ := hdeclared.exists_declaration
    obtain rfl := Option.some.inj (hd.symm.trans hd')
    obtain ⟨before, e, since, rfl, hdeclares⟩ := hdeclared
    obtain ⟨hisPath, hbinds⟩ := binds_of_declares hdeclares
    rw [hname, hpath]
    exact ⟨hisPath, binding?_of_happened ⟨before, e, since, rfl, hbinds⟩⟩

variable {id' : TypeId} {info' : TypeInfo}

/-- There is only one type of a name in one place. -/
theorem eq_of_same_place (h : (build edits).type? id = some info)
    (h' : (build edits).type? id' = some info') (hpath : info.path = info'.path)
    (hname : info.name = info'.name) : id = id' := by
  obtain ⟨-, hbound⟩ := binding?_of_type? h
  obtain ⟨-, hbound'⟩ := binding?_of_type? h'
  rw [hpath, hname, hbound'] at hbound
  exact (Binding.type.inj (Option.some.inj hbound)).symm

theorem qualifiedName_eq_iff_takesIn (h : (build edits).type? id = some info)
    (h' : (build edits).type? id' = some info') (hne : id ≠ id') :
    info.qualifiedName = info'.qualifiedName ↔ info.TakesIn info' ∨ info'.TakesIn info := by
  rw [TypeInfo.qualifiedName_eq_iff (binding?_of_type? h).1 (binding?_of_type? h').1]
  exact or_iff_right fun hsame => hne (eq_of_same_place h h' hsame.1 hsame.2)

end Builder

/-! ## Types of a model -/

namespace Model

open Builder (build)
open TypeInfo (IsPlain)

variable {m : Model} {edits : List Edit} {i j : TypeId} {info info' : TypeInfo}

/-- Which types of a model have the same qualified name. -/
structure NamesApart (m : Model) : Prop where
  /-- No two types have one name in one place. -/
  places : ∀ i j info info', m.type? i = some info → m.type? j = some info' → i ≠ j →
    ¬ (info.path = info'.path ∧ info.name = info'.name)
  /-- Two types have the same qualified name only if the name of one of them takes in the end of the
  path of the other. -/
  qualified : ∀ i j info info', m.type? i = some info → m.type? j = some info' → i ≠ j →
    (info.qualifiedName = info'.qualifiedName ↔ info.TakesIn info' ∨ info'.TakesIn info)
  /-- This does not happen to plain names. -/
  plain : ∀ i j info info', m.type? i = some info → m.type? j = some info' → i ≠ j →
    IsPlain info.name → IsPlain info'.name → info.qualifiedName ≠ info'.qualifiedName
  /-- Two interfaces are digested alike exactly if they have the same qualified name. -/
  digests : ∀ i j info info', m.type? i = some info → m.type? j = some info' →
    info.isInterface = true → info'.isInterface = true →
    ∃ ts ts', m.typeTokens [] i = .ok ts ∧ m.typeTokens [] j = .ok ts' ∧
      (Token.bytes ts = Token.bytes ts' ↔ info.qualifiedName = info'.qualifiedName)

theorem typeTokens_of_isInterface (hinfo : m.type? i = some info)
    (hinterface : info.isInterface = true) :
    info.storage = .interface ∧ m.typeTokens [] i = .ok (info.tokens []) := by
  obtain ⟨info', members, hinfo', hkind⟩ := HasInterface.exists_members ⟨info, hinfo, hinterface⟩
  obtain rfl := Option.some.inj (hinfo.symm.trans hinfo')
  rw [typeTokens_of_type? hinfo, TypeInfo.storage, hkind]
  exact ⟨rfl, rfl⟩

/-- **Types are told apart by where they stand and what they are called.** Their qualified names do
so as well, unless a name begins with a `:` or has a separator in it, and interfaces are digested
alike only if they have the same qualified name. -/
theorem namesApart_of_finish (hm : (build edits).finish = .ok m) : m.NamesApart := by
  have htype {i : TypeId} {info : TypeInfo} (h : m.type? i = some info) :
      (build edits).type? i = some info := by
    rwa [Builder.eq_of_finish hm] at h
  refine ⟨?_, ?_, ?_, ?_⟩
  · rintro i j info info' hi hj hne ⟨hpath, hname⟩
    exact hne (Builder.eq_of_same_place (htype hi) (htype hj) hpath hname)
  · intro i j info info' hi hj hne
    exact Builder.qualifiedName_eq_iff_takesIn (htype hi) (htype hj) hne
  · intro i j info info' hi hj hne hplain hplain' heq
    rcases (Builder.qualifiedName_eq_iff_takesIn (htype hi) (htype hj) hne).mp heq with
      htakes | htakes
    · exact htakes.not_isPlain hplain
    · exact htakes.not_isPlain hplain'
  · intro i j info info' hi hj hinterface hinterface'
    obtain ⟨hstorage, htokens⟩ := typeTokens_of_isInterface hi hinterface
    obtain ⟨hstorage', htokens'⟩ := typeTokens_of_isInterface hj hinterface'
    exact ⟨_, _, htokens, htokens', TypeInfo.bytes_tokens_eq_iff (hstorage.trans hstorage'.symm)⟩

/-- Names with a `:` inside, in places with a `:` at the end. -/
def colons : List Edit :=
  [.add "A:" "B:C" (.interface {}), .add "A" "B:C" (.interface {}),
   .declare "::A:::" "C" .interface, .define ⟨9⟩ (.interface {})]

theorem namesApart_colons :
    (build colons).finish = .ok (declared colons) ∧ (declared colons).NamesApart ∧
      IsPlain "B:C" ∧ ((declared colons).types.drop 7).map (·.qualifiedName) =
        ["A:::B:C", "A::B:C", "A:::::C"] := by
  have hfinish : (build colons).finish = .ok (declared colons) := by cbv
  exact ⟨hfinish, namesApart_of_finish hfinish, by decide, by cbv⟩

/-- Two interfaces in different places, of which the first takes in the path of the second. -/
def homonyms : List Edit :=
  [.add "A" "B::C" (.interface {}), .add "A::B" "C" (.interface {})]

theorem homonyms_digested_alike :
    (build homonyms).finish = .ok (declared homonyms) ∧
      (declared homonyms).type? ⟨7⟩ = some ⟨"B::C", ["A"], .interface {}⟩ ∧
      (declared homonyms).type? ⟨8⟩ = some ⟨"C", ["A", "B"], .interface {}⟩ ∧
      TypeInfo.qualifiedName ⟨"B::C", ["A"], .interface {}⟩ = "A::B::C" ∧
      TypeInfo.qualifiedName ⟨"C", ["A", "B"], .interface {}⟩ = "A::B::C" ∧
      (declared homonyms).typeTokens [] ⟨7⟩ = (declared homonyms).typeTokens [] ⟨8⟩ := by
  exact ⟨by cbv, by cbv, by cbv, by cbv, by cbv, by cbv⟩

end Model

end Remoting

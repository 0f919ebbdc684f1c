import Remoting.Proofs.HandlerTables

/-!
# Remoting.Proofs.RegistryHistory

Registries against their history. What was registered successfully can be told from the answers
alone (`HandlerTables.registrations`): a request counts unless it was answered with a failure, and
the members of an interface are requests one after another, up to the first that fails.

A registry only ever becomes larger, until it is sealed (`Registry.Becomes`), and what actions add
is what their answers tell (`Registry.entries_run`). So whatever is done with a registry, it holds
just what was registered, and sealing loses, adds and changes nothing
(`HandlerTables.dependable_after`).
-/

namespace Remoting

open List Registry HandlerTables RegistryAction

variable {η : Type}

/-! ## What a history tells -/

namespace RegistryAction

/-- What an action asks to be registered: the digest and the name, if these can be computed, and the
handler. -/
def request? : RegistryAction η → Option (Except SchemaError (Digest × String) × η)
  | .register digest name handler => some (.ok (digest, name), handler)
  | .registerMember m interface role member handler =>
    some (HandlerTables.memberName m interface role member, handler)
  | .registerTypeList m handler => some (HandlerTables.typeListName m, handler)
  | _ => none

/-- A request to register the handler of a member. -/
def member (m : Model) (interface : TypeId) (x : Role × String × η) : RegistryAction η :=
  .registerMember m interface x.1 x.2.1 x.2.2

/-- An action as requests one after another. Only an interface asks for more than one thing. -/
def parts : RegistryAction η → List (RegistryAction η)
  | .registerInterface m interface handlers => handlers.map (member m interface)
  | a => [a]

def isBulk : RegistryAction η → Bool
  | .registerInterface _ _ _ => true
  | _ => false

theorem parts_of_not_bulk {a : RegistryAction η} (h : a.isBulk = false) : a.parts = [a] := by
  cases a <;> first | rfl | contradiction

/-- What an action has registered, as the answer to it tells. -/
def registered? (a : RegistryAction η) : RegistryAnswer η → Option (Registered η)
  | .failed _ => none
  | _ =>
    match a.request? with
    | some (.ok (digest, name), handler) => some ⟨digest, name, handler⟩
    | _ => none

end RegistryAction

namespace HandlerTables

/-- The tables after some actions. -/
def run (t : HandlerTables η) (actions : List (RegistryAction η)) : HandlerTables η :=
  actions.foldl (fun t a => (t.perform a).2) t

/-- What requests register one after another, up to the first that registers nothing. -/
def admitted (t : HandlerTables η) : List (RegistryAction η) → List (Registered η)
  | [] => []
  | a :: rest =>
    match a.registered? (t.perform a).1 with
    | some e => e :: admitted (t.perform a).2 rest
    | none => []

/-- What actions register one after another. -/
def gained (t : HandlerTables η) : List (RegistryAction η) → List (Registered η)
  | [] => []
  | a :: rest => t.admitted a.parts ++ gained (t.perform a).2 rest

/-- The tables after some actions, from the beginning. -/
def after (actions : List (RegistryAction η)) : HandlerTables η := run {} actions

/-- The answer to an action that comes after others. -/
def answerAfter (actions : List (RegistryAction η)) (a : RegistryAction η) : RegistryAnswer η :=
  ((after actions).perform a).1

/-- The successful registrations, from the beginning. -/
def registrations (actions : List (RegistryAction η)) : List (Registered η) := gained {} actions

/-- None of several actions fails when they are done one after another. -/
def Succeeds (t : HandlerTables η) : List (RegistryAction η) → Prop
  | [] => True
  | a :: rest => (∀ error, (t.perform a).1 ≠ .failed error) ∧ Succeeds (t.perform a).2 rest

end HandlerTables

/-! ## What becomes of a registry -/

/-- What can become of a registry: more handlers are registered, and it is sealed. -/
inductive Registry.Becomes (r : Registry η) : Registry η → Prop where
  | refl : Becomes r r
  | register {r' r'' : Registry η} {digest : Digest} {name : String} {handler : η}
      (h : Becomes r r') (hr : r'.register digest name handler = .ok r'') : Becomes r r''
  | close {r' r'' : Registry η} {size : Nat} (h : Becomes r r')
      (hr : r'.close = .ok (size, r'')) : Becomes r r''

namespace Registry

variable {r r' r'' : Registry η} {digest : Digest} {name : String} {handler : η}
  {a : RegistryAction η}

/-- A handler is registered while the registry is open and the digest is free. -/
theorem register_eq_ok_iff :
    r.register digest name handler = .ok r' ↔ r.serving = false ∧ r.find? digest = none ∧
      r' = { r with entries := r.entries ++ [⟨digest, name, handler⟩] } := by
  unfold register
  cases r.serving with
  | true => simp
  | false => cases r.find? digest <;> simp [eq_comm]

/-- A registry is sealed once, and tells its size. -/
theorem close_eq_ok_iff {size : Nat} :
    r.close = .ok (size, r') ↔
      r.serving = false ∧ size = r.size ∧ r' = { r with serving := true } := by
  unfold close
  cases r.serving <;> simp [eq_comm]

/-- A handler is found after it has been registered. -/
theorem find?_of_register (h : r.register digest name handler = .ok r') :
    r'.find? digest = some ⟨digest, name, handler⟩ := by
  obtain ⟨-, hnone, rfl⟩ := register_eq_ok_iff.mp h
  have hnone' : r.entries.find? (·.digest == digest) = none := hnone
  simp [find?, find?_append, hnone']

theorem Becomes.trans (h : r.Becomes r') (h' : r'.Becomes r'') : r.Becomes r'' := by
  induction h' with
  | refl => exact h
  | register _ hr ih => exact .register ih hr
  | close _ hr ih => exact .close ih hr

/-- What is registered stays. -/
theorem Becomes.find?_eq_some (h : r.Becomes r') {e : Registered η}
    (he : r.find? digest = some e) : r'.find? digest = some e := by
  induction h with
  | refl => exact he
  | register _ hr ih =>
    obtain ⟨-, -, rfl⟩ := register_eq_ok_iff.mp hr
    rw [find?] at ih ⊢
    rw [find?_append, ih]
    rfl
  | close _ hr ih =>
    obtain ⟨-, -, rfl⟩ := close_eq_ok_iff.mp hr
    exact ih

/-- A sealed registry stays as it is. -/
theorem Becomes.eq_of_serving (h : r.Becomes r') (hserving : r.serving = true) : r' = r := by
  induction h with
  | refl => rfl
  | register _ hr ih =>
    obtain ⟨hopen, -⟩ := register_eq_ok_iff.mp hr
    rw [ih, hserving] at hopen
    contradiction
  | close _ hr ih =>
    obtain ⟨hopen, -⟩ := close_eq_ok_iff.mp hr
    rw [ih, hserving] at hopen
    contradiction

/-- No digest is registered twice. -/
def Distinct (r : Registry η) : Prop := (r.entries.map (·.digest)).Nodup

/-- A digest is free if no entry has it. -/
theorem find?_eq_none_iff : r.find? digest = none ↔ digest ∉ r.entries.map (·.digest) := by
  simp [find?]

/-- Where no digest is registered twice, every handler is found. -/
theorem Distinct.find?_eq_some (h : r.Distinct) {e : Registered η} (he : e ∈ r.entries) :
    r.find? e.digest = some e := by
  cases hfind : r.find? e.digest with
  | none => exact absurd (mem_map_of_mem he) (find?_eq_none_iff.mp hfind)
  | some e' =>
    have hmem : e' ∈ r.entries := mem_of_find?_eq_some hfind
    have hdigest : e'.digest = e.digest := by simpa using find?_some hfind
    rw [inj_on_of_nodup_map h hmem he hdigest]

/-- No digest is registered twice. -/
theorem Becomes.distinct (h : r.Becomes r') (hr : r.Distinct) : r'.Distinct := by
  induction h with
  | refl => exact hr
  | register _ hregister ih =>
    obtain ⟨-, hnone, rfl⟩ := register_eq_ok_iff.mp hregister
    have hfresh := find?_eq_none_iff.mp hnone
    simp only [Distinct, map_append, map_cons, map_nil]
    rw [nodup_append]
    refine ⟨ih, nodup_singleton _, ?_⟩
    rintro d hd _ hmem rfl
    exact hfresh (mem_singleton.mp hmem ▸ hd)
  | close _ hclose ih =>
    obtain ⟨-, -, rfl⟩ := close_eq_ok_iff.mp hclose
    exact ih

/-! ## One action -/

/-- A member is registered under its digest and name. -/
theorem registerMember_eq_ok_iff {m : Model} {interface : TypeId} {role : Role} {member : String} :
    r.registerMember m interface role member handler = .ok (digest, r') ↔
      ∃ name, memberName m interface role member = .ok (digest, name) ∧
        r.register digest name handler = .ok r' := by
  unfold registerMember memberName
  cases m.memberDigest role interface member with
  | error e => simp [Except.mapError, bind, Except.bind]
  | ok d =>
    cases m.type interface with
    | error e => simp [Except.mapError, bind, Except.bind]
    | ok info =>
      simp only [Except.mapError, bind, Except.bind, pure, Except.pure]
      grind

/-- The handler for the question for types is registered under the digest of that question. -/
theorem registerTypeList_eq_ok_iff {m : Model} :
    r.registerTypeList m handler = .ok (digest, r') ↔
      m.typeListDigest = .ok digest ∧ r.register digest "type list" handler = .ok r' := by
  unfold registerTypeList
  cases m.typeListDigest with
  | error e => simp [Except.mapError, bind, Except.bind]
  | ok d =>
    simp only [Except.mapError, bind, Except.bind, pure, Except.pure]
    grind

/-- When registering a handler is answered with success. -/
theorem act_register_eq_done_iff :
    (r.act (.register digest name handler)).1 = .done ↔
      r.serving = false ∧ r.find? digest = none := by
  unfold act settle register
  cases r.serving with
  | true => simp [Except.map]
  | false => cases hfind : r.find? digest <;> simp [Except.map, hfind]

/-- What comes of a request: it is registered, or it fails and changes nothing. -/
theorem act_of_request (r : Registry η) (ha : a.request?.isSome) :
    (∃ e, a.registered? (r.act a).1 = some e ∧ (∀ error, (r.act a).1 ≠ .failed error) ∧
      r.register e.digest e.name e.handler = .ok (r.act a).2) ∨
    ∃ error, (r.act a).1 = .failed error ∧ (r.act a).2 = r := by
  cases a with
  | register digest name handler =>
    cases hr : r.register digest name handler with
    | error error => exact .inr ⟨error, by simp [act, settle, hr, Except.map]⟩
    | ok r' => exact .inl ⟨⟨digest, name, handler⟩, by simp [act, settle, hr, Except.map,
        registered?, request?]⟩
  | registerMember m interface role member handler =>
    cases hr : r.registerMember m interface role member handler with
    | error error => exact .inr ⟨error, by simp [act, settle, hr]⟩
    | ok added =>
      obtain ⟨name, hname, hregister⟩ := registerMember_eq_ok_iff.mp hr
      exact .inl ⟨⟨added.1, name, handler⟩, by simp [act, settle, hr, hname, hregister,
        registered?, request?]⟩
  | registerTypeList m handler =>
    cases hr : r.registerTypeList m handler with
    | error error => exact .inr ⟨error, by simp [act, settle, hr]⟩
    | ok added =>
      obtain ⟨hdigest, hregister⟩ := registerTypeList_eq_ok_iff.mp hr
      exact .inl ⟨⟨added.1, "type list", handler⟩, by simp [act, settle, hr, hdigest, hregister,
        registered?, request?, typeListName,
        Except.map]⟩
  | registerInterface | close | lookup | nameOf | size => contradiction

/-- A request as the first of several: what it adds, and what the others add then. -/
theorem admitted_of_request (r : Registry η) (ha : a.request?.isSome)
    (rest : List (RegistryAction η)) :
    (∃ e, (∀ error, (r.act a).1 ≠ .failed error) ∧
      r.register e.digest e.name e.handler = .ok (r.act a).2 ∧
      r.tables.admitted (a :: rest) = e :: (r.act a).2.tables.admitted rest) ∨
    ∃ error, (r.act a).1 = .failed error ∧ (r.act a).2 = r ∧
      r.tables.admitted (a :: rest) = [] := by
  simp only [admitted, perform_tables, Prod.map_fst, Prod.map_snd, id]
  rcases act_of_request r ha with ⟨e, htold, hanswer, hregister⟩ | ⟨error, hanswer, hsame⟩
  · exact .inl ⟨e, hanswer, hregister, by rw [htold]⟩
  · exact .inr ⟨error, hanswer, hsame, by rw [hanswer]; rfl⟩

/-- Handlers of an interface are registered like requests one after another, up to the first that
fails. -/
theorem registerInterface_cons (r : Registry η) (m : Model) (interface : TypeId)
    (x : Role × String × η) (rest : List (Role × String × η)) :
    (∃ digest, (r.act (.member m interface x)).1 = .digest digest ∧
      r.registerInterface m interface (x :: rest) =
        ((r.act (.member m interface x)).2.registerInterface m interface rest).map
          (·.map (digest :: ·)) id) ∨
    ∃ error, (r.act (.member m interface x)).1 = .failed error ∧
      (r.act (.member m interface x)).2 = r ∧
      r.registerInterface m interface (x :: rest) = (.error error, r) := by
  rw [registerInterface, member, act]
  cases r.registerMember m interface x.1 x.2.1 x.2.2 with
  | error error => exact .inr ⟨error, rfl, rfl, rfl⟩
  | ok added => exact .inl ⟨added.1, rfl, rfl⟩

/-- What becomes of a registry when the handlers of an interface are registered. -/
theorem becomes_registerInterface (r : Registry η) (m : Model) (interface : TypeId)
    (handlers : List (Role × String × η)) :
    r.Becomes (r.registerInterface m interface handlers).2 ∧
      (r.registerInterface m interface handlers).2.serving = r.serving ∧
      (r.registerInterface m interface handlers).2.entries =
        r.entries ++ r.tables.admitted (handlers.map (.member m interface)) := by
  induction handlers generalizing r with
  | nil => exact ⟨.refl, rfl, by simp [registerInterface, admitted]⟩
  | cons x rest ih =>
    have hrequest : (member m interface x).request?.isSome := rfl
    rw [map_cons]
    rcases admitted_of_request r hrequest (rest.map (.member m interface)) with
      ⟨e, hanswer, hregister, hadmitted⟩ | ⟨error, hanswer, -, hadmitted⟩
    · rcases registerInterface_cons r m interface x rest with
        ⟨digest, -, heq⟩ | ⟨error, herror, -⟩
      · obtain ⟨hbecomes, hserving, hentries⟩ := ih (r.act (.member m interface x)).2
        obtain ⟨hopen, -, hadd⟩ := register_eq_ok_iff.mp hregister
        rw [heq, hadmitted]
        refine ⟨(Becomes.register .refl hregister).trans hbecomes, ?_, ?_⟩
        · exact hserving.trans (by rw [hadd])
        · refine hentries.trans ?_
          rw [hadd]
          simp
      · exact absurd herror (hanswer error)
    · rcases registerInterface_cons r m interface x rest with
        ⟨digest, hdigest, -⟩ | ⟨_, -, -, heq⟩
      · rw [hanswer] at hdigest
        contradiction
      · rw [heq, hadmitted]
        exact ⟨.refl, rfl, by simp⟩

/-- An action that asks for nothing to be registered registers nothing. -/
theorem admitted_of_no_request (r : Registry η) (ha : a.request? = none) :
    r.tables.admitted [a] = [] := by
  have hnone (answer : RegistryAnswer η) : a.registered? answer = none := by
    cases answer <;> simp [registered?, ha]
  simp only [admitted, hnone]

/-- What becomes of a registry by one request. -/
theorem becomes_of_request (r : Registry η) (ha : a.request?.isSome) :
    r.Becomes (r.act a).2 ∧ (r.act a).2.serving = r.serving ∧
      (r.act a).2.entries = r.entries ++ r.tables.admitted [a] := by
  rcases admitted_of_request r ha [] with
    ⟨e, -, hregister, hadmitted⟩ | ⟨error, -, hsame, hadmitted⟩
  · obtain ⟨-, -, hadd⟩ := register_eq_ok_iff.mp hregister
    rw [hadmitted, admitted]
    exact ⟨.register .refl hregister, by rw [hadd], by rw [hadd]⟩
  · rw [hsame, hadmitted]
    exact ⟨.refl, rfl, by simp⟩

/-- What becomes of a registry in one action: it has what the answers tell in addition, and it is
sealed if the action seals it. -/
theorem becomes_act (r : Registry η) (a : RegistryAction η) :
    r.Becomes (r.act a).2 ∧
      ((r.act a).2.serving = true ↔ r.serving = true ∨ a = .close) ∧
      (r.act a).2.entries = r.entries ++ r.tables.admitted a.parts := by
  cases a with
  | register digest name handler =>
    obtain ⟨hbecomes, hserving, hentries⟩ := becomes_of_request r (a := .register _ _ _) rfl
    exact ⟨hbecomes, by simp [hserving], hentries⟩
  | registerMember m interface role member handler =>
    obtain ⟨hbecomes, hserving, hentries⟩ :=
      becomes_of_request r (a := .registerMember _ _ _ _ _) rfl
    exact ⟨hbecomes, by simp [hserving], hentries⟩
  | registerTypeList m handler =>
    obtain ⟨hbecomes, hserving, hentries⟩ := becomes_of_request r (a := .registerTypeList _ _) rfl
    exact ⟨hbecomes, by simp [hserving], hentries⟩
  | registerInterface m interface handlers =>
    obtain ⟨hbecomes, hserving, hentries⟩ := becomes_registerInterface r m interface handlers
    exact ⟨hbecomes, by simp [act, hserving], hentries⟩
  | close =>
    rw [parts_of_not_bulk rfl, admitted_of_no_request r rfl]
    cases hr : r.close with
    | error error =>
      have hserving : r.serving = true := by
        by_contra hopen
        simp [Registry.close, hopen] at hr
      simp [act, settle, hr, hserving, Becomes.refl]
    | ok closed =>
      obtain ⟨-, -, hclosed⟩ := close_eq_ok_iff.mp hr
      have hbecomes : r.Becomes closed.2 := .close .refl hr
      simp [act, settle, hr, hbecomes]
      simp [hclosed]
  | lookup | nameOf | size =>
    rw [parts_of_not_bulk rfl, admitted_of_no_request r rfl]
    exact ⟨.refl, by simp [act], by simp [act]⟩

/-! ## Histories -/

/-- A registry after some actions. -/
def run (r : Registry η) (actions : List (RegistryAction η)) : Registry η :=
  actions.foldl (fun r a => (r.act a).2) r

theorem run_append (r : Registry η) (actions more : List (RegistryAction η)) :
    r.run (actions ++ more) = (r.run actions).run more := foldl_append

/-- Actions register handlers and seal, and do nothing else. -/
theorem becomes_run (r : Registry η) (actions : List (RegistryAction η)) :
    r.Becomes (r.run actions) := by
  induction actions generalizing r with
  | nil => exact .refl
  | cons a rest ih => exact (becomes_act r a).1.trans (ih (r.act a).2)

/-- A registry serves once it was sealed, and ever after. -/
theorem serving_run (r : Registry η) (actions : List (RegistryAction η)) :
    (r.run actions).serving = true ↔ r.serving = true ∨ .close ∈ actions := by
  induction actions generalizing r with
  | nil => simp [run]
  | cons a rest ih =>
    obtain ⟨-, hserving, -⟩ := becomes_act r a
    have hrun : r.run (a :: rest) = (r.act a).2.run rest := rfl
    rw [hrun, ih, hserving, mem_cons, or_assoc, eq_comm (a := a)]

/-- What actions do to the tables of a registry. -/
theorem run_tables (r : Registry η) (actions : List (RegistryAction η)) :
    r.tables.run actions = (r.run actions).tables := by
  induction actions generalizing r with
  | nil => rfl
  | cons a rest ih =>
    have hrun : r.tables.run (a :: rest) = (r.tables.perform a).2.run rest := rfl
    rw [hrun, perform_tables]
    exact ih (r.act a).2

/-- A registry holds what it held and what was registered since. -/
theorem entries_run (r : Registry η) (actions : List (RegistryAction η)) :
    (r.run actions).entries = r.entries ++ r.tables.gained actions := by
  induction actions generalizing r with
  | nil => simp [run, gained]
  | cons a rest ih =>
    obtain ⟨-, -, hentries⟩ := becomes_act r a
    have hrun : r.run (a :: rest) = (r.act a).2.run rest := rfl
    rw [hrun, ih, hentries, gained, perform_tables, append_assoc]
    rfl

/-- A list of actions succeeds one by one. -/
theorem succeeds_cons (r : Registry η) (a : RegistryAction η) (rest : List (RegistryAction η)) :
    r.tables.Succeeds (a :: rest) ↔
      (∀ error, (r.act a).1 ≠ .failed error) ∧ (r.act a).2.tables.Succeeds rest := by
  simp only [HandlerTables.Succeeds, perform_tables, Prod.map_fst, Prod.map_snd, id]

/-- Registering the handlers of an interface is registering its members one after another: all of
them, or those before the first that fails. -/
theorem registerInterface_eq_run (r : Registry η) (m : Model) (interface : TypeId)
    (handlers : List (Role × String × η)) :
    (∃ digests, r.tables.Succeeds (handlers.map (.member m interface)) ∧
      r.registerInterface m interface handlers =
        (.ok digests, r.run (handlers.map (.member m interface)))) ∨
    ∃ before x later error, handlers = before ++ x :: later ∧
      r.tables.Succeeds (before.map (.member m interface)) ∧
      ((r.run (before.map (.member m interface))).act (.member m interface x)).1 = .failed error ∧
      r.registerInterface m interface handlers =
        (.error error, r.run (before.map (.member m interface))) := by
  induction handlers generalizing r with
  | nil => exact .inl ⟨[], trivial, rfl⟩
  | cons x rest ih =>
    rcases registerInterface_cons r m interface x rest with
      ⟨digest, hdigest, heq⟩ | ⟨error, herror, -, heq⟩
    · have hgood : ∀ error, (r.act (.member m interface x)).1 ≠ .failed error := by
        simp [hdigest]
      rcases ih (r.act (.member m interface x)).2 with
        ⟨digests, hrest, hdone⟩ | ⟨before, y, later, error, rfl, hbefore, hfails, hdone⟩
      · refine .inl ⟨digest :: digests, (succeeds_cons ..).mpr ⟨hgood, hrest⟩, ?_⟩
        rw [heq, hdone]
        rfl
      · refine .inr ⟨x :: before, y, later, error, rfl,
          (succeeds_cons ..).mpr ⟨hgood, hbefore⟩, hfails, ?_⟩
        rw [heq, hdone]
        rfl
    · exact .inr ⟨[], x, rest, error, rfl, trivial, herror, heq⟩

end Registry

/-! ## The whole history -/

namespace HandlerTables

variable (actions : List (RegistryAction η))

/-- The registry after some actions, from the beginning. -/
def reached : Registry η := ({} : Registry η).run actions

/-- Changed in place, the tables are those of the registry. -/
theorem after_eq : after actions = (reached actions).tables := run_tables {} actions

theorem answerAfter_eq (a : RegistryAction η) :
    answerAfter actions a = ((reached actions).act a).1 := by
  rw [answerAfter, after_eq, perform_tables]
  rfl

theorem after_concat (a : RegistryAction η) :
    after (actions ++ [a]) = ((reached actions).act a).2.tables := by
  rw [after_eq, reached, run_append]
  rfl

/-- The entries are those that were registered. -/
theorem entries_reached : (reached actions).entries = registrations actions := by
  rw [reached, entries_run]
  rfl

/-- A registry serves exactly if it was sealed. -/
theorem serving_reached : (reached actions).serving = true ↔ .close ∈ actions := by
  simp [reached, serving_run]

theorem distinct_reached : (reached actions).Distinct :=
  (becomes_run {} actions).distinct nodup_nil

/-- Once it is sealed, nothing changes any more. -/
theorem reached_append_of_close (h : .close ∈ actions) (since : List (RegistryAction η)) :
    reached (actions ++ since) = reached actions := by
  rw [reached, run_append]
  exact (becomes_run _ since).eq_of_serving ((serving_reached actions).mpr h)

/-- What was registered is found. -/
theorem find?_reached {e : Registered η} (he : e ∈ registrations actions) :
    (reached actions).find? e.digest = some e :=
  (distinct_reached actions).find?_eq_some (entries_reached actions ▸ he)

/-- Nothing else is. -/
theorem find?_reached_eq_none_iff {digest : Digest} :
    (reached actions).find? digest = none ↔ ∀ e ∈ registrations actions, e.digest ≠ digest := by
  rw [find?_eq_none_iff, entries_reached, mem_map]
  grind

/-- An action that fails leaves the registry as it was, unless it concerns a whole interface. -/
theorem after_concat_of_failed {a : RegistryAction η} {error : RegistryError}
    (ha : a.isBulk = false) (h : answerAfter actions a = .failed error) :
    after (actions ++ [a]) = after actions := by
  rw [answerAfter_eq] at h
  rw [after_concat, after_eq]
  congr 1
  by_cases hrequest : a.request?.isSome
  · rcases act_of_request (reached actions) hrequest with ⟨e, -, hgood, -⟩ | ⟨_, -, hsame⟩
    · exact absurd h (hgood error)
    · exact hsame
  · cases a with
    | register | registerMember | registerTypeList => simp [request?] at hrequest
    | registerInterface => contradiction
    | lookup | nameOf | size => rfl
    | close =>
      simp only [act, settle] at h ⊢
      cases hclose : (reached actions).close with
      | error e => rfl
      | ok closed => simp [hclose] at h

/-- What holds of the tables after some actions, and of the action that comes next. -/
structure Dependable (actions : List (RegistryAction η)) : Prop where
  /-- They are the tables of a registry, and the next action is answered like there. -/
  registry : after actions = (reached actions).tables ∧
    ∀ a, answerAfter actions a = ((reached actions).act a).1
  /-- They hold what was registered successfully, in that order. -/
  holds : (after actions).current = registrations actions
  /-- No two registrations of a digest have succeeded. -/
  once : ((registrations actions).map (·.digest)).Nodup
  /-- What was registered is never overwritten. -/
  kept : ∀ before since e, actions = before ++ since → e ∈ registrations before →
    ofDigest? (after actions).current e.digest = some e
  /-- A handler is taken as long as the registry is not sealed and the digest is not taken. -/
  taken : ∀ digest name handler, answerAfter actions (.register digest name handler) = .done ↔
    .close ∉ actions ∧ ∀ e ∈ registrations actions, e.digest ≠ digest
  /-- An action that fails changes nothing, unless it concerns a whole interface. -/
  refused : ∀ a error, a.isBulk = false → answerAfter actions a = .failed error →
    after (actions ++ [a]) = after actions
  /-- Registering an interface that fails has registered the members before the first that
  fails. -/
  bulk : ∀ m interface handlers error,
    answerAfter actions (.registerInterface m interface handlers) = .failed error →
      ∃ before x later, handlers = before ++ x :: later ∧
        (after actions).Succeeds (before.map (.member m interface)) ∧
        answerAfter (actions ++ before.map (.member m interface)) (.member m interface x) =
          .failed error ∧
        after (actions ++ [.registerInterface m interface handlers]) =
          after (actions ++ before.map (.member m interface))
  /-- Sealing tells how many registrations have succeeded, and it succeeds only once. -/
  sealed : (.close ∉ actions → answerAfter actions .close = .count (registrations actions).length) ∧
    (.close ∈ actions → answerAfter actions .close = .failed .closedToHandlers)
  /-- Before it nothing can be looked up. -/
  early : .close ∉ actions →
    ∀ digest, answerAfter actions (.lookup digest) = .failed .stillCollecting
  /-- After it nothing is registered any more. -/
  late : .close ∈ actions → ∀ since,
    (∀ digest name handler,
      answerAfter (actions ++ since) (.register digest name handler) = .failed .closedToHandlers) ∧
    after (actions ++ since) = after actions ∧
    registrations (actions ++ since) = registrations actions
  /-- And for ever after it the handlers that were registered are found, and no others. -/
  found : .close ∈ actions → ∀ since,
    (∀ e ∈ registrations actions,
      answerAfter (actions ++ since) (.lookup e.digest) = .handler (some e.handler)) ∧
    ∀ digest, (∀ e ∈ registrations actions, e.digest ≠ digest) →
      answerAfter (actions ++ since) (.lookup digest) = .handler none
  /-- Sealing changes neither the names nor the number of the handlers. -/
  same : (∀ digest, answerAfter (actions ++ [.close]) (.nameOf digest) =
      answerAfter actions (.nameOf digest)) ∧
    answerAfter (actions ++ [.close]) .size = answerAfter actions .size

/-- **Registries can be depended on**, whatever is done with them in whatever order. -/
theorem dependable_after : Dependable actions where
  registry := ⟨after_eq actions, answerAfter_eq actions⟩
  holds := by rw [after_eq, current_tables, entries_reached]
  once := entries_reached actions ▸ distinct_reached actions
  kept before since e hsplit he := by
    have hbecomes : (reached before).Becomes (reached actions) := by
      rw [hsplit, reached, reached, Registry.run_append]
      exact Registry.becomes_run _ since
    rw [after_eq, current_tables]
    exact hbecomes.find?_eq_some (find?_reached before he)
  taken digest name handler := by
    rw [answerAfter_eq, Registry.act_register_eq_done_iff, ← serving_reached, Bool.not_eq_true,
      find?_reached_eq_none_iff]
  refused _ _ := after_concat_of_failed actions
  bulk m interface handlers error h := by
    rw [answerAfter_eq] at h
    have hact : (reached actions).act (.registerInterface m interface handlers) =
      ((reached actions).registerInterface m interface handlers).map (.telling .digests) id := rfl
    rcases Registry.registerInterface_eq_run (reached actions) m interface handlers with
      ⟨digests, -, hdone⟩ | ⟨before, x, later, error', rfl, hbefore, hfails, hdone⟩
    · rw [hact, hdone] at h
      contradiction
    · rw [hact, hdone] at h
      obtain rfl : error' = error := RegistryAnswer.failed.inj h
      have hrun : reached (actions ++ before.map (.member m interface)) =
          (reached actions).run (before.map (.member m interface)) := Registry.run_append ..
      refine ⟨before, x, later, rfl, after_eq actions ▸ hbefore, ?_, ?_⟩
      · rw [answerAfter_eq, hrun, hfails]
      · rw [after_concat, after_eq, hrun, hact, hdone]
        rfl
  sealed := by
    rw [answerAfter_eq, ← serving_reached, ← entries_reached]
    constructor
    · intro h
      simp [Registry.act, Registry.settle, Registry.close, Registry.size, h]
    · intro h
      simp [Registry.act, Registry.settle, Registry.close, h]
  early h digest := by
    rw [← serving_reached] at h
    rw [answerAfter_eq]
    simp [Registry.act, Registry.lookup, RegistryAnswer.telling, h]
  late h since := by
    have hsame := reached_append_of_close actions h since
    rw [after_eq, after_eq, ← entries_reached, ← entries_reached, hsame]
    refine ⟨fun digest name handler => ?_, rfl, rfl⟩
    have hserving := (serving_reached actions).mpr h
    rw [answerAfter_eq, hsame]
    simp [Registry.act, Registry.settle, Registry.register, Except.map, hserving]
  found h since := by
    have hserving := (serving_reached actions).mpr h
    have hanswer (digest : Digest) : answerAfter (actions ++ since) (.lookup digest) =
        .handler (((reached actions).find? digest).map (·.handler)) := by
      rw [answerAfter_eq, reached_append_of_close actions h since]
      simp [Registry.act, Registry.lookup, RegistryAnswer.telling, hserving]
    refine ⟨fun e he => ?_, fun digest hnone => ?_⟩
    · rw [hanswer, find?_reached actions he]
      rfl
    · rw [hanswer, (find?_reached_eq_none_iff actions).mpr hnone]
      rfl
  same := by
    have hentries : (reached (actions ++ [.close])).entries = (reached actions).entries := by
      obtain ⟨-, -, hclose⟩ := Registry.becomes_act (reached actions) .close
      rw [RegistryAction.parts_of_not_bulk rfl, Registry.admitted_of_no_request _ rfl,
        List.append_nil] at hclose
      rw [reached, Registry.run_append]
      exact hclose
    simp only [answerAfter_eq, Registry.act, Registry.nameOf?, Registry.find?, Registry.size,
      hentries, implies_true, and_self]

end HandlerTables

end Remoting

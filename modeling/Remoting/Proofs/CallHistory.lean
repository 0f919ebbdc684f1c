import Remoting.Proofs.History
import Remoting.Proofs.PendingTable

/-!
# Remoting.Proofs.CallHistory

The table of calls against its history. Everything that can be done with a table is a `CallAction`,
and `PendingCalls.after` is the table after a list of them.

What has become of a call can be told from the actions alone: a call is pending from its
registration until the first action that settles it (`PendingAfter`), and it stays what that action
made of it (`SettledAfter`). The table agrees with this at any time (`PendingCalls.state?_after`).
So whoever gets a response gets one that was meant for its call, and gets it once
(`PendingCalls.orderly_after`).
-/

namespace Remoting

open List Option

variable {s : CallState}

/-- Something that is done with a table of calls. -/
inductive CallAction where
  | register
  | complete (id : CallId) (response : Response)
  | cancel (id : CallId)
  | failAll (fault : Fault)
  /-- The caller looks for the response. -/
  | receive (id : CallId)
  /-- The caller goes away. -/
  | drop (id : CallId)
  deriving Repr

namespace CallAction

def isRegister : CallAction → Bool
  | .register => true
  | _ => false

/-- What an action makes of a call that is pending, if it settles the call. -/
def outcome (id : CallId) : CallAction → Option CallState
  | .complete id' response => if id' = id then some (.completed response) else none
  | .cancel id' => if id' = id then some .cancelled else none
  | .failAll fault => some (.completed (.error fault))
  | .register | .receive _ | .drop _ => none

theorem outcome_ne_pending {id : CallId} {a : CallAction} (h : a.outcome id = some s) :
    s.isPending = false := by
  cases a with
  | complete id' response | cancel id' =>
    simp only [outcome, ite_none_right_eq_some, some.injEq] at h
    rw [← h.2]
    rfl
  | failAll fault =>
    rw [← some.inj h]
    rfl
  | register | receive id' | drop id' => contradiction

end CallAction

/-! ## What a history tells -/

section History

variable {actions : List CallAction} {a : CallAction} {id : CallId} {s : CallState}

/-- How many calls were registered. -/
def registrations (actions : List CallAction) : Nat := actions.countP (·.isRegister)

/-- An action registers the call of a number. -/
def Registers (id : CallId) (before : List CallAction) (a : CallAction) : Prop :=
  a = .register ∧ id.val.toNat = registrations before + 1

/-- The call was registered. -/
def RegisteredAfter (actions : List CallAction) (id : CallId) : Prop :=
  Happened (Registers id) actions

/-- The call was registered, and nothing has settled it since. -/
def PendingAfter (actions : List CallAction) (id : CallId) : Prop :=
  Since (Registers id) (·.outcome id = none) actions

/-- The call was registered, and its caller has not gone away since. -/
def AttendedAfter (actions : List CallAction) (id : CallId) : Prop :=
  Since (Registers id) (· ≠ .drop id) actions

/-- An action made this of the call, which was pending then. -/
def SettledAfter (actions : List CallAction) (id : CallId) (s : CallState) : Prop :=
  Happened (fun before a => PendingAfter before id ∧ a.outcome id = some s) actions

/-- What has become of a call. -/
def StateAfter (actions : List CallAction) (id : CallId) : CallState → Prop
  | .pending => PendingAfter actions id
  | s => SettledAfter actions id s

theorem registrations_append (actions more : List CallAction) :
    registrations (actions ++ more) = registrations actions + registrations more :=
  countP_append

theorem registrations_concat_register (actions : List CallAction) :
    registrations (actions ++ [.register]) = registrations actions + 1 :=
  registrations_append actions [.register]

theorem registrations_concat_of_ne (ha : a ≠ .register) :
    registrations (actions ++ [a]) = registrations actions := by
  cases a with
  | register => contradiction
  | _ => exact registrations_append actions _

/-- One action more: a call is registered, stays what it is, or is settled. -/
theorem stateAfter_concat :
    StateAfter (actions ++ [a]) id s ↔
      (s = .pending ∧ Registers id actions a) ∨
        (StateAfter actions id s ∧ (s = .pending → a.outcome id = none)) ∨
        (PendingAfter actions id ∧ a.outcome id = some s) := by
  cases s with
  | pending =>
    have hne : a.outcome id ≠ some .pending := fun h => by
      simpa [CallState.isPending] using CallAction.outcome_ne_pending h
    simp [StateAfter, PendingAfter, since_concat, hne]
  | completed response | cancelled => simp [StateAfter, SettledAfter, happened_concat]

end History

/-! ## The table -/

/-- Whether a response has arrived. -/
def CallState.isCompleted : CallState → Bool
  | .completed _ => true
  | _ => false

/-- What an action makes of a call that is there. -/
def CallAction.effect (c : RegisteredCall) : CallAction → RegisteredCall
  | .register => c
  | .complete id response =>
    if c.id = id ∧ c.state.isPending then { c with state := .completed response } else c
  | .cancel id => if c.id = id ∧ c.state.isPending then { c with state := .cancelled } else c
  | .failAll fault =>
    if c.state.isPending then { c with state := .completed (.error fault) } else c
  | .receive id =>
    if c.id = id ∧ c.listening ∧ c.state.isCompleted then { c with listening := false } else c
  | .drop id => if c.id = id then { c with listening := false } else c

namespace PendingCalls

variable {q : PendingCalls} {actions : List CallAction} {a : CallAction} {id : CallId}
  {response : Response} {c : RegisteredCall}

/-- What has become of a call, as the table has it. -/
def state? (q : PendingCalls) (id : CallId) : Option CallState := (q.find? id).map (·.state)

/-- The table after one action. -/
def act (q : PendingCalls) : CallAction → PendingCalls
  | .register => q.register.2
  | .complete id response => (q.complete id response).2
  | .cancel id => (q.cancel id).2
  | .failAll fault => (q.failAll fault).2
  | .receive id => (q.receive id).2
  | .drop id => (q.drop id).2

/-- The table after some actions, from the beginning. -/
def after (actions : List CallAction) : PendingCalls := actions.foldl act {}

theorem after_concat : after (actions ++ [a]) = (after actions).act a := by
  simp [after, foldl_append]

theorem find?_update {change : RegisteredCall → RegisteredCall} (hid : ∀ c, (change c).id = c.id)
    (id' : CallId) :
    (q.update id' change).find? id =
      (q.find? id).map fun c => if c.id = id' then change c else c :=
  find?_map q (fun c => by split <;> simp [hid]) id

/-- An action that registers no call changes each call on its own. -/
theorem find?_act (ha : a ≠ .register) :
    (q.act a).find? id = (q.find? id).map fun c => a.effect c := by
  cases a with
  | register => contradiction
  | failAll fault => exact find?_map q (fun c => by split <;> rfl) id
  | complete id' response | cancel id' | receive id' | drop id' =>
    cases hc : q.find? id with
    | none =>
      grind [act, complete, cancel, contains, receive, drop, CallAction.effect, find?_update]
    | some c =>
      have hid := id_of_find? hc
      grind [act, complete, cancel, contains, receive, drop, CallState.isCompleted,
        CallAction.effect, find?_update]

theorem state_effect (a : CallAction) (c : RegisteredCall) :
    (a.effect c).state =
      if c.state.isPending then (a.outcome c.id).getD c.state else c.state := by
  cases a <;> grind [CallAction.effect, CallAction.outcome]

/-- Such an action settles a call that is pending, or leaves it as it is. -/
theorem state?_act_eq_some_iff (ha : a ≠ .register) :
    (q.act a).state? id = some s ↔
      (q.state? id = some s ∧ (s = .pending → a.outcome id = none)) ∨
        (q.state? id = some .pending ∧ a.outcome id = some s) := by
  rw [state?, state?, find?_act ha]
  cases hc : q.find? id with
  | none => simp
  | some c =>
    simp only [map_some, some.injEq, state_effect, id_of_find? hc]
    cases c.state with
    | pending =>
      cases a.outcome id <;> simp [CallState.isPending]
      grind
    | completed response | cancelled =>
      simp only [CallState.isPending, reduceCtorEq, false_and, or_false]
      grind

/-- A new call is pending, and the others are as they were. -/
theorem state?_register_eq_some_iff (hfresh : q.find? q.register.1 = none) :
    q.register.2.state? id = some s ↔
      (s = .pending ∧ q.register.1 = id) ∨ q.state? id = some s := by
  rw [state?, state?, find?_register]
  by_cases hid : q.register.1 = id
  · rw [← hid, hfresh]
    simp [eq_comm]
  · simp [hid]

theorem ids_act (ha : a ≠ .register) :
    (q.act a).ids = q.ids ∧ (q.act a).calls.map (·.id) = q.calls.map (·.id) := by
  have hupdate (id : CallId) (change : RegisteredCall → RegisteredCall)
      (hid : ∀ c, (change c).id = c.id) :
      (q.update id change).calls.map (·.id) = q.calls.map (·.id) := by
    simp [update, Function.comp_def, apply_ite, hid]
  cases a with
  | register => contradiction
  | failAll fault => simp [act, failAll, Function.comp_def, apply_ite]
  | complete id' response | cancel id' | receive id' | drop id' =>
    grind [act, complete, cancel, receive, drop, update]

/-- The table holds as many calls as were registered, and they are numbered in order. -/
theorem numbered_after (actions : List CallAction) :
    (after actions).Numbered ∧ (after actions).calls.length = registrations actions := by
  induction actions using reverseRecOn with
  | nil => exact ⟨⟨rfl, rfl⟩, rfl⟩
  | append_singleton actions a ih =>
    obtain ⟨hnumbered, hlength⟩ := ih
    rw [after_concat]
    by_cases ha : a = .register
    · subst ha
      rw [registrations_concat_register, ← hlength]
      exact ⟨hnumbered.register, by simp [act, register]⟩
    · rw [registrations_concat_of_ne ha, ← hlength]
      obtain ⟨hids, hcalls⟩ := ids_act (q := after actions) ha
      exact ⟨hnumbered.congr hids hcalls, by simpa using congrArg length hcalls⟩

/-- The next call gets the number after those that were handed out. -/
theorem toNat_register_after (h : registrations actions + 1 < 2 ^ 64) :
    (after actions).register.1.val.toNat = registrations actions + 1 := by
  obtain ⟨hnumbered, hlength⟩ := numbered_after actions
  have hnext : (after actions).register.1.val = UInt64.ofNat (registrations actions + 1) := by
    rw [← hlength, ← hnumbered.next]
    rfl
  rw [hnext, UInt64.toNat_ofNat', Nat.mod_eq_of_lt h]

theorem register_after_eq_iff (h : registrations actions + 1 < 2 ^ 64) :
    (after actions).register.1 = id ↔ id.val.toNat = registrations actions + 1 := by
  rw [← toNat_register_after h]
  constructor
  · rintro rfl
    rfl
  · intro heq
    have hval := UInt64.toNat_inj.mp heq
    exact congrArg CallId.mk hval.symm

theorem find?_register_after (h : registrations actions + 1 < 2 ^ 64) :
    (after actions).find? (after actions).register.1 = none := by
  obtain ⟨hnumbered, hlength⟩ := numbered_after actions
  exact hnumbered.find?_next (by rwa [hlength])

/-! ## Table and history -/

/-- The table has for every call the state that its history tells. -/
theorem state?_after (h : registrations actions < 2 ^ 64) :
    (after actions).state? id = some s ↔ StateAfter actions id s := by
  induction actions using reverseRecOn generalizing s with
  | nil =>
    cases s <;>
      simp [after, state?, find?, StateAfter, PendingAfter, since_nil, SettledAfter, happened_nil]
  | append_singleton actions a ih =>
    have hstate (s : CallState) : StateAfter actions id s ↔ (after actions).state? id = some s :=
      (ih (by rw [registrations_append] at h; omega)).symm
    have hpending : PendingAfter actions id ↔ (after actions).state? id = some .pending :=
      hstate .pending
    rw [after_concat, stateAfter_concat, hstate, hpending]
    by_cases ha : a = .register
    · subst ha
      rw [registrations_concat_register] at h
      rw [act, state?_register_eq_some_iff (find?_register_after h), register_after_eq_iff h]
      simp [CallAction.outcome, Registers]
    · simp [state?_act_eq_some_iff ha, Registers, ha]

/-- The table knows the calls that were registered. -/
theorem isSome_find?_after (h : registrations actions < 2 ^ 64) :
    ((after actions).find? id).isSome ↔ RegisteredAfter actions id := by
  induction actions using reverseRecOn with
  | nil => simp [after, find?, RegisteredAfter, happened_nil]
  | append_singleton actions a ih =>
    have hknown := ih (by rw [registrations_append] at h; omega)
    rw [after_concat, RegisteredAfter, happened_concat, ← RegisteredAfter, ← hknown]
    by_cases ha : a = .register
    · subst ha
      rw [registrations_concat_register] at h
      rw [act, find?_register, Registers, ← register_after_eq_iff h]
      by_cases hid : (after actions).register.1 = id <;> simp [hid]
    · simp [find?_act ha, Registers, ha]

/-- A call that stays pending is listened for as before, unless its caller goes away. -/
theorem listening_effect (h : (a.effect c).state.isPending = true) :
    c.state.isPending = true ∧
      ((a.effect c).listening = true ↔ c.listening = true ∧ a ≠ .drop c.id) := by
  cases a <;> grind [CallAction.effect, CallState.isPending, CallState.isCompleted]

/-- A call that is pending is listened for as long as its caller has not gone away. -/
theorem listening_after (h : registrations actions < 2 ^ 64)
    (hc : (after actions).find? id = some c) (hpending : c.state.isPending = true) :
    c.listening = true ↔ AttendedAfter actions id := by
  induction actions using reverseRecOn generalizing c with
  | nil => simp [after, find?] at hc
  | append_singleton actions a ih =>
    have hlistening {c : RegisteredCall} := ih (c := c) (by rw [registrations_append] at h; omega)
    rw [AttendedAfter, since_concat, ← AttendedAfter, Registers]
    rw [after_concat] at hc
    by_cases ha : a = .register
    · subst ha
      rw [registrations_concat_register] at h
      rw [act, find?_register] at hc
      rw [← register_after_eq_iff h]
      by_cases hid : (after actions).register.1 = id
      · rw [← hid, find?_register_after h] at hc
        simp at hc
        simp [← hc, hid]
      · simp [hid] at hc
        rw [hlistening hc hpending]
        simp [hid]
    · rw [find?_act ha] at hc
      obtain ⟨c', hc', rfl⟩ := map_eq_some_iff.mp hc
      obtain ⟨hpending', heffect⟩ := listening_effect hpending
      rw [heffect, hlistening hc' hpending', id_of_find? hc']
      simp [ha]

/-! ## What lasts -/

theorem after_append {P : PendingCalls → Prop} (hact : ∀ q a, P q → P (q.act a))
    {before : List CallAction} (h : P (after before)) (since : List CallAction) :
    P (after (before ++ since)) := by
  induction since using reverseRecOn with
  | nil => simpa using h
  | append_singleton since a ih =>
    rw [← append_assoc, after_concat]
    exact hact _ a ih

/-- Nobody who has stopped listening for a call begins again. -/
theorem listening_act (hc : q.find? id = some c) (hlistening : c.listening = false) :
    ∃ c', (q.act a).find? id = some c' ∧ c'.listening = false := by
  by_cases ha : a = .register
  · subst ha
    exact ⟨c, by rw [act, find?_register, hc]; rfl, hlistening⟩
  · refine ⟨a.effect c, by rw [find?_act ha, hc]; rfl, ?_⟩
    cases a <;> grind [CallAction.effect]

/-- A call that is settled is not settled again. -/
theorem state?_act_of_settled (hs : s.isPending = false) (h : q.state? id = some s) :
    (q.act a).state? id = some s := by
  by_cases ha : a = .register
  · subst ha
    obtain ⟨c, hc, rfl⟩ := map_eq_some_iff.mp h
    rw [act, state?, find?_register, hc]
    rfl
  · refine (state?_act_eq_some_iff ha).mpr (.inl ⟨h, ?_⟩)
    rintro rfl
    contradiction

/-! ## Answers -/

theorem complete_eq_true_iff :
    (q.complete id response).1 = true ↔
      ∃ c, q.find? id = some c ∧ c.state.isPending = true ∧ c.listening = true := by
  unfold complete
  cases q.find? id with
  | none => simp
  | some c => cases hc : c.state.isPending <;> simp [hc]

theorem receive_eq_response_iff :
    (q.receive id).1 = .response response ↔
      ∃ c, q.find? id = some c ∧ c.listening = true ∧ c.state = .completed response := by
  unfold receive
  cases q.find? id with
  | none => simp
  | some c => cases hl : c.listening <;> cases hs : c.state <;> simp [hl, hs]

theorem isPending_iff : s.isPending = true ↔ s = .pending := by
  cases s <;> simp [CallState.isPending]

/-- The number of pending calls is the number of their numbers, when these differ. -/
theorem size_eq_ncard (h : (q.calls.map (·.id)).Nodup) :
    q.size = {id | q.state? id = some .pending}.ncard := by
  have hmem (id : CallId) : id ∈ (q.calls.filter (·.state.isPending)).map (·.id) ↔
      q.state? id = some .pending := by
    simp only [List.mem_map, mem_filter, isPending_iff, state?, map_eq_some_iff]
    constructor
    · rintro ⟨c, ⟨hc, hpending⟩, rfl⟩
      obtain ⟨c', hc'⟩ : ∃ c', q.find? c.id = some c' := by
        rw [← isSome_iff_exists, find?, find?_isSome]
        exact ⟨c, hc, by simp⟩
      have hsame : c' = c :=
        inj_on_of_nodup_map h (mem_of_find?_eq_some hc') hc (id_of_find? hc')
      exact ⟨c, hsame ▸ hc', hpending⟩
    · rintro ⟨c, hc, hpending⟩
      exact ⟨c, ⟨mem_of_find?_eq_some hc, hpending⟩, id_of_find? hc⟩
  have hset : {id | q.state? id = some .pending} =
      ((q.calls.filter (·.state.isPending)).map (·.id)).toFinset := by
    ext id
    simp [← hmem]
  have hnodup : ((q.calls.filter (·.state.isPending)).map (·.id)).Nodup :=
    h.sublist (filter_sublist.map _)
  rw [hset, Set.ncard_coe_finset, toFinset_card_of_nodup hnodup, length_map,
    ← countP_eq_length_filter, size]

theorem find?_complete_of_ne {other : CallId} (h : other ≠ id) :
    (q.complete id response).2.find? other = q.find? other := by
  have hact : q.act (.complete id response) = (q.complete id response).2 := rfl
  rw [← hact, find?_act (by simp)]
  cases hc : q.find? other with
  | none => rfl
  | some c => simp [CallAction.effect, id_of_find? hc, h]

theorem state?_failAll_ne (fault : Fault) : (q.failAll fault).2.state? id ≠ some .pending := by
  have hact : q.act (.failAll fault) = (q.failAll fault).2 := rfl
  rw [← hact, Ne, state?_act_eq_some_iff (by simp)]
  simp [CallAction.outcome]

/-- A response is taken exactly if the call is pending and its caller is still there. -/
theorem complete_after_eq_true_iff (h : registrations actions < 2 ^ 64) :
    ((after actions).complete id response).1 = true ↔
      PendingAfter actions id ∧ AttendedAfter actions id := by
  have hpending : PendingAfter actions id ↔ (after actions).state? id = some .pending :=
    (state?_after (s := .pending) h).symm
  rw [complete_eq_true_iff, hpending, state?]
  cases hc : (after actions).find? id with
  | none => simp
  | some c =>
    simp only [some.injEq, exists_eq_left', map_some, isPending_iff]
    exact and_congr_right fun hstate => listening_after h hc (isPending_iff.mpr hstate)

theorem registeredAfter_iff (h : registrations actions < 2 ^ 64) :
    RegisteredAfter actions id ↔ ∃ s, (after actions).state? id = some s := by
  rw [← isSome_find?_after h, state?, ← isSome_iff_exists, isSome_map]

/-- Who has got a response gets none again. -/
theorem receive_after_receive {before : List CallAction} {response' : Response}
    (h : ((after before).receive id).1 = .response response) (since : List CallAction) :
    ((after (before ++ .receive id :: since)).receive id).1 ≠ .response response' := by
  have hdeaf : ∃ c, (after (before ++ [.receive id])).find? id = some c ∧ c.listening = false := by
    obtain ⟨c, hc, hlistening, hstate⟩ := receive_eq_response_iff.mp h
    rw [after_concat, find?_act (by simp), hc]
    refine ⟨_, rfl, ?_⟩
    simp [CallAction.effect, id_of_find? hc, hlistening, hstate, CallState.isCompleted]
  have hlasts := after_append (P := fun q => ∃ c, q.find? id = some c ∧ c.listening = false)
    (fun q a hq => by
      obtain ⟨c, hc, hlistening⟩ := hq
      exact listening_act hc hlistening) hdeaf since
  rw [append_assoc, singleton_append] at hlasts
  obtain ⟨c, hc, hlistening⟩ := hlasts
  intro hreceive
  obtain ⟨c', hc', hlistening', -⟩ := receive_eq_response_iff.mp hreceive
  rw [some.inj (hc.symm.trans hc'), hlistening'] at hlistening
  contradiction

/-! ## The whole table -/

/-- What holds of a table after some actions, and of the action that comes next. -/
structure Orderly (actions : List CallAction) : Prop where
  /-- Calls are numbered 1, 2, 3 and so on. -/
  next : (after actions).register.1.val.toNat = registrations actions + 1
  /-- No number is handed out twice, and none stands for no call. -/
  fresh : ¬ RegisteredAfter actions (after actions).register.1 ∧ (after actions).register.1 ≠ .none
  /-- A registered call is in one state, and any other call in none. -/
  one : ∀ id, (RegisteredAfter actions id → ∃! s, StateAfter actions id s) ∧
    (¬ RegisteredAfter actions id → ∀ s, ¬ StateAfter actions id s)
  /-- The table knows that state. -/
  known : ∀ id s, (after actions).state? id = some s ↔ StateAfter actions id s
  /-- A call that was settled is still what it was then. -/
  lasting : ∀ before since id s, actions = before ++ since → s.isPending = false →
    (after before).state? id = some s → (after actions).state? id = some s
  /-- Who gets a response gets one that was passed for its call while that was pending. -/
  meant : ∀ id response, ((after actions).receive id).1 = .response response →
    SettledAfter actions id (.completed response)
  /-- Who has got a response gets none again. -/
  once : ∀ before since id response response', actions = before ++ .receive id :: since →
    ((after before).receive id).1 = .response response →
      ((after actions).receive id).1 ≠ .response response'
  /-- A response is taken exactly if the call is pending and its caller is still there. -/
  taken : ∀ id response, ((after actions).complete id response).1 = true ↔
    PendingAfter actions id ∧ AttendedAfter actions id
  /-- A response concerns no other call, neither its state nor whether somebody listens for it. -/
  apart : ∀ id response other, other ≠ id →
    ((after actions).complete id response).2.find? other = (after actions).find? other
  /-- Failing all calls tells how many were pending. -/
  failed : ∀ fault, ((after actions).failAll fault).1 = {id | PendingAfter actions id}.ncard
  /-- Failing all calls leaves none pending. -/
  cleared : ∀ fault id, ((after actions).failAll fault).2.state? id ≠ some .pending
  /-- The size of the table is the number of calls that are pending. -/
  counted : (after actions).size = {id | PendingAfter actions id}.ncard

/-- **The table of calls keeps order.** As long as there are numbers for new calls, whatever was
done with the table before: calls are numbered one after another, every call is pending, completed
with one response or cancelled, and a call that is not pending stays what it is. A caller gets at
most one response, which was passed for its call while that was pending, and it is known of every
response whether somebody takes it. -/
theorem orderly_after (h : registrations actions < 2 ^ 64 - 1) : Orderly actions := by
  have hlt : registrations actions < 2 ^ 64 := by omega
  have hnumber : registrations actions + 1 < 2 ^ 64 := by omega
  have hknown (id : CallId) (s : CallState) :
      (after actions).state? id = some s ↔ StateAfter actions id s := state?_after hlt
  have hcounted : (after actions).size = {id | PendingAfter actions id}.ncard := by
    have hnodup : ((after actions).calls.map (·.id)).Nodup := by
      obtain ⟨hnumbered, hlength⟩ := numbered_after actions
      rw [hnumbered.calls, hlength]
      exact nodup_numbering hlt
    simp only [size_eq_ncard hnodup, hknown, StateAfter]
  exact {
    next := toNat_register_after hnumber
    fresh := by
      refine ⟨?_, fun hnone => ?_⟩
      · simp [← isSome_find?_after hlt, find?_register_after hnumber]
      · have hzero := toNat_register_after hnumber
        rw [hnone] at hzero
        contradiction
    one := by
      intro id
      simp only [registeredAfter_iff hlt, ← hknown]
      refine ⟨?_, fun hnone s hs => hnone ⟨s, hs⟩⟩
      rintro ⟨s, hs⟩
      exact ⟨s, hs, fun s' hs' => Option.some.inj (hs'.symm.trans hs)⟩
    known := hknown
    lasting := by
      rintro before since id s rfl hs hbefore
      exact after_append (P := fun q => q.state? id = some s)
        (fun q a hq => state?_act_of_settled hs hq) hbefore since
    meant := by
      intro id response hreceive
      obtain ⟨c, hc, -, hstate⟩ := receive_eq_response_iff.mp hreceive
      have hcompleted : (after actions).state? id = some (.completed response) := by
        rw [state?, hc, Option.map_some, hstate]
      exact (hknown id _).mp hcompleted
    once := by
      rintro before since id response response' rfl hreceive
      exact receive_after_receive hreceive since
    taken := fun _ _ => complete_after_eq_true_iff hlt
    apart := fun _ _ _ hother => find?_complete_of_ne hother
    failed := fun _ => hcounted
    cleared := fun fault _ => state?_failAll_ne fault
    counted := hcounted }

/-! One call is answered out of order, one is cancelled before its response comes, and one fails
with the connection after its caller has gone away. -/

def farewell : List CallAction :=
  [.register, .register, .complete ⟨2⟩ (.ok .hello), .register, .cancel ⟨1⟩,
   .complete ⟨1⟩ (.ok .hello), .receive ⟨2⟩, .drop ⟨3⟩,
   .failAll ⟨.closed, "connection closed", none⟩, .receive ⟨2⟩]

theorem orderly_farewell : registrations farewell < 2 ^ 64 - 1 ∧ Orderly farewell :=
  ⟨by decide, orderly_after (by decide)⟩

end PendingCalls

end Remoting

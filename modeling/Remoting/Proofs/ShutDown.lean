import Remoting.Proofs.Callers

/-!
# Remoting.Proofs.ShutDown

Calls on a connection that is shut down. A caller registers its call before it looks whether the
connection is closed, and a shut-down marks the connection as closed before it looks which calls are
pending. So a shut-down finds every pending call whose caller was let through (`Closing.Inv.left`).

When a shut-down has finished, whoever was let through has a call that is settled. What is still
pending belongs to callers that were not let through, and these give their calls up
(`Closing.settled_of_finished`).
-/

namespace Remoting

open Option

namespace Closing

/-- The number of the call of a caller. -/
def id? (s : Closing) (k : Nat) : Option CallId := s.callers[k]?.bind Caller.id?

end Closing

/-! ## What callers and shut-downs rely on -/

/-- The faults of callers that give their calls up. -/
def Caller.GivesUp (fault : Fault) : Prop :=
  fault = Connection.closedFault ∨ ∃ deadline, fault = Connection.timeoutFault deadline

/-- What can have become of a call whose caller stands here. Nobody ends before the call is
settled, and only its caller gives a call up, when it ends. -/
def Caller.Fits (state : CallState) : Caller → Prop
  | .ended _ response =>
    state ≠ .pending ∧ (state = .cancelled → ∃ fault, response = .error fault ∧ GivesUp fault)
  | .givingUp _ fault => state ≠ .cancelled ∧ GivesUp fault
  | _ => state ≠ .cancelled

theorem Caller.Fits.complete {c : Caller} (h : c.Fits .pending) (response : Response) :
    c.Fits (.completed response) := by
  cases c <;> simp_all [Fits]

namespace Closing

open PendingCalls

variable {Answers : CallId → Response → Prop} {s s' : Closing} {k n : Nat} {c c' : Caller}
  {d d' : Closer} {id : CallId} {connection : Connection} {q : PendingCalls} {entry : Entry}

/-- What is true at any time. `Answers` says which responses there can be to a call. -/
structure Inv (Answers : CallId → Response → Prop) (s : Closing) : Prop where
  numbered : s.connection.pending.Numbered
  sound : s.connection.pending.Sound fun _ _ => True
  /-- There are numbers for all callers that have not begun. -/
  few : s.connection.pending.calls.length + s.callers.countP Caller.isIdle < 2 ^ 64
  fits : ∀ (k : Nat) (c : Caller) id, s.callers[k]? = some c → c.id? = some id →
    ∃ state, s.connection.pending.state? id = some state ∧ c.Fits state
  /-- No two callers have the same call. -/
  own : ∀ j k id, s.id? j = some id → s.id? k = some id → j = k
  /-- A pending call has a caller. -/
  owned : ∀ id, s.connection.pending.state? id = some .pending → ∃ k, s.id? k = some id
  answers : ∀ id response, s.connection.pending.state? id = some (.completed response) →
    Answers id response
  marked : ∀ d ∈ s.closers, d.hasMarked = true → s.connection.closed = true
  reasons : ∀ d ∈ s.closers, ∀ reason id, d.reason? = some reason →
    Answers id (.error (Closer.fault reason))
  /-- A shut-down that has looked has found every pending call whose caller was let through. -/
  left : ∀ d ∈ s.closers, ∀ ids, d.left? = some ids → ∀ c ∈ s.callers, ∀ id, c.passed? = some id →
    s.connection.pending.state? id = some .pending → id ∈ ids

/-! ### Callers and calls -/

/-- A later state of a table to which no call was added and where the calls that were completed got
responses that there can be. -/
structure Settles (Answers : CallId → Response → Prop) (q q' : PendingCalls) : Prop where
  continues : q.Continues (fun _ _ => True) q'
  state : ∀ id state, q'.state? id = some state → q.state? id = some state ∨
    q.state? id = some .pending ∧ state ≠ .pending ∧
      ∀ response, state = .completed response → Answers id response

theorem Settles.refl (q : PendingCalls) : Settles Answers q q := ⟨.refl q, fun _ _ h => .inl h⟩

theorem settles_act {a : CallAction} (ha : a ≠ .register)
    (hcontinues : q.Continues (fun _ _ => True) (q.act a))
    (hanswers : ∀ id response, a.outcome id = some (.completed response) → Answers id response) :
    Settles Answers q (q.act a) := by
  refine ⟨hcontinues, fun id state hstate => ?_⟩
  rcases (state?_act_eq_some_iff ha).mp hstate with ⟨hstate, -⟩ | ⟨hpending, houtcome⟩
  · exact .inl hstate
  · refine .inr ⟨hpending, ?_, ?_⟩
    · rintro rfl
      simpa [CallState.isPending] using CallAction.outcome_ne_pending houtcome
    · rintro response rfl
      exact hanswers id response houtcome

/-- Calls are settled and callers go on. Nobody is let through once the connection is closed, so
that shut-downs have no more calls to fail than before. -/
theorem Inv.change (h : Inv Answers s) {callers : List Caller}
    (hq : Settles Answers s.connection.pending q)
    (hids : ∀ j : Nat, callers[j]?.bind Caller.id? = s.id? j)
    (hidle : callers.countP Caller.isIdle ≤ s.callers.countP Caller.isIdle)
    (hfits : ∀ (j : Nat) (c : Caller) id, callers[j]? = some c → c.id? = some id →
      ∃ state, q.state? id = some state ∧ c.Fits state)
    (hpassed : ∀ c ∈ callers, ∀ id, c.passed? = some id →
      (∃ c ∈ s.callers, c.passed? = some id) ∨ s.connection.closed = false) :
    Inv Answers { s with connection := { s.connection with pending := q }, callers } := by
  have hpending (id : CallId) (hid : q.state? id = some .pending) :
      s.connection.pending.state? id = some .pending := by
    rcases hq.state id _ hid with hid | ⟨hid, -⟩ <;> exact hid
  constructor
  case numbered => exact hq.continues.numbered h.numbered
  case sound => exact hq.continues.sound h.sound
  case few =>
    have hlength : q.calls.length = s.connection.pending.calls.length := by
      simpa using congrArg List.length hq.continues.calls
    have hfew := h.few
    simp only
    omega
  case fits => exact hfits
  case own =>
    intro i j id hi hj
    exact h.own i j id ((hids i).symm.trans hi) ((hids j).symm.trans hj)
  case owned =>
    intro id hid
    obtain ⟨j, hj⟩ := h.owned id (hpending id hid)
    exact ⟨j, (hids j).trans hj⟩
  case answers =>
    intro id response hid
    rcases hq.state id _ hid with hid | ⟨-, -, hanswers⟩
    · exact h.answers id response hid
    · exact hanswers response rfl
  case marked => exact h.marked
  case reasons => exact h.reasons
  case left =>
    intro d hd ids hleft c hc id hid hstate
    rcases hpassed c hc id hid with ⟨c', hc', hid'⟩ | hopen
    · exact h.left d hd ids hleft c' hc' id hid' (hpending id hstate)
    · -- a shut-down that has looked has marked the connection before
      have hmarked : d.hasMarked = true := by cases d <;> simp_all [Closer.left?, Closer.hasMarked]
      rw [h.marked d hd hmarked] at hopen
      contradiction

/-- A call is completed, or looked for. -/
theorem Inv.settle (h : Inv Answers s) {a : CallAction} (ha : a ≠ .register)
    (hcontinues : s.connection.pending.Continues (fun _ _ => True) (s.connection.pending.act a))
    (hcancel : ∀ id, a.outcome id ≠ some .cancelled)
    (hanswers : ∀ id response, a.outcome id = some (.completed response) → Answers id response) :
    Inv Answers { s with
      connection := { s.connection with pending := s.connection.pending.act a } } := by
  refine h.change (settles_act ha hcontinues hanswers) (fun _ => rfl) le_rfl ?_
    fun c hc id hid => .inl ⟨c, hc, hid⟩
  intro k c id hk hid
  obtain ⟨state, hstate, hfits⟩ := h.fits k c id hk hid
  cases hoccurs : a.outcome id with
  | none => exact ⟨state, (state?_act_eq_some_iff ha).mpr (.inl ⟨hstate, fun _ => hoccurs⟩), hfits⟩
  | some state' =>
    by_cases hsettled : state.isPending = true
    · obtain rfl := isPending_iff.mp hsettled
      refine ⟨state', (state?_act_eq_some_iff ha).mpr (.inr ⟨hstate, hoccurs⟩), ?_⟩
      cases state' with
      | pending => exact hfits
      | completed response => exact hfits.complete response
      | cancelled => exact absurd hoccurs (hcancel id)
    · exact ⟨state, state?_act_of_settled (by simpa using hsettled) hstate, hfits⟩

/-- A call gets a response that there can be. -/
theorem Inv.complete (h : Inv Answers s) {response : Response} (hanswers : Answers id response) :
    Inv Answers { s with connection := s.connection.complete id response } := by
  refine h.settle (a := .complete id response) (by simp)
    (continues_complete _ id fun _ _ => trivial) (fun id' => ?_) fun id' response' => ?_
  · simp [CallAction.outcome]
  · simp only [CallAction.outcome, ite_none_right_eq_some, some.injEq,
      CallState.completed.injEq]
    rintro ⟨rfl, rfl⟩
    exact hanswers

theorem getElem?_set_eq_some_iff (hk : s.callers[k]? = some c) {j : Nat} {e : Caller} :
    (s.callers.set k c')[j]? = some e ↔
      (k = j ∧ c' = e) ∨ (k ≠ j ∧ s.callers[j]? = some e) := by
  have hlt : k < s.callers.length := (List.getElem?_eq_some_iff.mp hk).1
  rw [List.getElem?_set]
  split <;> simp_all

theorem id?_set (hk : s.callers[k]? = some c) (hid : c'.id? = c.id?) (j : Nat) :
    (s.callers.set k c')[j]?.bind Caller.id? = s.id? j := by
  refine ext fun id => ?_
  simp only [id?, bind_eq_some_iff, getElem?_set_eq_some_iff hk]
  grind

theorem countP_isIdle_set (hk : s.callers[k]? = some c) (hidle : c'.isIdle = false) :
    (s.callers.set k c').countP Caller.isIdle ≤ s.callers.countP Caller.isIdle := by
  rw [List.countP_set (List.getElem?_eq_some_iff.mp hk).1, hidle]
  simp

/-- A caller goes on and leaves the table alone. -/
theorem Inv.moveCaller (h : Inv Answers s) (hk : s.callers[k]? = some c) (hid : c'.id? = c.id?)
    (hidle : c'.isIdle = false)
    (hfits : ∀ id state, c.id? = some id → s.connection.pending.state? id = some state →
      c.Fits state → c'.Fits state)
    (hpassed : ∀ id, c'.passed? = some id → c.passed? = some id ∨ s.connection.closed = false) :
    Inv Answers { s with callers := s.callers.set k c' } := by
  refine h.change (.refl _) (id?_set hk hid) (countP_isIdle_set hk hidle) ?_ ?_
  · intro j e id hj he
    rcases (getElem?_set_eq_some_iff hk).mp hj with ⟨rfl, rfl⟩ | ⟨-, hj⟩
    · rw [hid] at he
      obtain ⟨state, hstate, hc⟩ := h.fits k c id hk he
      exact ⟨state, hstate, hfits id state he hstate hc⟩
    · exact h.fits j e id hj he
  · intro e he id hpass
    rcases List.mem_or_eq_of_mem_set he with he | rfl
    · exact .inl ⟨e, he, hpass⟩
    · exact (hpassed id hpass).imp_left fun hc => ⟨c, List.mem_of_getElem? hk, hc⟩

/-- A caller gives its call up and ends. -/
theorem Inv.giveUp (h : Inv Answers s) (hk : s.callers[k]? = some c) (hid : c.id? = some id)
    {fault : Fault} (hfault : Caller.GivesUp fault) :
    Inv Answers { s with
      connection := s.connection.cancel id
      callers := s.callers.set k (.ended (some id) (.error fault)) } := by
  have hcancel : CallAction.cancel id ≠ .register := by simp
  have hq : Settles Answers s.connection.pending (s.connection.pending.act (.cancel id)) :=
    settles_act hcancel (continues_cancel _ id) (by simp [CallAction.outcome])
  refine h.change hq (id?_set hk hid.symm) (countP_isIdle_set hk rfl) ?_ ?_
  · intro j e id' hj he
    rcases (getElem?_set_eq_some_iff hk).mp hj with ⟨rfl, rfl⟩ | ⟨hne, hj⟩
    · obtain rfl : id = id' := some.inj he
      obtain ⟨state, hstate, -⟩ := h.fits k c id hk hid
      by_cases hsettled : state.isPending = true
      · obtain rfl := isPending_iff.mp hsettled
        refine ⟨.cancelled, (state?_act_eq_some_iff hcancel).mpr (.inr ⟨hstate, ?_⟩), ?_⟩
        · simp [CallAction.outcome]
        · exact ⟨by simp, fun _ => ⟨fault, rfl, hfault⟩⟩
      · have hstays := state?_act_of_settled (a := .cancel id) (by simpa using hsettled) hstate
        refine ⟨state, hstays, ?_, fun _ => ⟨fault, rfl, hfault⟩⟩
        rintro rfl
        exact hsettled rfl
    · -- the call of another caller is another one
      have hother : id ≠ id' := by
        rintro rfl
        exact hne (h.own k j id (by simp [id?, hk, hid]) (by simp [id?, hj, he]))
      obtain ⟨state, hstate, hfits⟩ := h.fits j e id' hj he
      refine ⟨state, (state?_act_eq_some_iff hcancel).mpr (.inl ⟨hstate, fun _ => ?_⟩), hfits⟩
      simp [CallAction.outcome, hother]
  · intro e he id' hpass
    rcases List.mem_or_eq_of_mem_set he with he | rfl
    · exact .inl ⟨e, he, hpass⟩
    · contradiction

/-- A caller registers its call, which is a new one. -/
theorem Inv.register (h : Inv Answers s) {frame : Frame} {deadline : Nat}
    (hk : s.callers[k]? = some (.idle frame deadline)) (frame' : Frame) :
    Inv Answers { s with
      connection := { s.connection with pending := s.connection.pending.register.2 }
      callers :=
        s.callers.set k (.registered s.connection.pending.register.1 frame' deadline) } := by
  have hlt := (List.getElem?_eq_some_iff.mp hk).1
  have hget : s.callers[k] = .idle frame deadline := (List.getElem?_eq_some_iff.mp hk).2
  have hpositive : 0 < s.callers.countP Caller.isIdle :=
    List.countP_pos_iff.mpr ⟨_, List.mem_of_getElem? hk, rfl⟩
  have hfew := h.few
  have hfresh := h.numbered.find?_next (by omega)
  have hstate (id : CallId) (state : CallState) :
      s.connection.pending.register.2.state? id = some state ↔
        (state = .pending ∧ s.connection.pending.register.1 = id) ∨
          s.connection.pending.state? id = some state := state?_register_eq_some_iff hfresh
  have hids (j : Nat) (id : CallId) :
      (s.callers.set k (.registered s.connection.pending.register.1 frame' deadline))[j]?.bind
          Caller.id? = some id ↔
        (k = j ∧ s.connection.pending.register.1 = id) ∨ (k ≠ j ∧ s.id? j = some id) := by
    simp only [id?, bind_eq_some_iff, getElem?_set_eq_some_iff hk]
    grind [Caller.id?]
  -- nobody has the new number, since the table knows the number of every caller
  have hunknown : ∀ j : Nat, s.id? j ≠ some s.connection.pending.register.1 := by
    intro j hj
    obtain ⟨e, he, hid⟩ := bind_eq_some_iff.mp hj
    obtain ⟨state, hknown, -⟩ := h.fits j e _ he hid
    simp [state?, hfresh] at hknown
  constructor
  case numbered => exact h.numbered.register
  case sound => exact h.sound.register
  case few =>
    simp only [List.countP_set hlt, hget]
    simp [Caller.isIdle, PendingCalls.register]
    omega
  case fits =>
    intro j e id hj he
    rcases (getElem?_set_eq_some_iff hk).mp hj with ⟨rfl, rfl⟩ | ⟨-, hj⟩
    · exact ⟨.pending, (hstate id _).mpr (.inl ⟨rfl, some.inj he⟩), by simp [Caller.Fits]⟩
    · obtain ⟨state, hknown, hfits⟩ := h.fits j e id hj he
      exact ⟨state, (hstate id _).mpr (.inr hknown), hfits⟩
  case own =>
    intro i j id hi hj
    rcases (hids i id).mp hi with ⟨rfl, rfl⟩ | ⟨-, hi⟩ <;>
      rcases (hids j _).mp hj with ⟨rfl, hid⟩ | ⟨-, hj⟩
    · rfl
    · exact absurd hj (hunknown j)
    · exact absurd (hid ▸ hi) (hunknown i)
    · exact h.own i j id hi hj
  case owned =>
    intro id hid
    rcases (hstate id _).mp hid with ⟨-, hid⟩ | hid
    · exact ⟨k, (hids k id).mpr (.inl ⟨rfl, hid⟩)⟩
    · obtain ⟨j, hj⟩ := h.owned id hid
      refine ⟨j, (hids j id).mpr (.inr ⟨?_, hj⟩)⟩
      rintro rfl
      simp [id?, hk, Caller.id?] at hj
  case answers =>
    intro id response hid
    rcases (hstate id _).mp hid with ⟨hid, -⟩ | hid
    · contradiction
    · exact h.answers id response hid
  case marked => exact h.marked
  case reasons => exact h.reasons
  case left =>
    intro d hd ids hleft e he id hpass hid
    rcases List.mem_or_eq_of_mem_set he with he | rfl
    · -- somebody who was let through has a call already
      obtain ⟨j, hj⟩ := List.mem_iff_getElem?.mp he
      have hknown : e.id? = some id := by cases e <;> simp_all [Caller.passed?, Caller.id?]
      rcases (hstate id _).mp hid with ⟨-, rfl⟩ | hid
      · exact absurd (by simp [id?, hj, hknown]) (hunknown j)
      · exact h.left d hd ids hleft e he id hpass hid
    · contradiction

/-- A caller that waits and goes on has a call that is settled. -/
theorem Inv.not_pending_of_receive (h : Inv Answers s) {state : CallState}
    (hreceive : (s.connection.pending.receive id).1 ≠ .empty)
    (hstate : s.connection.pending.state? id = some state) : state ≠ .pending := by
  rintro rfl
  obtain ⟨call, hcall, hpending⟩ := map_eq_some_iff.mp hstate
  have hcontains := contains_of_receive h.sound hreceive
  rw [contains, hcall] at hcontains
  simp [hpending, CallState.isPending] at hcontains

/-- Callers keep the invariant. -/
theorem Inv.stepCaller (h : Inv Answers s) (hk : s.callers[k]? = some c)
    (hc : c.step s.connection entry = some (c', connection)) :
    Inv Answers { s with connection, callers := s.callers.set k c' } := by
  cases c with
  | idle frame deadline =>
    simp only [Caller.step, Connection.enroll] at hc
    by_cases hexpects : frame.header.kind.expectsResponse = true
    · simp only [hexpects, if_true, some.injEq, Prod.mk.injEq] at hc
      obtain ⟨rfl, rfl⟩ := hc
      exact h.register hk _
    · simp only [hexpects, Bool.false_eq_true, if_false, some.injEq, Prod.mk.injEq] at hc
      obtain ⟨rfl, rfl⟩ := hc
      exact h.moveCaller hk rfl rfl (by simp [Caller.id?]) (by simp [Caller.passed?])
  | registered id frame deadline =>
    simp only [Caller.step, some.injEq, Prod.mk.injEq] at hc
    obtain ⟨rfl, rfl⟩ := hc
    cases hclosed : s.connection.closed with
    | true =>
      exact h.moveCaller hk rfl rfl (fun _ _ _ _ hfits => hfits) (by simp [Caller.passed?])
    | false => exact h.moveCaller hk rfl rfl (fun _ _ _ _ hfits => hfits) fun _ _ => .inr hclosed
  | turnedAway id =>
    simp only [Caller.step, some.injEq, Prod.mk.injEq] at hc
    obtain ⟨rfl, rfl⟩ := hc
    exact h.giveUp hk rfl (.inl rfl)
  | admitted id frame deadline =>
    cases entry with
    | queued => contradiction
    | entered =>
      simp only [Caller.step, some.injEq, Prod.mk.injEq] at hc
      obtain ⟨rfl, rfl⟩ := hc
      exact h.moveCaller hk rfl rfl (fun _ _ _ _ hfits => hfits) fun _ => .inl
    | refused =>
      simp only [Caller.step, some.injEq, Prod.mk.injEq] at hc
      obtain ⟨rfl, rfl⟩ := hc
      exact h.moveCaller hk rfl rfl (fun _ _ _ _ hfits => ⟨hfits, .inl rfl⟩) fun _ => .inl
  | waiting id deadline =>
    rw [Caller.step] at hc
    -- a call whose caller waits is not given up, so it is completed when there is an answer
    have hends (response : Response) (id' : CallId) (state : CallState)
        (hreceive : (s.connection.pending.receive id).1 ≠ .empty) (hid : some id = some id')
        (hstate : s.connection.pending.state? id' = some state) (hfits : state ≠ .cancelled) :
        (Caller.ended (some id) response).Fits state := by
      cases hid
      exact ⟨h.not_pending_of_receive hreceive hstate, fun hcancelled => absurd hcancelled hfits⟩
    cases hreceive : s.connection.pending.receive id with
    | mk received pending =>
      rw [hreceive] at hc hends
      cases received with
      | empty => contradiction
      | response response =>
        simp only [some.injEq, Prod.mk.injEq] at hc
        obtain ⟨rfl, rfl⟩ := hc
        have hreceived : s.connection.pending.act (.receive id) = pending :=
          congrArg Prod.snd hreceive
        have hlooked := h.settle (a := .receive id) (by simp) (continues_receive _ id)
          (by simp [CallAction.outcome]) (by simp [CallAction.outcome])
        rw [hreceived] at hlooked
        refine hlooked.moveCaller hk rfl rfl (fun id' state hid hstate hfits => ?_)
          (by simp [Caller.passed?])
        have hbefore : s.connection.pending.state? id' = some state := by
          rw [← hreceived] at hstate
          simpa [state?_act_eq_some_iff, CallAction.outcome] using hstate
        exact hends response id' state (by simp) hid hbefore hfits
      | closed | noReceiver =>
        simp only [some.injEq, Prod.mk.injEq] at hc
        obtain ⟨rfl, rfl⟩ := hc
        exact h.moveCaller hk rfl rfl
          (fun id' state hid hstate hfits => hends _ id' state (by simp) hid hstate hfits)
          (by simp [Caller.passed?])
  | givingUp id fault =>
    simp only [Caller.step, some.injEq, Prod.mk.injEq] at hc
    obtain ⟨rfl, rfl⟩ := hc
    obtain ⟨state, -, hfits⟩ := h.fits k _ id hk rfl
    exact h.giveUp hk rfl hfits.2
  | ended call response => contradiction

/-! ### Shut-downs -/

/-- A shut-down goes on and leaves the table alone. -/
theorem Inv.moveCloser (h : Inv Answers s) (hk : s.closers[k]? = some d)
    (hmarked : d'.hasMarked = true → s.connection.closed = true)
    (hreason : ∀ reason, d'.reason? = some reason → d.reason? = some reason)
    (hleft : ∀ ids, d'.left? = some ids → ∀ c ∈ s.callers, ∀ id, c.passed? = some id →
      s.connection.pending.state? id = some .pending → id ∈ ids) :
    Inv Answers { s with closers := s.closers.set k d' } := by
  have hmem : d ∈ s.closers := List.mem_of_getElem? hk
  refine { h with marked := ?_, reasons := ?_, left := ?_ } <;> intro e he
  all_goals rcases List.mem_or_eq_of_mem_set he with he | rfl
  · exact h.marked e he
  · exact hmarked
  · exact h.reasons e he
  · exact fun reason id hid => h.reasons d hmem reason id (hreason reason hid)
  · exact h.left e he
  · exact hleft

theorem mem_pendingIds (h : q.state? id = some .pending) :
    id ∈ q.pendingIds := by
  obtain ⟨call, hcall, hpending⟩ := map_eq_some_iff.mp h
  refine List.mem_map.mpr ⟨call, List.mem_filter.mpr ⟨List.mem_of_find?_eq_some hcall, ?_⟩,
    id_of_find? hcall⟩
  rw [hpending]
  rfl

/-- Who shuts down keeps the invariant. -/
theorem Inv.stepCloser (h : Inv Answers s) (hk : s.closers[k]? = some d)
    (hd : d.step s.connection = some (d', connection)) :
    Inv Answers { s with connection, closers := s.closers.set k d' } := by
  have hmem : d ∈ s.closers := List.mem_of_getElem? hk
  cases d with
  | idle reason =>
    cases hd
    have hclosed : Inv Answers { s with connection := { s.connection with closed := true } } :=
      { h with marked := fun _ _ _ => rfl }
    exact hclosed.moveCloser hk (fun _ => rfl) (fun _ => id) (by simp [Closer.left?])
  | marked reason =>
    cases hd
    refine h.moveCloser hk (fun _ => h.marked _ hmem rfl) (fun _ => id) ?_
    intro ids hids c hc id hid hpending
    cases hids
    exact mem_pendingIds hpending
  | failing reason ids =>
    have hmarked := h.marked _ hmem rfl
    cases ids with
    | nil =>
      cases hd
      exact h.moveCloser hk (fun _ => hmarked) (by simp [Closer.reason?])
        (h.left (.failing reason []) hmem)
    | cons first ids =>
      cases hd
      have hfailed := h.complete (h.reasons _ hmem reason first rfl)
      refine hfailed.moveCloser hk (fun _ => hmarked) (fun _ => id) ?_
      intro ids' hids c hc id hid hpending
      cases hids
      -- the call that was failed is not pending any more
      rcases List.mem_cons.mp (hfailed.left _ hmem _ rfl c hc id hid hpending) with rfl | hmem
      · have hact : (s.connection.pending.act
            (.complete id (.error (Closer.fault reason)))).state? id = some .pending := hpending
        simp [state?_act_eq_some_iff, CallAction.outcome] at hact
      · exact hmem
  | finished => contradiction

/-! ### Runs -/

/-- Every move keeps the invariant. -/
theorem Inv.step (h : Inv Answers s) {m : Move}
    (hm : ∀ id response, m = .respond id response → Answers id response)
    (hstep : s.step m = some s') : Inv Answers s' := by
  cases m with
  | caller k entry =>
    obtain ⟨c, hk, hstep⟩ := bind_eq_some_iff.mp hstep
    obtain ⟨⟨c', connection⟩, hc, hstep⟩ := bind_eq_some_iff.mp hstep
    cases hstep
    exact h.stepCaller hk hc
  | expire k =>
    obtain ⟨c, hk, hstep⟩ := bind_eq_some_iff.mp hstep
    obtain ⟨c', hc, hstep⟩ := bind_eq_some_iff.mp hstep
    cases hstep
    cases c with
    | waiting id deadline =>
      cases hc
      exact h.moveCaller hk rfl rfl (fun _ _ _ _ hfits => ⟨hfits, .inr ⟨deadline, rfl⟩⟩)
        fun _ => .inl
    | _ => contradiction
  | closer k =>
    obtain ⟨d, hk, hstep⟩ := bind_eq_some_iff.mp hstep
    obtain ⟨⟨d', connection⟩, hd, hstep⟩ := bind_eq_some_iff.mp hstep
    cases hstep
    exact h.stepCloser hk hd
  | respond id response =>
    cases hstep
    exact h.complete (hm id response rfl)

/-- So does every run. -/
theorem Inv.run (h : Inv Answers s) {moves : List Move}
    (hmoves : ∀ id response, .respond id response ∈ moves → Answers id response)
    (hrun : s.run moves = some s') : Inv Answers s' := by
  induction moves generalizing s with
  | nil =>
    cases hrun
    exact h
  | cons m moves ih =>
    obtain ⟨between, hstep, hrest⟩ := bind_eq_some_iff.mp hrun
    refine ih (h.step ?_ hstep) (fun id response hid => hmoves id response ?_) hrest
    · rintro id response rfl
      exact hmoves id response List.mem_cons_self
    · exact List.mem_cons_of_mem m hid

/-- The invariant holds at the beginning. -/
theorem inv_start (connection : ConnectionId) {calls : List (Frame × Nat)} {reasons : List String}
    (hcalls : calls.length < 2 ^ 64)
    (hreasons : ∀ reason ∈ reasons, ∀ id, Answers id (.error (Closer.fault reason))) :
    Inv Answers (start connection calls reasons) := by
  have hidle (c : Caller) (hc : c ∈ (start connection calls reasons).callers) :
      c.id? = none ∧ c.passed? = none := by
    obtain ⟨call, -, rfl⟩ := List.mem_map.mp hc
    exact ⟨rfl, rfl⟩
  have hnobody (k : Nat) : (start connection calls reasons).id? k = none := by
    rw [id?, bind_eq_none_iff]
    exact fun c hc => (hidle c (List.mem_of_getElem? hc)).1
  constructor
  case numbered => exact ⟨rfl, rfl⟩
  case sound => exact fun id call hcall => by simp [start, find?] at hcall
  case few =>
    have hcount := (start connection calls reasons).callers.countP_le_length (p := Caller.isIdle)
    simp only [start, List.length_map, List.length_nil] at hcount ⊢
    omega
  case fits =>
    intro k c id hk hid
    rw [(hidle c (List.mem_of_getElem? hk)).1] at hid
    contradiction
  case own =>
    intro j k id hj
    rw [hnobody] at hj
    contradiction
  case owned => exact fun id hid => by simp [start, state?, find?] at hid
  case answers => exact fun id response hid => by simp [start, state?, find?] at hid
  all_goals
    intro d hd
    obtain ⟨reason, hreason, rfl⟩ := List.mem_map.mp hd
  case marked => simp [Closer.hasMarked]
  case reasons =>
    intro reason' id hid
    cases hid
    exact hreasons reason hreason id
  case left => simp [Closer.left?]

/-! ## After a shut-down -/

theorem closed_stepCaller {connection' : Connection}
    (hc : c.step connection entry = some (c', connection')) :
    connection'.closed = connection.closed := by
  cases c <;> cases entry <;> grind [Caller.step, Connection.enroll, Connection.cancel]

theorem closed_stepCloser {connection' : Connection}
    (hd : d.step connection = some (d', connection')) (hclosed : connection.closed = true) :
    connection'.closed = true := by
  fun_cases Closer.step connection d <;> grind [Closer.step, Connection.complete]

/-- A caller of a closed connection that was not let through, and how many steps it has to go. -/
inductive Leaving (k : Nat) (id : CallId) (s : Closing) : Nat → Prop where
  | looks {frame : Frame} {deadline : Nat} (hclosed : s.connection.closed = true)
      (hk : s.callers[k]? = some (.registered id frame deadline)) : Leaving k id s 2
  | turns (hclosed : s.connection.closed = true)
      (hk : s.callers[k]? = some (.turnedAway id)) : Leaving k id s 1
  | left (hclosed : s.connection.closed = true)
      (hk : s.callers[k]? = some (.ended (some id) (.error Connection.closedFault))) :
      Leaving k id s 0

theorem Leaving.closed (h : Leaving k id s n) : s.connection.closed = true := by
  cases h <;> assumption

/-- What others do does not concern it. -/
theorem Leaving.congr (h : Leaving k id s n) (hclosed : s'.connection.closed = true)
    (hk : s'.callers[k]? = s.callers[k]?) : Leaving k id s' n := by
  cases h with
  | looks _ h => exact .looks hclosed (hk.trans h)
  | turns _ h => exact .turns hclosed (hk.trans h)
  | left _ h => exact .left hclosed (hk.trans h)

/-- A caller that leaves comes nearer to the end with each move of its own. -/
theorem Leaving.step (h : Leaving k id s n) {m : Move} (hstep : s.step m = some s') :
    ∃ n', Leaving k id s' n' ∧ n' + (if m.isOf k then 1 else 0) = n := by
  have hclosed := h.closed
  cases m with
  | caller j entry =>
    obtain ⟨c, hj, hstep⟩ := bind_eq_some_iff.mp hstep
    obtain ⟨⟨c', connection⟩, hc, hstep⟩ := bind_eq_some_iff.mp hstep
    cases hstep
    have hclosed' : connection.closed = true := (closed_stepCaller hc).trans hclosed
    by_cases hjk : j = k
    · subst hjk
      have hlt := (List.getElem?_eq_some_iff.mp hj).1
      cases h with
      | looks _ hk =>
        obtain rfl := some.inj (hj.symm.trans hk)
        cases hc
        exact ⟨1, .turns hclosed (by simp [hlt, hclosed]), by simp [Move.isOf]⟩
      | turns _ hk =>
        obtain rfl := some.inj (hj.symm.trans hk)
        cases hc
        exact ⟨0, .left hclosed' (by simp [hlt]), by simp [Move.isOf]⟩
      | left _ hk =>
        obtain rfl := some.inj (hj.symm.trans hk)
        contradiction
    · exact ⟨n, h.congr hclosed' (by simp [hjk]), by simp [Move.isOf, hjk]⟩
  | expire j =>
    obtain ⟨c, hj, hstep⟩ := bind_eq_some_iff.mp hstep
    obtain ⟨c', hc, hstep⟩ := bind_eq_some_iff.mp hstep
    cases hstep
    -- it does not wait
    have hjk : j ≠ k := by
      rintro rfl
      cases h with
      | looks _ hk | turns _ hk | left _ hk =>
        obtain rfl := some.inj (hj.symm.trans hk)
        contradiction
    exact ⟨n, h.congr hclosed (by simp [hjk]), rfl⟩
  | closer j =>
    obtain ⟨d, hj, hstep⟩ := bind_eq_some_iff.mp hstep
    obtain ⟨⟨d', connection⟩, hd, hstep⟩ := bind_eq_some_iff.mp hstep
    cases hstep
    exact ⟨n, h.congr (closed_stepCloser hd hclosed) rfl, rfl⟩
  | respond id' response =>
    cases hstep
    exact ⟨n, h.congr hclosed rfl, rfl⟩

/-- In a run it comes nearer by its own moves. -/
theorem Leaving.run (h : Leaving k id s n) {moves : List Move} (hrun : s.run moves = some s') :
    ∃ n', Leaving k id s' n' ∧ n' + moves.countP (·.isOf k) = n := by
  induction moves generalizing s n with
  | nil =>
    cases hrun
    exact ⟨n, h, rfl⟩
  | cons m moves ih =>
    obtain ⟨between, hstep, hrest⟩ := bind_eq_some_iff.mp hrun
    obtain ⟨n₁, h₁, hn₁⟩ := h.step hstep
    obtain ⟨n₂, h₂, hn₂⟩ := ih h₁ hrest
    refine ⟨n₂, h₂, ?_⟩
    rw [List.countP_cons]
    omega

/-- What is true when a shut-down has finished. -/
structure Settled (reasons : List String) (moves : List Move) (s : Closing) : Prop where
  /-- Whoever was let through, or has ended, has a call that is completed, with a response that came
  in or with the fault of a shut-down, or that it has given up itself. -/
  settled : ∀ c ∈ s.callers, ∀ id, c.passed? = some id ∨ (c.isEnded = true ∧ c.id? = some id) →
    (∃ response, s.connection.pending.state? id = some (.completed response) ∧
      (.respond id response ∈ moves ∨
        ∃ reason ∈ reasons, response = .error (Closer.fault reason))) ∨
    (s.connection.pending.state? id = some .cancelled ∧
      ∃ fault, c = .ended (some id) (.error fault) ∧ Caller.GivesUp fault)
  /-- The calls that are still pending are calls of others. -/
  pending : ∀ id, s.connection.pending.contains id = true →
    ∃ c ∈ s.callers, c.undecided? = some id
  /-- These fail with the next two steps of their callers, whatever happens in between, and are not
  pending then. -/
  fails : ∀ (k : Nat) (c : Caller) id, s.callers[k]? = some c → c.undecided? = some id →
    ∀ more s', s.run more = some s' →
      (more.countP (·.isOf k) < 2 ∧ ∃ c', s'.callers[k]? = some c' ∧ c'.undecided? = some id) ∨
      (s'.callers[k]? = some (.ended (some id) (.error Connection.closedFault)) ∧
        s'.connection.pending.contains id = false)
  /-- Nobody waits for a response: only a writer that has no room yet can keep a caller. -/
  free : ∀ (k : Nat) (c : Caller), s.callers[k]? = some c → c.isEnded = false →
    ∀ entry, entry ≠ .queued → (s.step (.caller k entry)).isSome

theorem contains_eq_true_iff :
    q.contains id = true ↔ q.state? id = some .pending := by
  rw [contains, state?]
  cases q.find? id with
  | none => simp
  | some call => simp [isPending_iff]

/-- Who has ended has a call that is settled. -/
theorem Inv.contains_of_ended (h : Inv Answers s) {response : Response}
    (hk : s.callers[k]? = some (.ended (some id) response)) :
    s.connection.pending.contains id = false := by
  obtain ⟨state, hstate, hsettled, -⟩ := h.fits k _ id hk rfl
  rw [← Bool.not_eq_true, contains_eq_true_iff, hstate, some.injEq]
  exact hsettled

/-- A caller that has not ended goes on, unless it waits for a call that is pending. -/
theorem isSome_stepCaller (hended : c.isEnded = false) (hentry : entry ≠ .queued)
    (hpassed : ∀ id, c.passed? = some id → connection.pending.contains id = false) :
    (c.step connection entry).isSome := by
  cases c with
  | idle frame deadline => grind [Caller.step]
  | registered id frame deadline | turnedAway id | givingUp id fault => rfl
  | admitted id frame deadline => cases entry <;> simp_all [Caller.step]
  | waiting id deadline =>
    have hsettled := hpassed id rfl
    rw [contains] at hsettled
    grind [Caller.step, receive, CallState.isPending]
  | ended call response => contradiction

/-- **Once a shut-down has finished, no call hangs.** -/
theorem settled_of_finished {connection : ConnectionId} {calls : List (Frame × Nat)}
    {reasons : List String} {moves : List Move} (hcalls : calls.length < 2 ^ 64)
    (hrun : (start connection calls reasons).run moves = some s)
    (hfinished : .finished ∈ s.closers) : s.Settled reasons moves := by
  have h : Inv (fun id response => .respond id response ∈ moves ∨
      ∃ reason ∈ reasons, response = .error (Closer.fault reason)) s :=
    (inv_start connection hcalls fun reason hreason _ => .inr ⟨reason, hreason, rfl⟩).run
      (fun _ _ => .inl) hrun
  have hlet (c : Caller) (hc : c ∈ s.callers) (id : CallId) (hid : c.passed? = some id) :
      s.connection.pending.state? id ≠ some .pending :=
    fun hpending => List.not_mem_nil (h.left .finished hfinished [] rfl c hc id hid hpending)
  constructor
  case settled =>
    intro c hc id hid
    have hknown : c.id? = some id := by
      cases c <;> simp_all [Caller.passed?, Caller.id?, Caller.isEnded]
    obtain ⟨k, hk⟩ := List.mem_iff_getElem?.mp hc
    obtain ⟨state, hstate, hfits⟩ := h.fits k c id hk hknown
    cases state with
    | pending =>
      rcases hid with hpassed | ⟨hended, -⟩
      · exact absurd hstate (hlet c hc id hpassed)
      · cases c <;> simp_all [Caller.isEnded, Caller.Fits]
    | completed response => exact .inl ⟨response, hstate, h.answers id response hstate⟩
    | cancelled =>
      refine .inr ⟨hstate, ?_⟩
      cases c <;> simp_all [Caller.Fits, Caller.id?]
  case pending =>
    intro id hid
    have hpending := contains_eq_true_iff.mp hid
    obtain ⟨k, hk⟩ := h.owned id hpending
    obtain ⟨c, hc, hknown⟩ := Option.bind_eq_some_iff.mp hk
    obtain ⟨state, hstate, hfits⟩ := h.fits k c id hc hknown
    obtain rfl := Option.some.inj (hpending.symm.trans hstate)
    have hmem : c ∈ s.callers := List.mem_of_getElem? hc
    refine ⟨c, hmem, ?_⟩
    have hwaits : c.passed? ≠ some id := fun hpassed => hlet c hmem id hpassed hpending
    cases c <;> simp_all [Caller.Fits, Caller.id?, Caller.passed?, Caller.undecided?]
  case fails =>
    intro k c id hk hid more s' hmore
    have hclosed := h.marked .finished hfinished rfl
    obtain ⟨n, hn, hleaving⟩ : ∃ n ≤ 2, Leaving k id s n := by
      cases c with
      | registered _ frame deadline =>
        obtain rfl := Option.some.inj hid
        exact ⟨2, le_rfl, .looks hclosed hk⟩
      | turnedAway _ =>
        obtain rfl := Option.some.inj hid
        exact ⟨1, by omega, .turns hclosed hk⟩
      | _ => contradiction
    have hlater : Inv (fun _ _ => True) s' :=
      ((inv_start connection hcalls fun _ _ _ => trivial).run (fun _ _ _ => trivial) hrun).run
        (fun _ _ _ => trivial) hmore
    obtain ⟨n', hleaving', hsteps⟩ := hleaving.run hmore
    cases hleaving' with
    | looks _ hk' | turns _ hk' => exact .inl ⟨by omega, _, hk', rfl⟩
    | left _ hk' => exact .inr ⟨hk', hlater.contains_of_ended hk'⟩
  case free =>
    intro k c hk hended entry hentry
    have hstep : (c.step s.connection entry).isSome := by
      refine isSome_stepCaller hended hentry fun id hid => ?_
      rw [← Bool.not_eq_true, contains_eq_true_iff]
      exact hlet c (List.mem_of_getElem? hk) id hid
    obtain ⟨next, hnext⟩ := Option.isSome_iff_exists.mp hstep
    simp [step, hk, hnext]

/-- Three callers and two shut-downs. The first caller is let through before the connection is
marked, and gets its response while the shut-down is failing calls. The second finds the connection
closed. The third registers its call when the shut-down has looked already. -/
def racing : List Move :=
  [.caller 0 .entered, .caller 0 .entered, .caller 1 .entered, .closer 0, .caller 0 .entered,
    .caller 1 .entered, .closer 0, .caller 2 .entered, .closer 1,
    .respond ⟨1⟩ (.ok { header := { kind := .callResult, callId := ⟨1⟩ } }), .closer 0, .closer 0,
    .closer 0]

theorem settled_of_finished_racing :
    ∃ s, (start ⟨7⟩ (List.replicate 3 ({ header := { kind := .twoWayCall } }, 100))
        ["closed locally", "send failed"]).run racing = some s ∧
      .finished ∈ s.closers ∧ s.connection.pending.pendingIds = [⟨3⟩] ∧
      s.Settled ["closed locally", "send failed"] racing := by
  obtain ⟨s, hrun, hfinished, hpending⟩ :
      ∃ s, (start ⟨7⟩ (List.replicate 3 ({ header := { kind := .twoWayCall } }, 100))
          ["closed locally", "send failed"]).run racing = some s ∧
        .finished ∈ s.closers ∧ s.connection.pending.pendingIds = [⟨3⟩] :=
    ⟨_, rfl, List.mem_cons_self, rfl⟩
  exact ⟨s, hrun, hfinished, hpending, settled_of_finished (by decide) hrun hfinished⟩

end Closing

end Remoting

import Remoting.Call.Connection
import Remoting.Proofs.BigEndian

/-!
# Remoting.Proofs.PendingTable

The table of calls of a connection over time. Numbers are handed out in order, so that fewer than
`2 ^ 64` calls have different numbers (`PendingCalls.nodup_numbering`). Nothing that is done with
the table, except registering a call, changes which calls there are, and a call that is settled
stays settled (`PendingCalls.Continues`).

What the table keeps can be trusted (`PendingCalls.Sound`): a response stands where its call is, and
nobody has stopped listening to a call that is still pending.
-/

namespace Remoting

variable {id : CallId}

/-- A call is in order when whoever called it listens as long as it is pending, and its response, if
there is one, is one that may be delivered. -/
structure RegisteredCall.Sound (Delivers : CallId → Frame → Prop) (id : CallId)
    (c : RegisteredCall) : Prop where
  heard : c.listening = false → c.state.isPending = false
  delivered : ∀ r, c.state = .completed (.ok r) → Delivers id r

namespace PendingCalls

variable {Delivers : CallId → Frame → Prop} {q q' : PendingCalls}
  {change : RegisteredCall → RegisteredCall}

/-- Every call of the table is in order. -/
def Sound (Delivers : CallId → Frame → Prop) (q : PendingCalls) : Prop :=
  ∀ id c, q.find? id = some c → c.Sound Delivers id

/-! ## Numbers -/

/-- The first numbers that are handed out. -/
def numbering (n : Nat) : List CallId := (List.range n).map fun k => ⟨UInt64.ofNat (k + 1)⟩

/-- The calls of a table have the first numbers, and the next one comes next. -/
structure Numbered (q : PendingCalls) : Prop where
  calls : q.calls.map (·.id) = numbering q.calls.length
  next : q.ids.next = UInt64.ofNat (q.calls.length + 1)

theorem nodup_numbering {n : Nat} (h : n < 2 ^ 64) : (numbering n).Nodup := by
  refine (List.nodup_range).map_on fun i hi j hj heq => ?_
  rw [List.mem_range] at hi hj
  have hnat := congrArg UInt64.toNat (CallId.mk.inj heq)
  rw [UInt64.toNat_ofNat', UInt64.toNat_ofNat', Nat.mod_eq_of_lt (by omega),
    Nat.mod_eq_of_lt (by omega)] at hnat
  omega

/-- The number of a new call comes after all others. -/
theorem Numbered.register (h : q.Numbered) : q.register.2.Numbered := by
  have hcalls : q.register.2.calls = q.calls ++ [{ id := q.register.1 }] := rfl
  have hlen : q.register.2.calls.length = q.calls.length + 1 := by simp [hcalls]
  constructor
  · rw [hlen, hcalls, List.map_append, h.calls, numbering, numbering, List.range_succ,
      List.map_append]
    have hid : q.register.1 = ⟨UInt64.ofNat (q.calls.length + 1)⟩ := by rw [← h.next]; rfl
    simp [hid]
  · have hnext : q.register.2.ids.next = q.ids.next + 1 := rfl
    rw [hlen, hnext, h.next]
    simp [UInt64.ofNat_add]

theorem Numbered.congr (h : q.Numbered) (hids : q'.ids = q.ids)
    (hcalls : q'.calls.map (·.id) = q.calls.map (·.id)) : q'.Numbered := by
  have hlen : q'.calls.length = q.calls.length := by
    simpa using congrArg List.length hcalls
  exact ⟨by rw [hcalls, hlen]; exact h.calls, by rw [hids, hlen]; exact h.next⟩

/-- As long as there are numbers, the next call gets a new one. -/
theorem Numbered.find?_next (h : q.Numbered) (hlen : q.calls.length + 1 < 2 ^ 64) :
    q.find? q.register.1 = none := by
  have hnodup := nodup_numbering hlen
  have hsplit : numbering (q.calls.length + 1) = numbering q.calls.length ++ [q.register.1] := by
    have hnext : q.register.1 = ⟨UInt64.ofNat (q.calls.length + 1)⟩ := congrArg CallId.mk h.next
    simp [numbering, List.range_succ, hnext]
  rw [hsplit, ← h.calls] at hnodup
  have hnot : q.register.1 ∉ q.calls.map (·.id) := by
    have hdisjoint := List.disjoint_of_nodup_append hnodup
    exact fun hmem => hdisjoint hmem (List.mem_singleton_self _)
  rw [find?, List.find?_eq_none]
  intro c hc heq
  exact hnot (List.mem_map.mpr ⟨c, hc, by simpa using heq⟩)

/-! ## Changes -/

/-- A later state of a table to which no call was added. -/
structure Continues (Delivers : CallId → Frame → Prop) (q q' : PendingCalls) : Prop where
  ids : q'.ids = q.ids
  calls : q'.calls.map (·.id) = q.calls.map (·.id)
  settled : ∀ id, q.contains id = false → q'.contains id = false
  sound : q.Sound Delivers → q'.Sound Delivers

theorem Continues.refl (q : PendingCalls) : q.Continues Delivers q :=
  ⟨rfl, rfl, fun _ h => h, fun h => h⟩

theorem Continues.numbered (h : q.Continues Delivers q') (hq : q.Numbered) :
    q'.Numbered := hq.congr h.ids h.calls

/-- A change of every call that keeps the numbers is found again under each number. -/
theorem find?_map (q : PendingCalls) (hid : ∀ c, (change c).id = c.id) (id : CallId) :
    find? { q with calls := q.calls.map change } id = (q.find? id).map change := by
  simp only [find?, List.find?_map]
  congr 2
  funext c
  simp [hid]

/-- A change of every call continues the table when it revives no call and keeps calls in order. -/
theorem continues_map (q : PendingCalls) (hid : ∀ c, (change c).id = c.id)
    (hstate : ∀ c, c.state.isPending = false → (change c).state.isPending = false)
    (hsound : ∀ id c, q.find? id = some c → c.Sound Delivers id → (change c).Sound Delivers id) :
    q.Continues Delivers { q with calls := q.calls.map change } := by
  refine ⟨rfl, by simp [Function.comp_def, hid], fun id h => ?_, fun h id c hc => ?_⟩
  · rw [contains, find?_map q hid]
    rw [contains] at h
    cases hfind : q.find? id with
    | none => rfl
    | some c =>
      rw [hfind] at h
      exact hstate c h
  · rw [find?_map q hid] at hc
    obtain ⟨c', hc', rfl⟩ := Option.map_eq_some_iff.mp hc
    exact hsound id c' hc' (h id c' hc')

theorem id_of_find? {c : RegisteredCall} (h : q.find? id = some c) : c.id = id := by
  simpa using List.find?_some h

/-- A change of the call of one number. -/
theorem continues_update (q : PendingCalls) (id : CallId) (hid : ∀ c, (change c).id = c.id)
    (hstate : ∀ c, c.state.isPending = false → (change c).state.isPending = false)
    (hsound : ∀ c, q.find? id = some c → c.Sound Delivers id → (change c).Sound Delivers id) :
    q.Continues Delivers (q.update id change) := by
  refine continues_map q (fun c => ?_) (fun c hc => ?_) fun id' c hfind hc => ?_
  · split
    · exact hid c
    · rfl
  · split
    · exact hstate c hc
    · exact hc
  · split
    · next heq =>
      obtain rfl : id' = id := (id_of_find? hfind).symm.trans heq
      exact hsound c hfind hc
    · exact hc

theorem continues_complete (q : PendingCalls) (id : CallId) {response : Response}
    (h : ∀ r, response = .ok r → Delivers id r) :
    q.Continues Delivers (q.complete id response).2 := by
  unfold complete
  split
  · exact .refl q
  · split
    · refine continues_update q id (fun _ => rfl) (fun _ _ => rfl) fun c _ _ => ⟨fun _ => rfl, ?_⟩
      intro r hr
      exact h r (CallState.completed.inj hr)
    · exact .refl q

theorem continues_cancel (q : PendingCalls) (id : CallId) :
    q.Continues Delivers (q.cancel id).2 := by
  unfold cancel
  split
  · exact continues_update q id (fun _ => rfl) (fun _ _ => rfl) fun c _ _ => ⟨fun _ => rfl, by simp⟩
  · exact .refl q

theorem continues_failAll (q : PendingCalls) (fault : Fault) :
    q.Continues Delivers (q.failAll fault).2 := by
  refine continues_map q (fun c => ?_) (fun c hc => ?_) fun id c _ hc => ?_
  · split <;> rfl
  · rw [if_neg (by simp [hc])]
    exact hc
  · split
    · exact ⟨fun _ => rfl, by simp⟩
    · exact hc

theorem continues_receive (q : PendingCalls) (id : CallId) :
    q.Continues Delivers (q.receive id).2 := by
  unfold receive
  split
  · exact .refl q
  · next c hfind =>
    split
    · split
      · exact .refl q
      · exact .refl q
      · next response hstate =>
        refine continues_update q id (fun _ => rfl) (fun _ h => h) fun c' hfind' hc' => ?_
        obtain rfl : c = c' := Option.some.inj (hfind.symm.trans hfind')
        exact ⟨fun _ => by rw [hstate]; rfl, hc'.delivered⟩
    · exact .refl q

/-! ## New calls -/

theorem find?_register (q : PendingCalls) (id : CallId) :
    q.register.2.find? id =
      (q.find? id).or (if q.register.1 = id then some { id := q.register.1 } else none) := by
  have hcalls : q.register.2.calls = q.calls ++ [{ id := q.register.1 }] := rfl
  rw [find?, hcalls, List.find?_append]
  simp [find?, List.find?_cons]
  split <;> simp_all

theorem Sound.register (h : q.Sound Delivers) :
    q.register.2.Sound Delivers := by
  intro id c hc
  rw [find?_register] at hc
  cases hfind : q.find? id with
  | some c' =>
    rw [hfind, Option.some_or] at hc
    obtain rfl := Option.some.inj hc
    exact h id c' hfind
  | none =>
    rw [hfind, Option.none_or] at hc
    split at hc
    · obtain rfl := Option.some.inj hc
      exact ⟨by simp, by simp⟩
    · contradiction

/-- A new call changes nothing about those that there are. -/
theorem contains_register_of_mem (h : id ∈ q.calls.map (·.id)) :
    q.register.2.contains id = q.contains id := by
  obtain ⟨c, hc, rfl⟩ := List.mem_map.mp h
  have hsome : (q.find? c.id).isSome := by
    rw [find?, List.find?_isSome]
    exact ⟨c, hc, by simp⟩
  obtain ⟨c', hc'⟩ := Option.isSome_iff_exists.mp hsome
  rw [contains, contains, find?_register, hc', Option.some_or]

/-! ## Answers -/

/-- Who got a response got one that may be delivered. -/
theorem delivers_of_receive {r : Frame} (h : q.Sound Delivers)
    (hreceive : (q.receive id).1 = .response (.ok r)) : Delivers id r := by
  unfold receive at hreceive
  split at hreceive
  · contradiction
  · next c hfind =>
    split at hreceive
    · split at hreceive
      · contradiction
      · contradiction
      · next response hstate =>
        obtain rfl := Received.response.inj hreceive
        exact (h id c hfind).delivered r hstate
    · contradiction

/-- Who got any answer does not wait for a pending call. -/
theorem contains_of_receive (h : q.Sound Delivers) (hreceive : (q.receive id).1 ≠ .empty) :
    q.contains id = false := by
  unfold receive at hreceive
  unfold contains
  split at hreceive
  · next hfind => rw [hfind]
  · next c hfind =>
    rw [hfind]
    simp only
    split at hreceive
    · split at hreceive
      · contradiction
      · next hstate => rw [hstate]; rfl
      · next response hstate => rw [hstate]; rfl
    · next hlistening => exact (h id c hfind).heard (by simpa using hlistening)

theorem contains_cancel_self (q : PendingCalls) (id : CallId) :
    (q.cancel id).2.contains id = false := by
  unfold cancel
  split
  · next hcontains =>
    rw [contains, update, find?_map q (fun c => by split <;> rfl)]
    cases hfind : q.find? id with
    | none => rfl
    | some c => simp [id_of_find? hfind, CallState.isPending]
  · next hcontains => simpa using hcontains

/-- The response to a call that is pending is kept for whoever waits for it. -/
theorem find?_complete (h : q.find? id = some { id }) (response : Response) :
    (q.complete id response).2.find? id = some { id, state := .completed response } := by
  have hcomplete : (q.complete id response).2 =
      q.update id fun c => { c with state := .completed response } := by
    simp [complete, h, CallState.isPending]
  rw [hcomplete, update, find?_map q (fun c => by split <;> rfl), h]
  simp

/-- Nobody gets a response to a call that is not pending. -/
theorem complete_of_not_contains (h : q.contains id = false) (response : Response) :
    q.complete id response = (false, q) := by
  unfold complete
  unfold contains at h
  split
  · rfl
  · next c hfind =>
    rw [hfind] at h
    simp only at h
    rw [if_neg (by simp [h])]

end PendingCalls

/-! ## Connections -/

/-- The header of a message that has come in, damaged or not. -/
def headerOf : Except MalformedFrame Frame → Header
  | .ok frame => frame.header
  | .error damaged => damaged.header

namespace Connection

variable {Delivers : CallId → Frame → Prop} {message : Except MalformedFrame Frame} {c : Connection}

/-- A later state of a connection on which no call was made. -/
structure Continues (Delivers : CallId → Frame → Prop) (c c' : Connection) : Prop where
  id : c'.id = c.id
  pending : c.pending.Continues Delivers c'.pending

theorem continues_shutDown (c : Connection) (reason : String) :
    c.Continues Delivers (c.shutDown reason) := ⟨rfl, c.pending.continues_failAll _⟩

theorem continues_cancel (c : Connection) (id : CallId) : c.Continues Delivers (c.cancel id) :=
  ⟨rfl, c.pending.continues_cancel id⟩

theorem continues_complete (c : Connection) (id : CallId) {response : Response}
    (h : ∀ r, response = .ok r → Delivers id r) :
    c.Continues Delivers (c.complete id response) := ⟨rfl, c.pending.continues_complete id h⟩

/-- A message that comes in adds no call. -/
theorem continues_accept (c : Connection)
    (h : ∀ r, message = .ok r → r.header.kind.isResponse = true → Delivers r.header.callId r) :
    c.Continues Delivers (c.accept message).2 := by
  cases message with
  | ok frame =>
    simp only [accept]
    split
    · next hresponse =>
      refine c.continues_complete _ fun r hr => ?_
      cases hr
      exact h frame rfl hresponse
    · exact ⟨rfl, .refl _⟩
  | error damaged =>
    simp only [accept]
    split
    · exact c.continues_complete _ (by simp)
    · split <;> exact ⟨rfl, .refl _⟩

/-- A message is handed on if it is no response. -/
theorem eq_ok_of_accept_deliver {f : Frame} (h : (c.accept message).1 = .deliver f) :
    message = .ok f := by
  cases message with
  | ok frame =>
    simp only [accept] at h
    split at h
    · contradiction
    · rw [Intake.deliver.inj h]
  | error damaged =>
    simp only [accept] at h
    split at h
    · contradiction
    · split at h <;> contradiction

/-- What is sent back at once refuses a damaged request. -/
theorem eq_error_of_accept_reply {f : Frame} (h : (c.accept message).1 = .reply f) :
    ∃ damaged, message = .error damaged ∧ damaged.header.kind.expectsResponse = true ∧
      f = c.stamp (.errorFor damaged.header damaged.error.toFault) := by
  cases message with
  | ok frame =>
    simp only [accept] at h
    split at h <;> contradiction
  | error damaged =>
    simp only [accept] at h
    split at h
    · contradiction
    · split at h
      · next hexpects => exact ⟨damaged, rfl, hexpects, (Intake.reply.inj h).symm⟩
      · contradiction

/-- A response to a call that is not pending changes nothing. -/
theorem accept_of_not_contains (hresponse : (headerOf message).kind.isResponse = true)
    (h : c.pending.contains (headerOf message).callId = false) :
    c.accept message = (.done, c) := by
  cases message with
  | ok frame =>
    simp only [headerOf] at hresponse h
    simp only [accept, hresponse, complete, PendingCalls.complete_of_not_contains h, if_true]
  | error damaged =>
    simp only [headerOf] at hresponse h
    simp only [accept, hresponse, complete, PendingCalls.complete_of_not_contains h, if_true]

/-- A call is enrolled if its request expects a response. -/
theorem enroll_eq_ok {c' : Connection} {frame request : Frame}
    (h : c.enroll frame = .ok (id, request, c')) :
    frame.header.kind.expectsResponse = true ∧ id = c.pending.register.1 ∧
      request = { frame with header := { frame.header with callId := id } } ∧
      c' = { c with pending := c.pending.register.2 } := by
  unfold enroll at h
  split at h
  · next hexpects =>
    simp only [Except.ok.injEq, Prod.mk.injEq] at h
    obtain ⟨rfl, rfl, rfl⟩ := h
    exact ⟨hexpects, rfl, rfl, rfl⟩
  · contradiction

end Connection

end Remoting

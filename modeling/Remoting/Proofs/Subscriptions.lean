import Remoting.Proofs.Footprints

/-!
# Remoting.Proofs.Subscriptions

The subscriptions of the clients of a network. What happened to the subscriptions of a client in a
run is its history (`Net.historyOf`); they are what this history makes of them (`Net.Recorded`).
-/

namespace Remoting

open List

namespace Net

variable {net net' : Net} {a : Happening} {happenings : List Happening} {host : Host}

/-! ## History -/

/-- What is done at one client. -/
def actionsAt (c : Nat) (signals : List (Nat × SignalAction)) : List SignalAction :=
  signals.filterMap fun s => if s.1 = c then some s.2 else none

/-- What a happening does to the subscriptions of a client that is there. -/
def actionsOf (c : Nat) (net : Net) (a : Happening) : List SignalAction :=
  if c < net.clients.length then actionsAt c (net.signals a) else []

/-- What is done to the subscriptions of a client in a run. -/
def historyOf (net : Net) (happenings : List Happening) (c : Nat) : List SignalAction :=
  net.trace (actionsOf c) happenings

theorem actionsAt_cons (c : Nat) (s : Nat × SignalAction) (signals : List (Nat × SignalAction)) :
    actionsAt c (s :: signals) = (if s.1 = c then [s.2] else []) ++ actionsAt c signals := by
  unfold actionsAt
  by_cases h : s.1 = c <;> simp [h]

theorem historyOf_concat (hrun : net.happens happenings = some net') (a : Happening) (c : Nat) :
    net.historyOf (happenings ++ [a]) c = net.historyOf happenings c ++ net'.actionsOf c a :=
  trace_concat _ hrun a

/-- Each client has done to its subscriptions what is done at it. -/
theorem getElem?_changeBoards (net : Net) (signals : List (Nat × SignalAction)) (c : Nat) :
    (net.changeBoards signals).clients[c]? =
      net.clients[c]?.map fun client =>
        { client with board := client.board.acts (actionsAt c signals) } := by
  induction signals generalizing net with
  | nil => simp [changeBoards, actionsAt, Switchboard.acts]
  | cons s signals ih =>
    rw [changeBoards, foldl_cons, ← changeBoards, ih, actionsAt_cons]
    cases hc : net.clients[c]? with
    | none => simp [changeBoard, getElem?_modify, hc]
    | some client =>
      by_cases h : s.1 = c <;>
        simp [changeBoard, hc, h, Switchboard.acts]

theorem length_changeBoards (net : Net) (signals : List (Nat × SignalAction)) :
    (net.changeBoards signals).clients.length = net.clients.length := by
  induction signals generalizing net with
  | nil => rfl
  | cons s signals ih =>
    rw [changeBoards, foldl_cons, ← changeBoards, ih]
    simp [changeBoard]

theorem clients_putSubscription (net : Net) (name : String) (s : Subscription) :
    (net.putSubscription name s).clients =
      (net.changeBoards ((net.subscription? name).toList.map fun old =>
        (old.client, .discard old.handler))).clients := by
  unfold putSubscription
  cases net.subscription? name <;> rfl

/-- Giving names to what was reported gives up the subscriptions that had them. -/
theorem clients_foldl_record (reports : List (Nat × Report)) (net : Net) :
    (reports.foldl (fun net r => net.record r.2) net).clients =
      (net.changeBoards (recordSignals net reports)).clients := by
  induction reports generalizing net with
  | nil => rfl
  | cons r reports ih =>
    have hrecord : (net.record r.2).clients =
        (net.changeBoards (net.reportSignals r.2)).clients := by
      cases hr : r.2 with
      | subscribed s name => exact clients_putSubscription net name s
      | _ => rfl
    rw [foldl_cons, ih, recordSignals]
    simp only [changeBoards, foldl_append]
    exact clients_changeBoards_congr hrecord _

/-- From outside, subscriptions change as told, and new clients have none. -/
theorem Change.clients {signals : List (Nat × SignalAction)} (h : net.Change signals net') :
    ∃ new, net'.clients = (net.changeBoards signals).clients ++ new ∧
      ∀ client ∈ new, client.board = {} := by
  have hsame {net₁ net₂ : Net} (heq : net₁.clients = net₂.clients) :
      ∃ new, net₁.clients = net₂.clients ++ new ∧ ∀ client ∈ new, client.board = {} :=
    ⟨[], by rw [heq, append_nil], by simp⟩
  induction h with
  | aside halike hpeers => exact hsame halike.clients
  | spawn | report | join | serve | close | unsubscribe | drop | use => exact hsame rfl
  | client endpoint settings => exact ⟨[_], rfl, by simp⟩
  | trans hfirst hsecond ihfirst ihsecond =>
    obtain ⟨new, hnew, hempty⟩ := ihfirst
    obtain ⟨new', hnew', hempty'⟩ := ihsecond
    refine ⟨new ++ new', ?_, by simpa [or_imp, forall_and] using ⟨hempty, hempty'⟩⟩
    simp only [changeBoards, foldl_nil] at hnew hnew' ⊢
    rw [hnew', hnew, append_assoc]
  | subscribe hclient =>
    exact hsame (clients_changeBoard_of_getElem? hclient fun board => board.subscribe.2)
  | @next _ name s client hs hclient =>
    exact hsame (clients_changeBoard_of_getElem? hclient fun board => (board.next s.handler).2)
  | @record net =>
    have hcleared : ({ net with reports := [] } : Net).clients = net.clients := rfl
    exact hsame ((clients_foldl_record net.sortedReports _).trans
      (clients_changeBoards_congr hcleared _))

theorem clients_place (net : Net) (t : Task) (next : Next) :
    (net.place t next).clients = net.clients := by
  cases next <;> rfl

/-- Whatever happens, subscriptions change as told. -/
theorem clients_happen (h : net.happen a = some net') :
    ∃ new, net'.clients = (net.changeBoards (net.signals a)).clients ++ new ∧
      ∀ client ∈ new, client.board = {} := by
  obtain ⟨t, net₁, next, -, -, -, hstep, rfl, hsignals⟩ | ⟨-, hchange⟩ := happen_cases h
  · refine ⟨[], ?_, by simp⟩
    rw [hsignals, append_nil, clients_place]
    exact (step_does hstep).clients
  · exact hchange.clients

/-- The subscriptions of every client are what its history makes of them, and a client that is not
there has no history. -/
structure Recorded (history : Nat → List SignalAction) (net : Net) : Prop where
  absent : ∀ c, net.clients.length ≤ c → history c = []
  board : ∀ c client, net.clients[c]? = some client →
    client.board = Switchboard.after (history c)

/-- The record stays right whatever happens. -/
theorem Recorded.happen {history : Nat → List SignalAction} (h : net.Recorded history)
    (ha : net.happen a = some net') :
    net'.Recorded fun c => history c ++ net.actionsOf c a := by
  obtain ⟨new, hclients, hempty⟩ := clients_happen ha
  have hlength : net'.clients.length = net.clients.length + new.length := by
    rw [hclients, length_append, length_changeBoards]
  constructor
  · intro c hle
    rw [h.absent c (by omega), actionsOf, if_neg (by omega), append_nil]
  · intro c client hclient
    rw [hclients] at hclient
    by_cases hlt : c < net.clients.length
    · rw [getElem?_append_left (by simpa [length_changeBoards] using hlt),
        getElem?_changeBoards, Option.map_eq_some_iff] at hclient
      obtain ⟨old, hold, rfl⟩ := hclient
      rw [actionsOf, if_pos hlt, Switchboard.after_append, ← h.board c old hold]
    · rw [getElem?_append_right (by simpa [length_changeBoards] using hlt)] at hclient
      rw [actionsOf, if_neg hlt, h.absent c (by omega), hempty client (mem_of_getElem? hclient)]
      rfl

end Net

end Remoting

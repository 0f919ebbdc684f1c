import Remoting.Proofs.Attached
import Remoting.Proofs.Signals

/-!
# Remoting.Proofs.Happenings

Everything that can happen to a network. A `Happening` is something that is done from outside, a
step of any task, the passing of time, or a change of whose turn it is; a list of happenings is a
run (`Net.happens`). So runs cover every order in which things can be done and tasks can go on, and
in particular the one that the scheduler picks (`Net.happens_settle`, `Net.happens_advance`).

What is told about a run is put together from what each happening contributes (`Net.trace`).
-/

namespace Remoting

open List Option

/-- Something that can happen to a network. -/
inductive Happening where
  /-- Links are added, used or given up from outside. -/
  | links (links : List Link)
  /-- Something is done with the host from outside. -/
  | host (host : Host)
  | addPeer (endpoint : Nat) (settings : PeerSettings)
  | callPeer (n : Nat) (frame : Frame) (deadline : Nat)
  | sendPeer (n : Nat) (frame : Frame)
  | closePeer (n : Nat)
  | dropPeer (n : Nat)
  | takeInbound (n : Nat)
  | dropInbound (n : Nat)
  | addServer (maxInFlight : Nat)
  | serve (endpoint : Nat)
  | addClient (endpoint : Nat) (settings : ClientSettings)
  | putHandle (name : String) (handle : RemoteHandle)
  | hello (client : Nat) (name : String)
  | request (client : Nat) (kind : MessageKind) (target : ObjectId) (digest : Digest)
      (args : List Field)
  | post (client : Nat) (kind : MessageKind) (target : ObjectId) (digest : Digest)
      (args : List Field)
  | closeClient (client : Nat)
  | typeList (handle : RemoteHandle)
  | narrow (handle : RemoteHandle) (target : Digest) (name : String)
  | subscribe (handle : RemoteHandle) (connector : Digest) (args : List Field) (name : String)
  | unsubscribe (client : Nat) (name : String)
  | dropSubscription (name : String)
  | nextEvent (name : String)
  | reply (n : Nat) (reply : Reply)
  | takeArgs (n : Nat)
  | takeReports
  /-- A millisecond passes. -/
  | tick
  /-- A task goes on. -/
  | go (task : Nat)
  /-- A place is kept for a task. -/
  | hold (task : Nat)
  /-- It is somebody else's turn. -/
  | order (agenda : Agenda)

namespace Net

variable {β : Type} {net net' net'' : Net} {a : Happening} {happenings more : List Happening}

/-- Let something happen, if it can. -/
def happen (net : Net) : Happening → Option Net
  | .links links => some { net with links }
  | .host host => some { net with host }
  | .addPeer endpoint settings => (net.addPeer endpoint settings).toOption.map (·.2)
  | .callPeer n frame deadline => (net.callPeer n frame deadline).map (·.2)
  | .sendPeer n frame => (net.sendPeer n frame).map (·.2)
  | .closePeer n => (net.closePeer n).map (·.2)
  | .dropPeer n => net.dropPeer n
  | .takeInbound n => (net.takeInbound n).map (·.2)
  | .dropInbound n => net.dropInbound n
  | .addServer maxInFlight => (net.addServer maxInFlight).toOption
  | .serve endpoint => (net.serve endpoint).toOption.map (·.2)
  | .addClient endpoint settings => (net.addClient endpoint settings).toOption.map (·.2)
  | .putHandle name handle => some (net.putHandle name handle)
  | .hello client name => (net.hello client name).map (·.2)
  | .request client kind target digest args =>
    (net.request client kind target digest args).map (·.2)
  | .post client kind target digest args => (net.post client kind target digest args).map (·.2)
  | .closeClient client => (net.closeClient client).map (·.2)
  | .typeList handle => (net.typeList handle).map (·.2)
  | .narrow handle target name => (net.narrow handle target name).map (·.2)
  | .subscribe handle connector args name =>
    (net.subscribe handle connector args name).map (·.2)
  | .unsubscribe client name => (net.unsubscribe client name).map (·.2)
  | .dropSubscription name => net.dropSubscription name
  | .nextEvent name => (net.nextEvent name).map (·.2)
  | .reply n reply => net.reply n reply
  | .takeArgs n => (net.takeArgs n).map (·.2)
  | .takeReports => some net.takeReports.2
  | .tick => some { net with now := net.now + 1 }
  | .go task => do
    let t ← net.task? task
    let (net', next) ← net.step t
    return net'.place t next
  | .hold task => (net.task? task).map net.keepPlace
  | .order agenda => some { net with agenda }

/-- Let one thing happen after the other. -/
def happens (net : Net) : List Happening → Option Net
  | [] => some net
  | a :: happenings => (net.happen a).bind fun net => net.happens happenings

/-- What the happenings of a run contribute, one after the other. -/
def trace (note : Net → Happening → List β) (net : Net) : List Happening → List β
  | [] => []
  | a :: happenings =>
    note net a ++
      match net.happen a with
      | some net => trace note net happenings
      | none => []

/-- What a happening adds to the end of a list. -/
def gained (view : Net → List β) (net : Net) (a : Happening) : List β :=
  match net.happen a with
  | some net' => (view net').drop (view net).length
  | none => []

/-- What is noted of the step that a task takes with a happening. -/
def noted (note : Task → Next → Option β) (net : Net) : Happening → List β
  | .go task =>
    match net.task? task with
    | some t =>
      match net.step t with
      | some out => (note t out.2).toList
      | none => []
    | none => []
  | _ => []

/-- Something is so all along a run. -/
def Throughout (P : Net → Prop) (net : Net) (happenings : List Happening) : Prop :=
  ∀ before, before <+: happenings → ∀ net', net.happens before = some net' → P net'

/-- Runs follow one another. -/
theorem happens_append (net : Net) (happenings more : List Happening) :
    net.happens (happenings ++ more) = (net.happens happenings).bind (·.happens more) := by
  induction happenings generalizing net with
  | nil => rfl
  | cons a happenings ih =>
    cases ha : net.happen a with
    | none => simp [happens, ha]
    | some net' => simp [happens, ha, ih]

theorem happens_concat (net : Net) (happenings : List Happening) (a : Happening) :
    net.happens (happenings ++ [a]) = (net.happens happenings).bind (·.happen a) := by
  rw [happens_append]
  congr 1
  funext net'
  simp [happens]

/-- What is noted of one more happening comes last. -/
theorem trace_concat (note : Net → Happening → List β)
    (hrun : net.happens happenings = some net') (a : Happening) :
    net.trace note (happenings ++ [a]) = net.trace note happenings ++ note net' a := by
  induction happenings generalizing net with
  | nil =>
    obtain rfl := some.inj hrun
    cases hb : net.happen a <;> simp [trace, hb]
  | cons b happenings ih =>
    obtain ⟨net₁, hb, hrest⟩ := bind_eq_some_iff.mp hrun
    simp [trace, hb, ih hrest]

/-- What is gained stands behind what there was. -/
theorem gained_eq (view : Net → List β) (ha : net.happen a = some net') :
    net.gained view a = (view net').drop (view net).length := by
  rw [gained, ha]

theorem gained_of_suffix {view : Net → List β} (ha : net.happen a = some net')
    (h : view net' <:+ view net) : net.gained view a = [] := by
  rw [gained_eq view ha, drop_eq_nil_iff]
  exact h.length_le

theorem noted_go (note : Task → Next → Option β) {t : Task} {out : Stepped}
    (htask : net.task? t.id = some t) (hstep : net.step t = some out) :
    net.noted note (.go t.id) = (note t out.2).toList := by
  simp only [noted, htask, hstep]

theorem noted_of_ne_go (note : Task → Next → Option β) (hgo : ∀ task, a ≠ .go task) :
    net.noted note a = [] := by
  cases a with
  | go task => exact absurd rfl (hgo task)
  | _ => rfl

/-- What is so at the beginning, and stays so whatever happens, is so after every run. -/
theorem happens_induction {P : List Happening → Net → Prop} (hbegin : P [] net)
    (hhappen : ∀ {happenings a net₁ net₂}, net.happens happenings = some net₁ → P happenings net₁ →
      net₁.happen a = some net₂ → P (happenings ++ [a]) net₂)
    (hrun : net.happens happenings = some net') : P happenings net' := by
  induction happenings using reverseRecOn generalizing net' with
  | nil => exact some.inj hrun ▸ hbegin
  | append_singleton happenings a ih =>
    rw [happens_concat] at hrun
    obtain ⟨net₁, hbefore, ha⟩ := bind_eq_some_iff.mp hrun
    exact hhappen hbefore (ih hbefore) ha

theorem Throughout.concat {P : Net → Prop} (h : net.Throughout P (happenings ++ [a])) :
    net.Throughout P happenings := fun before hbefore =>
  h before (hbefore.trans (prefix_append _ _))

/-- What is so throughout is so in the end. -/
theorem Throughout.last {P : Net → Prop} (h : net.Throughout P happenings)
    (hrun : net.happens happenings = some net') : P net' := h happenings prefix_rfl net' hrun

theorem throughout_nil {P : Net → Prop} : net.Throughout P [] ↔ P net := by
  simp [Throughout, happens]

theorem throughout_cons {P : Net → Prop} :
    net.Throughout P (a :: happenings) ↔
      P net ∧ ∀ net' ∈ net.happen a, net'.Throughout P happenings := by
  constructor
  · intro h
    refine ⟨h [] nil_prefix net rfl, fun net' ha before hbefore net'' hrun => ?_⟩
    refine h (a :: before) (cons_prefix_cons.mpr ⟨rfl, hbefore⟩) net'' ?_
    rw [happens, mem_def.mp ha]
    exact hrun
  · rintro ⟨hfirst, hrest⟩ before hbefore net'' hrun
    cases before with
    | nil => exact some.inj hrun ▸ hfirst
    | cons b before =>
      obtain ⟨rfl, hrests⟩ := cons_prefix_cons.mp hbefore
      obtain ⟨net', ha, hrun⟩ := bind_eq_some_iff.mp hrun
      exact hrest net' ha before hrests net'' hrun

instance decidableThroughout {P : Net → Prop} [DecidablePred P] :
    ∀ (net : Net) (happenings : List Happening), Decidable (net.Throughout P happenings)
  | net, [] => decidable_of_iff (P net) throughout_nil.symm
  | net, a :: happenings =>
    have (net' : Net) : Decidable (net'.Throughout P happenings) :=
      decidableThroughout net' happenings
    decidable_of_iff (P net ∧ ∀ net' ∈ net.happen a, net'.Throughout P happenings)
      throughout_cons.symm

/-! ## The order of the scheduler -/

/-- What a network does by itself can happen. -/
theorem happens_of_follow {h h' : History} {actions : List Action}
    (hinternal : ∀ action ∈ actions, action.isInternal = true)
    (hfollow : net.follow h actions = some (h', net')) :
    ∃ happenings, net.happens happenings = some net' := by
  induction actions generalizing net h with
  | nil =>
    cases hfollow
    exact ⟨[], rfl⟩
  | cons action actions ih =>
    obtain ⟨⟨h₁, net₁⟩, hact, hrest⟩ := bind_eq_some_iff.mp hfollow
    obtain ⟨happenings, hrun⟩ := ih (fun b hb => hinternal b (mem_cons_of_mem _ hb)) hrest
    have hone : ∃ a, net.happen a = some net₁ := by
      have hone := hinternal action mem_cons_self
      cases action with
      | tick => exact ⟨.tick, by simp_all [act, happen]⟩
      | go task =>
        refine ⟨.go task, ?_⟩
        simp only [act, bind_eq_bind, bind_eq_some_iff, Option.pure_def,
          some.injEq, Prod.mk.injEq] at hact
        obtain ⟨t, htask, ⟨net₂, next⟩, hstep, -, rfl⟩ := hact
        simp [happen, htask, hstep]
      | hold task =>
        refine ⟨.hold task, ?_⟩
        simp only [act, map_eq_some_iff, Prod.mk.injEq] at hact
        obtain ⟨t, htask, -, rfl⟩ := hact
        simp [happen, htask]
      | order agenda => exact ⟨.order agenda, by simp_all [act, happen]⟩
      | _ => contradiction
    obtain ⟨a, ha⟩ := hone
    exact ⟨a :: happenings, by simp [happens, ha, hrun]⟩

/-- What the scheduler makes of a network is what some run makes of it. -/
theorem happens_settle (net : Net) : ∃ happenings, net.happens happenings = some net.settle := by
  obtain ⟨actions, ⟨hinternal, hfollow⟩, -⟩ := passes_settle net
  obtain ⟨h', hfollow⟩ := hfollow {}
  exact happens_of_follow hinternal hfollow

/-- Letting time pass can happen. -/
theorem happens_advance (milliseconds : Nat) (net : Net) :
    ∃ happenings, net.happens happenings = some (net.advance milliseconds) := by
  obtain ⟨actions, ⟨hinternal, hfollow⟩, -⟩ := passes_advance milliseconds net
  obtain ⟨h', hfollow⟩ := hfollow {}
  exact happens_of_follow hinternal hfollow

end Net

end Remoting

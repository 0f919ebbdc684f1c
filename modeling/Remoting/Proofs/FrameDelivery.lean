import Remoting.Proofs.Conveyance
import Remoting.Proofs.Traffic

/-!
# Remoting.Proofs.FrameDelivery

The way of frames from a peer to the other side: through the queue of what is to go out, through the
hands of the writer, and over the link (`Lane`). As long as the link is open, the frames on a lane
stay in order and none is lost. A step of the writer brings them nearer to the other side
(`Net.step_writer`), a step of the reader there brings them nearer or takes the first one off
(`Net.step_reader`), and as long as there are frames, one of the two can go on.
-/

namespace Remoting

open List

/-! ## Gates -/

namespace Gate

/-- A gate that is not closed and where nobody waits. It has a free place, or one that is kept for
a guest, unless a place is in use that will be given back. -/
structure Passable (g : Gate) (inUse : Bool) (guest : Option Nat) : Prop where
  isOpen : g.closed = false
  nobody : g.waiting = []
  room : inUse = true ∨ 0 < g.free ∨ ∃ task ∈ guest, task ∈ g.granted

variable {g : Gate}

/-- The guest gets in. -/
theorem Passable.enter {task : Nat} (h : g.Passable false (some task)) :
    ∃ g', g.enter task = some (.entered, g') ∧ g'.Passable true none := by
  have hopen := h.isOpen
  have hnobody := h.nobody
  by_cases hgranted : task ∈ g.granted
  · refine ⟨{ g with granted := g.granted.erase task }, ?_, hopen, hnobody, .inl rfl⟩
    simp [Gate.enter, hopen, hgranted]
  · have hroom : 0 < g.free := by simpa [hgranted] using h.room
    obtain ⟨free, hfree⟩ := Nat.exists_eq_succ_of_ne_zero (Nat.ne_of_gt hroom)
    refine ⟨{ g with free }, ?_, hopen, hnobody, .inl rfl⟩
    simp [Gate.enter, hopen, hgranted, hnobody, hfree]

theorem Passable.release {inUse : Bool} {guest : Option Nat} (h : g.Passable inUse guest) :
    g.release.Passable false none := by
  have hrelease : g.release = { g with free := g.free + 1 } := by rw [Gate.release, h.nobody]
  rw [hrelease]
  exact ⟨h.isOpen, h.nobody, .inr (.inl (Nat.succ_pos _))⟩

theorem Passable.keepPlace {inUse : Bool} {task : Nat} (h : g.Passable inUse (some task)) :
    (g.keepPlace task).Passable inUse (some task) := by
  unfold Gate.keepPlace
  split
  · next free hopen hfree =>
    exact ⟨h.isOpen, h.nobody, .inr (.inr ⟨task, rfl, by simp⟩)⟩
  · exact h

theorem Passable.weaken (h : g.Passable false none) {inUse : Bool} {guest : Option Nat} :
    g.Passable inUse guest :=
  ⟨h.isOpen, h.nobody, .inr (.inl (by simpa using h.room))⟩

end Gate

theorem Channel.pop?_cons {α : Type} {c : Channel α} {item : α} {items : List α}
    (h : c.items = item :: items) :
    c.pop? = some (item, { c with items, gate := c.gate.release }) := by
  simp [Channel.pop?, h]

/-! ## Lanes -/

/-- The frames on their way from a peer: those on the link, that in the hands of the writer, and
those in the queue. A writer that waits for the next message has let everything go out. -/
inductive Lane (d : Direction) (queue : List Outgoing) : Job → List Frame → Prop where
  | write {carried queued : List Frame} (hconveys : d.Conveys carried) (hdrained : d.Drained)
      (hqueue : queue = queued.map .frame)
      (hsmall : ∀ f ∈ queued, f.encodedLength ≤ d.frameLimit) :
      Lane d queue .write (carried ++ queued)
  | transmit {carried queued : List Frame} {f : Frame} (hconveys : d.Conveys carried)
      (hqueue : queue = queued.map .frame)
      (hsmall : ∀ g ∈ f :: queued, g.encodedLength ≤ d.frameLimit) :
      Lane d queue (.transmit f) (carried ++ f :: queued)
  | flush {carried queued : List Frame} (hconveys : d.Conveys carried)
      (hqueue : queue = queued.map .frame)
      (hsmall : ∀ f ∈ queued, f.encodedLength ≤ d.frameLimit) :
      Lane d queue .flush (carried ++ queued)

/-- How much is to be done with a message in the queue. -/
def Outgoing.load : Outgoing → Nat
  | .frame f => 3 * (4 + f.encodedLength) + 4
  | .close => 0

/-- How much is to be done with what the writer has in its hands. -/
def Job.load : Job → Nat
  | .transmit f => 3 * (4 + f.encodedLength) + 3
  | .flush => 1
  | _ => 0

/-- How much is to be done until everything on a lane has been looked at. -/
def laneLoad (d : Direction) (queue : List Outgoing) (writer : Job) : Nat :=
  d.load + (queue.map Outgoing.load).sum + writer.load

namespace Lane

variable {d : Direction} {queue : List Outgoing} {writer : Job} {frames : List Frame}

/-- A frame that is put into the queue comes last. -/
theorem push (h : Lane d queue writer frames) {f : Frame} (hf : f.encodedLength ≤ d.frameLimit) :
    Lane d (queue ++ [.frame f]) writer (frames ++ [f]) := by
  have hmore {l : List Frame} (hl : ∀ g ∈ l, g.encodedLength ≤ d.frameLimit) :
      ∀ g ∈ l ++ [f], g.encodedLength ≤ d.frameLimit := by
    intro g hg
    rcases mem_append.mp hg with hmem | hmem
    · exact hl g hmem
    · rwa [mem_singleton.mp hmem]
  cases h with
  | write hconveys hdrained hqueue hsmall =>
    rw [append_assoc]
    exact .write hconveys hdrained (by simp [hqueue]) (hmore hsmall)
  | transmit hconveys hqueue hsmall =>
    rw [append_assoc]
    exact .transmit hconveys (by simp [hqueue]) (hmore hsmall)
  | flush hconveys hqueue hsmall =>
    rw [append_assoc]
    exact .flush hconveys (by simp [hqueue]) (hmore hsmall)

theorem writer_cases (h : Lane d queue writer frames) :
    writer = .write ∨ (∃ f, writer = .transmit f) ∨ writer = .flush := by
  cases h with
  | write => exact .inl rfl
  | transmit => exact .inr (.inl ⟨_, rfl⟩)
  | flush => exact .inr (.inr rfl)

/-- When no frames are on the way, none are in the queue or on the link. -/
theorem of_nil (h : Lane d queue writer frames) (hnone : frames = []) :
    queue = [] ∧ d.Conveys [] ∧ (writer = .write → d.Drained) := by
  cases h with
  | write hconveys hdrained hqueue hsmall =>
    obtain ⟨rfl, rfl⟩ := append_eq_nil_iff.mp hnone
    exact ⟨hqueue, hconveys, fun _ => hdrained⟩
  | transmit => simp at hnone
  | flush hconveys hqueue hsmall =>
    obtain ⟨rfl, rfl⟩ := append_eq_nil_iff.mp hnone
    exact ⟨hqueue, hconveys, by simp⟩

theorem laneLoad_push (d : Direction) (queue : List Outgoing) (writer : Job) (f : Frame) :
    laneLoad d (queue ++ [.frame f]) writer =
      laneLoad d queue writer + (3 * (4 + f.encodedLength) + 4) := by
  simp [laneLoad, Outgoing.load]
  omega

/-- The frames on a lane are those that the link carries and those behind them. As the link carries
fewer, so does the lane. When nothing can be read from the link, the lane is empty or its writer can
go on. -/
theorem exists_split {l : Link} {side : Side}
    (hlane : Lane (l.direction side) queue writer frames) :
    ∃ carried behind, frames = carried ++ behind ∧ (l.direction side).Conveys carried ∧
      (∀ (l' : Link) (left : List Frame), Link.Only side l l' → (l'.direction side).Conveys left →
        ((l.direction side).Drained → (l'.direction side).Drained) →
        Lane (l'.direction side) queue writer (left ++ behind)) ∧
      (carried = [] ∨ ¬ (l.direction side).Drained ∧ l.canWrite side = true →
        frames = [] ∨
          ¬ (writer = .write ∧ queue = []) ∧ ¬ (writer = .flush ∧ l.canWrite side = false)) := by
  cases hlane with
  | write hconveys hdrained hqueue hsmall =>
    rename_i carried queued
    refine ⟨carried, queued, rfl, hconveys, fun l' left honly hleft hkept =>
      .write hleft (hkept hdrained) hqueue (honly.limit ▸ hsmall), ?_⟩
    rintro (rfl | ⟨hnot, -⟩)
    · cases queued with
      | nil => exact .inl rfl
      | cons f queued => exact .inr ⟨by simp [hqueue], by simp⟩
    · exact absurd hdrained hnot
  | transmit hconveys hqueue hsmall =>
    exact ⟨_, _, rfl, hconveys, fun l' left honly hleft _ =>
      .transmit hleft hqueue (honly.limit ▸ hsmall), fun _ => .inr ⟨by simp, by simp⟩⟩
  | flush hconveys hqueue hsmall =>
    refine ⟨_, _, rfl, hconveys, fun l' left honly hleft _ =>
      .flush hleft hqueue (honly.limit ▸ hsmall), fun hnone => ?_⟩
    have hwrite : l.canWrite side = true := by
      rcases hnone with rfl | ⟨-, hwrite⟩
      · exact Link.canWrite_of_conveys_nil hconveys
      · exact hwrite
    exact .inr ⟨by simp, by simp [hwrite]⟩

end Lane

/-! ## Steps -/

/-- How a frame comes in: as itself if it fits the format, and damaged if it does not. -/
inductive Frame.ComesAs (f : Frame) : Except MalformedFrame Frame → Prop where
  | whole (h : Field.Fits f.toFields) : ComesAs f (.ok f)
  | damaged (h : ¬ Field.Fits f.toFields) (error : FramingError) :
      ComesAs f (.error ⟨f.header, error⟩)

namespace Net

variable {net : Net} {t : Task} {p : Peer} {l : Link} {side : Side} {frames : List Frame}

theorem onLink_index {α : Type} (hlinks : net.links = [l]) (side : Side)
    (use : Link → Side → α × Link) :
    net.onLink side.index use = some ((use l side).1, { net with links := [(use l side).2] }) := by
  simp [onLink, hlinks]

/-- A step of the writer brings the frames on its lane nearer to the other side. It waits only when
it has nothing to do, or for room in the pipe. -/
theorem step_writer (hpeer : net.peers[t.peer]? = some p) (hend : p.endpoint = side.index)
    (hlinks : net.links = [l]) (hsender : net.hasSender t.peer = true)
    (hlane : Lane (l.direction side) p.outbound.items t.job frames) :
    (net.step t = none ∧
      (t.job = .write ∧ p.outbound.items = [] ∨ t.job = .flush ∧ l.canWrite side = false)) ∨
    (∃ f outbound,
      net.step t = some (net.changePeer t.peer fun p => { p with outbound }, .job (.transmit f)) ∧
      outbound = { p.outbound with items := outbound.items, gate := p.outbound.gate.release } ∧
      Lane (l.direction side) outbound.items (.transmit f) frames ∧
      laneLoad (l.direction side) outbound.items (.transmit f) <
        laneLoad (l.direction side) p.outbound.items t.job) ∨
    ∃ l' job, net.step t = some ({ net with links := [l'] }, .job job) ∧
      Lane (l'.direction side) p.outbound.items job frames ∧ Link.Only side l l' ∧
      laneLoad (l'.direction side) p.outbound.items job <
        laneLoad (l.direction side) p.outbound.items t.job := by
  obtain ⟨id, peer, job, ticket⟩ := t
  simp only at hpeer hsender hlane ⊢
  generalize hqueue' : p.outbound.items = queue at hlane
  cases hlane with
  | write hconveys hdrained hqueue hsmall =>
    rename_i carried queued
    cases queued with
    | nil =>
      rw [map_nil] at hqueue
      have hpop : p.outbound.pop? = none := by simp [Channel.pop?, hqueue', hqueue]
      exact .inl ⟨by simp [step, hpeer, stepWrite, hpop, hsender], .inl ⟨rfl, hqueue⟩⟩
    | cons f queued =>
      rw [map_cons] at hqueue
      have hpop := Channel.pop?_cons (hqueue'.trans hqueue)
      refine .inr (.inl ⟨f, { p.outbound with
        items := queued.map .frame, gate := p.outbound.gate.release }, ?_, rfl, ?_, ?_⟩)
      · simp [step, hpeer, stepWrite, hpop, goOn]
      · exact .transmit hconveys rfl hsmall
      · simp [laneLoad, hqueue, Outgoing.load, Job.load]
        omega
  | transmit hconveys hqueue hsmall =>
    rename_i carried queued f
    obtain ⟨hf, hrest⟩ := forall_mem_cons.mp hsmall
    obtain ⟨l', hfeed, hconveys', honly, hload⟩ := Link.feed_conveys hconveys hf
    have hon := onLink_index hlinks side fun link side => link.feed side f
    rw [hfeed, ← hend] at hon
    refine .inr (.inr ⟨l', .flush, ?_, ?_, honly, ?_⟩)
    · simp [step, hpeer, stepTransmit, hon, afterSending, goOn]
    · rw [← singleton_append, ← append_assoc]
      exact .flush hconveys' hqueue (honly.limit ▸ hrest)
    · simp only [laneLoad, Job.load]
      omega
  | flush hconveys hqueue hsmall =>
    cases hwrite : l.canWrite side with
    | false =>
      exact .inl ⟨by simp [step, hpeer, stepFlush, hend, hlinks, hwrite], .inr ⟨rfl, rfl⟩⟩
    | true =>
      obtain ⟨sent, l', hflush, hconveys', honly, hsent⟩ := Link.flush_conveys hconveys hwrite
      have hon := onLink_index hlinks side Link.flush
      rw [hflush] at hon
      have hsmall' := honly.limit ▸ hsmall
      rcases hsent with ⟨rfl, hdrained, hload⟩ | ⟨rfl, hload⟩
      · refine .inr (.inr ⟨l', .write, ?_, .write hconveys' hdrained hqueue hsmall', honly, ?_⟩)
        · simp [step, hpeer, stepFlush, hend, hlinks, hwrite, hon, afterSending, goOn]
        · simp only [laneLoad, Job.load]
          omega
      · refine .inr (.inr ⟨l', .flush, ?_, .flush hconveys' hqueue hsmall', honly, ?_⟩)
        · simp [step, hpeer, stepFlush, hend, hlinks, hwrite, hon, afterSending, goOn]
        · simp only [laneLoad, Job.load]
          omega

/-- A step of the reader at the other side brings the frames on a lane nearer, or takes the first
one off. It waits only when there are none, or when the writer can go on. -/
theorem step_reader {queue : List Outgoing} {writer : Job} (hpeer : net.peers[t.peer]? = some p)
    (hend : p.endpoint = side.other.index) (hlinks : net.links = [l]) (hjob : t.job = .read)
    (hlane : Lane (l.direction side) queue writer frames) :
    (net.step t = none ∧
      (frames = [] ∨
        ¬ (writer = .write ∧ queue = []) ∧ ¬ (writer = .flush ∧ l.canWrite side = false))) ∨
    (∃ l', net.step t = some ({ net with links := [l'] }, .job .read) ∧
      Lane (l'.direction side) queue writer frames ∧ Link.Only side l l' ∧
      laneLoad (l'.direction side) queue writer < laneLoad (l.direction side) queue writer) ∨
    ∃ f rest message l', frames = f :: rest ∧ f.ComesAs message ∧
      net.step t = some ({ net with links := [l'] }, .job (.accept message)) ∧
      Lane (l'.direction side) queue writer rest ∧ Link.Only side l l' ∧
      laneLoad (l'.direction side) queue writer ≤ laneLoad (l.direction side) queue writer := by
  have hon := onLink_index hlinks side.other Link.attempt
  rw [← hend] at hon
  obtain ⟨carried, behind, rfl, hconveys, hbehind, hwaits⟩ := hlane.exists_split
  rcases Link.attempt_conveys hconveys with ⟨l', hattempt, hnone⟩ |
    ⟨l', hattempt, hconveys', honly, hdrained, hload⟩ |
    ⟨f, rest, a, l', rfl, hattempt, hbrings, hconveys', honly, hdrained, hload⟩
  · rw [hattempt] at hon
    exact .inl ⟨by simp [step, hpeer, hjob, stepRead, hon], hwaits hnone⟩
  · rw [hattempt] at hon
    refine .inr (.inl ⟨l', ?_, hbehind l' _ honly hconveys' hdrained, honly, ?_⟩)
    · simp [step, hpeer, hjob, stepRead, hon, goOn]
    · simp only [laneLoad]
      omega
  · rw [hattempt] at hon
    have hlane' := hbehind l' rest honly hconveys' hdrained
    have hload' : laneLoad (l'.direction side) queue writer ≤
        laneLoad (l.direction side) queue writer := by
      simp only [laneLoad]
      omega
    cases hbrings with
    | whole hfits =>
      exact .inr (.inr ⟨f, rest ++ behind, .ok f, l', rfl, .whole hfits,
        by simp [step, hpeer, hjob, stepRead, hon, goOn], hlane', honly, hload'⟩)
    | damaged hfits error =>
      exact .inr (.inr ⟨f, rest ++ behind, .error ⟨f.header, error⟩, l', rfl,
        .damaged hfits error, by simp [step, hpeer, hjob, stepRead, hon, goOn], hlane', honly,
        hload'⟩)

end Net

end Remoting

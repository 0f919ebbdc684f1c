import Remoting.Proofs.Transfer

/-!
# Remoting.Proofs.Interchange

What becomes of frames that are sent over a link does not depend on whether the link is one of
mailboxes or of pipes (`Transfer.transports_interchangeable`). At any time each send has come to
what it should, and what has been received are the first of the frames that could be sent. Whoever
sees to it that both sides go on again and again gets all of them, and then the end of the stream
(`Transfer.complete_of_rounds`): a full pipe makes the sender wait, and an empty one the receiver,
but never both at once (`Transfer.Inv.isComplete`).
-/

namespace Remoting

namespace Transfer

variable {frames arrived transit : List Frame} {t t' : Transfer}

/-! ## Splitting -/

/-- Between sends nothing is lost when the endpoint of the sender is split. -/
theorem splitSender_spec (h : Inv frames t arrived transit) :
    Inv frames (t.step .splitSender) arrived transit ∧
      Progress frames t (t.step .splitSender) True := by
  cases hskip : t.busy || t.senderSplit with
  | true =>
    have hstep : t.step .splitSender = t := by simp only [step, hskip, if_true]
    rw [hstep]
    exact ⟨h, .none rfl (.refl t) trivial⟩
  | false =>
    obtain ⟨hbusy, hsplit⟩ : t.busy = false ∧ t.senderSplit = false := by simpa using hskip
    have hstep : t.step .splitSender =
        { t with link := t.link.split t.side, senderSplit := true } := by
      simp [step, hbusy, hsplit]
    rw [hstep]
    refine ⟨⟨h.taken, h.received, h.closed, h.ended, fun hended => ?_⟩, .less ?_⟩
    · show ((t.link.split t.side).direction t.side).Holds t.closed t.busy transit
      rcases Link.direction_split_sender t.link t.side with hsame | hlost
      · rw [hsame]
        exact h.holds hended
      · rw [hlost]
        cases h.holds hended with
        | mailbox m hm => exact .mailbox m { hm with }
        | pipe p hp =>
          refine .pipe p { hp with reads := ?_, idle := fun _ => rfl }
          simpa only [hp.idle hbusy] using hp.reads
    · have hweight : ((t.link.split t.side).direction t.side).weight ≤
          (t.link.direction t.side).weight := by
        rcases Link.direction_split_sender t.link t.side with hsame | hlost
        · rw [hsame]
        · rw [hlost]
          simp only [Direction.weight]
          split <;> simp
      simp only [load, hsplit]
      simp
      omega

/-- Nothing that was read is lost when the endpoint of the receiver is split. -/
theorem splitReceiver_spec (h : Inv frames t arrived transit) :
    Inv frames (t.step .splitReceiver) arrived transit ∧
      Progress frames t (t.step .splitReceiver) True := by
  cases hsplit : t.receiverSplit with
  | true =>
    have hstep : t.step .splitReceiver = t := by simp only [step, hsplit, if_true]
    rw [hstep]
    exact ⟨h, .none rfl (.refl t) trivial⟩
  | false =>
    have hstep : t.step .splitReceiver =
        { t with link := t.link.split t.side.other, receiverSplit := true } := by
      simp [step, hsplit]
    rw [hstep]
    refine ⟨⟨h.taken, h.received, h.closed, h.ended, fun hended => ?_⟩, .less ?_⟩
    · show ((t.link.split t.side.other).direction t.side).Holds t.closed t.busy transit
      rcases Link.direction_split_receiver t.link t.side with hsame | hagain
      · rw [hsame]
        exact h.holds hended
      · rw [hagain]
        cases h.holds hended with
        | mailbox m hm => exact .mailbox m { hm with }
        | pipe p hp =>
          exact .pipe p { hp with
            reads := hp.reads.startingWith, readerLimit := hp.readerLimit }
    · have hweight : ((t.link.split t.side.other).direction t.side).weight ≤
          (t.link.direction t.side).weight + 2 := by
        rcases Link.direction_split_receiver t.link t.side with hsame | hagain
        · rw [hsame]
          exact Nat.le_add_right _ 2
        · rw [hagain]
          simp only [Direction.weight]
          split
          · exact Nat.zero_le _
          · simp only [StreamReader.effort, StreamReader.backlog, StreamReader.startingWith,
              Bool.false_eq_true, if_false]
            omega
      simp only [load, hsplit]
      simp
      omega

/-! ## Runs -/

/-- Why a move may come to nothing. -/
def Waits (t : Transfer) : Move → Prop
  | .send n => 0 < n → t.SenderWaits
  | .listen n => 0 < n → t.ReceiverWaits
  | .receive => t.ReceiverWaits
  | .splitSender | .splitReceiver => True

theorem Still.waits (h : Still t t') {move : Move} (hwaits : t'.Waits move) : t.Waits move := by
  have hsender (hw : t'.SenderWaits) : t.SenderWaits := by
    simpa only [SenderWaits, h.closed, h.conduit] using hw
  have hreceiver (hw : t'.ReceiverWaits) : t.ReceiverWaits := by
    simpa only [ReceiverWaits, h.closed, h.ended, h.conduit] using hw
  cases move with
  | send n => exact fun hn => hsender (hwaits hn)
  | listen n => exact fun hn => hreceiver (hwaits hn)
  | receive => exact hreceiver hwaits
  | splitSender => trivial
  | splitReceiver => trivial

section Faithful

variable (h : Inv frames t arrived transit)
include h

/-- One move keeps the invariant, and brings the transfer on unless there is a reason. -/
theorem step_spec (move : Move) :
    (∃ arrived' transit', Inv frames (t.step move) arrived' transit') ∧
      Progress frames t (t.step move) (t.Waits move) := by
  cases move with
  | send n =>
    obtain ⟨⟨transit', hinv⟩, hprogress⟩ := goOn_spec h n
    exact ⟨⟨arrived, transit', hinv⟩, hprogress⟩
  | listen n => exact listen_spec h n
  | receive =>
    obtain ⟨k, n, hk, hn, heq⟩ := t.receive_eq_listens
    obtain ⟨hinv, hprogress⟩ := listens_spec h n k
    rw [← heq] at hinv hprogress
    exact ⟨hinv, hprogress.imp fun hreason => hreason hk hn⟩
  | splitSender =>
    obtain ⟨hinv, hprogress⟩ := splitSender_spec h
    exact ⟨⟨arrived, transit, hinv⟩, hprogress⟩
  | splitReceiver =>
    obtain ⟨hinv, hprogress⟩ := splitReceiver_spec h
    exact ⟨⟨arrived, transit, hinv⟩, hprogress⟩

/-- So do several moves. -/
theorem run_spec (moves : List Move) :
    (∃ arrived' transit', Inv frames (t.run moves) arrived' transit') ∧
      Progress frames t (t.run moves) (∀ move ∈ moves, t.Waits move) := by
  induction moves generalizing t arrived transit with
  | nil => exact ⟨⟨arrived, transit, h⟩, .none rfl (.refl t) (by simp)⟩
  | cons move moves ih =>
    obtain ⟨⟨arrived', transit', hinv⟩, hfirst⟩ := step_spec h move
    obtain ⟨hinv', hrest⟩ := ih hinv
    refine ⟨hinv', (hfirst.trans hrest).imp fun hreason => ?_⟩
    obtain ⟨hwaits, hstill, hlater⟩ := hreason
    rw [List.forall_mem_cons]
    exact ⟨hwaits, fun move' hmove => hstill.waits (hlater move' hmove)⟩

/-! ## Completion -/

/-- The link has been closed, and the receiver has seen the end of the stream. -/
def IsComplete (t : Transfer) : Prop := t.closed = true ∧ t.hasEnded = true

instance (t : Transfer) : Decidable t.IsComplete := inferInstanceAs (Decidable (_ ∧ _))

/-- Moves in which both sides go on. -/
def IsRound (moves : List Move) : Prop :=
  (∃ n, 0 < n ∧ .send n ∈ moves) ∧ (.receive ∈ moves ∨ ∃ n, 0 < n ∧ .listen n ∈ moves)

/-- Sender and receiver do not wait for each other. -/
theorem Inv.isComplete (hsender : t.SenderWaits) (hreceiver : t.ReceiverWaits) : t.IsComplete := by
  rcases hreceiver with hended | ⟨hopen, hempty⟩
  · exact ⟨(h.ended hended).2, hended⟩
  · rcases hsender with hclosed | ⟨p, hout, hbytes⟩
    · exact absurd (hopen.symm.trans hclosed) (by simp)
    · exact absurd (hempty p hout) hbytes

/-- After a complete transfer nothing happens that anybody could notice. -/
theorem Inv.step_of_isComplete (hcomplete : t.IsComplete) (move : Move) :
    (t.step move).IsComplete := by
  obtain ⟨hclosed, hended⟩ := hcomplete
  obtain ⟨htodo, hbusy⟩ := h.closed hclosed
  cases move with
  | send n =>
    have hstep : t.step (.send n) = t := by simp [step, goOn, hbusy, htodo, hclosed]
    rw [hstep]
    exact ⟨hclosed, hended⟩
  | listen n =>
    have hstep : t.step (.listen n) = t := by simp [step, listen, hended]
    rw [hstep]
    exact ⟨hclosed, hended⟩
  | receive =>
    have hstep : t.step .receive = t := by simp [step, receive, hended]
    rw [hstep]
    exact ⟨hclosed, hended⟩
  | splitSender =>
    rw [step]
    split <;> exact ⟨hclosed, hended⟩
  | splitReceiver =>
    rw [step]
    split <;> exact ⟨hclosed, hended⟩

theorem Inv.run_of_isComplete (hcomplete : t.IsComplete) (moves : List Move) :
    (t.run moves).IsComplete := by
  induction moves generalizing t arrived transit with
  | nil => exact hcomplete
  | cons move moves ih =>
    obtain ⟨⟨arrived', transit', hinv⟩, -⟩ := step_spec h move
    exact ih hinv (h.step_of_isComplete hcomplete move)

/-- A round brings the transfer on, unless it is complete. -/
theorem Inv.round {moves : List Move} (hround : IsRound moves) :
    (t.run moves).load frames < t.load frames ∨ t.IsComplete := by
  obtain ⟨⟨n, hn, hsend⟩, hlisten⟩ := hround
  cases (run_spec h moves).2 with
  | less hless => exact .inl hless
  | none _ _ hwaits =>
    refine .inr (h.isComplete (hwaits _ hsend hn) ?_)
    rcases hlisten with hreceive | ⟨m, hm, hlisten⟩
    · exact hwaits _ hreceive
    · exact hwaits _ hlisten hm

/-- Enough rounds complete a transfer. -/
theorem complete_of_rounds {rounds : List (List Move)} (hrounds : ∀ moves ∈ rounds, IsRound moves)
    (hmany : t.load frames < rounds.length) : (t.run rounds.flatten).IsComplete := by
  induction rounds generalizing t arrived transit with
  | nil => simp at hmany
  | cons moves rounds ih =>
    rw [List.forall_mem_cons] at hrounds
    have happend : t.run (moves :: rounds).flatten = (t.run moves).run rounds.flatten := by
      simp [run]
    rw [happend]
    obtain ⟨⟨arrived', transit', hinv⟩, -⟩ := run_spec h moves
    rcases h.round hrounds.1 with hless | hcomplete
    · rw [List.length_cons] at hmany
      exact ih hinv hrounds.2 (by omega)
    · exact hinv.run_of_isComplete (h.run_of_isComplete hcomplete moves) rounds.flatten

-- Portions of nine bytes through a pipe that holds sixteen, with a split along the way.
example : ((start (.stream 16 Envelope.defaultLimit) .left [Frame.hello]).run
    (List.replicate 12 [.send 9, .receive, .splitReceiver]).flatten).IsComplete := by
  decide +kernel

/-! ## Either kind of link -/

/-- What sending the frames, and closing the link after them, comes to. -/
def results (frames : List Frame) : List Sent := frames.map Frame.sentAs ++ [.done]

/-- What receiving comes to: each frame that could be sent, in order, and then the end. -/
def arrivals (frames : List Frame) : List Arrival :=
  (frames.filter Frame.isSmall).map Frame.arrival ++ [.ended]

/-- A link brings frames from a side to the other one, whatever happens and in whatever portions. -/
structure CarriesOver (link : Link) (side : Side) (frames : List Frame) : Prop where
  /-- At any time each send has come to what it should. -/
  sent : ∀ moves, ((start link side frames).run moves).sent <+: results frames
  /-- At any time nothing else has been received. -/
  received : ∀ moves, ((start link side frames).run moves).received <+: arrivals frames
  /-- In the end everything has been sent and received. -/
  complete : ∀ moves, ((start link side frames).run moves).IsComplete →
    ((start link side frames).run moves).sent = results frames ∧
      ((start link side frames).run moves).received = arrivals frames
  /-- It comes to an end when both sides go on often enough. -/
  ends : ∃ many, ∀ rounds : List (List Move), (∀ moves ∈ rounds, IsRound moves) →
    many < rounds.length → ((start link side frames).run rounds.flatten).IsComplete

theorem Inv.sent_soFar : t.sent <+: results frames := by
  obtain ⟨taken, hframes, -, hsent⟩ := h.taken
  have hbefore : t.sent <+: taken.map Frame.sentAs ++ if t.closed then [.done] else [] :=
    ⟨_, hsent⟩
  refine hbefore.trans ?_
  cases hclosed : t.closed with
  | true => simp [results, hframes, (h.closed hclosed).1]
  | false => simp [results, hframes]

theorem Inv.received_soFar : t.received <+: arrivals frames := by
  obtain ⟨taken, hframes, hfilter, -⟩ := h.taken
  rw [h.received]
  cases hended : t.hasEnded with
  | true =>
    obtain ⟨htransit, hclosed⟩ := h.ended hended
    simp [arrivals, hframes, hfilter, htransit, (h.closed hclosed).1]
  | false => simp [arrivals, hframes, hfilter]

theorem Inv.complete (hcomplete : t.IsComplete) :
    t.sent = results frames ∧ t.received = arrivals frames := by
  obtain ⟨hclosed, hended⟩ := hcomplete
  obtain ⟨taken, hframes, hfilter, hsent⟩ := h.taken
  obtain ⟨htodo, hbusy⟩ := h.closed hclosed
  obtain ⟨htransit, -⟩ := h.ended hended
  constructor
  · simpa [hbusy, hclosed, results, hframes, htodo] using hsent
  · simp [h.received, hended, arrivals, hframes, htodo, hfilter, htransit]

end Faithful

/-- A link that holds nothing yet carries frames over. -/
theorem carriesOver_of_holds {link : Link} {side : Side}
    (hholds : (link.direction side).Holds false false []) (frames : List Frame) :
    CarriesOver link side frames := by
  have hstart : Inv frames (start link side frames) [] [] :=
    { taken := ⟨[], rfl, rfl, rfl⟩
      received := rfl
      closed := by simp [start]
      ended := by simp [start, hasEnded]
      holds := fun _ => hholds }
  refine ⟨fun moves => ?_, fun moves => ?_, fun moves hcomplete => ?_,
    (start link side frames).load frames, fun rounds hrounds hmany => ?_⟩
  · obtain ⟨⟨_, _, hinv⟩, -⟩ := run_spec hstart moves
    exact hinv.sent_soFar
  · obtain ⟨⟨_, _, hinv⟩, -⟩ := run_spec hstart moves
    exact hinv.received_soFar
  · obtain ⟨⟨_, _, hinv⟩, -⟩ := run_spec hstart moves
    exact hinv.complete hcomplete
  · exact complete_of_rounds hstart hrounds hmany

theorem holds_memory (side : Side) : (Link.memory.direction side).Holds false false [] :=
  .mailbox {} ⟨by cases side <;> rfl, rfl, rfl, rfl, by cases side <;> rfl, rfl⟩

theorem holds_stream {capacity : Nat} (h : 0 < capacity) (side : Side) :
    ((Link.stream capacity Envelope.defaultLimit).direction side).Holds false false [] := by
  have hreads : ({} : StreamReader).Reads { capacity } [] [] :=
    ⟨rfl, by simp, rfl, by simp, by simp⟩
  cases side <;> exact .pipe { capacity } ⟨rfl, hreads, rfl, h, rfl, rfl, fun _ => rfl⟩

/-- Links of mailboxes and links of pipes are interchangeable: whatever happens on them, each send
comes to the same on both, and so does receiving, until the end of the stream. -/
theorem transports_interchangeable (frames : List Frame) {capacity : Nat} (hcapacity : 0 < capacity)
    (side side' : Side) :
    CarriesOver .memory side frames ∧
      CarriesOver (.stream capacity Envelope.defaultLimit) side' frames ∧
      ∀ t t' : Transfer,
        (∃ moves, (start .memory side frames).run moves = t) → t.IsComplete →
        (∃ moves, (start (.stream capacity Envelope.defaultLimit) side' frames).run moves = t') →
        t'.IsComplete → t.sent = t'.sent ∧ t.received = t'.received := by
  have hmemory := carriesOver_of_holds (holds_memory side) frames
  have hstream := carriesOver_of_holds (holds_stream hcapacity side') frames
  refine ⟨hmemory, hstream, ?_⟩
  rintro t t' ⟨moves, rfl⟩ hcomplete ⟨moves', rfl⟩ hcomplete'
  obtain ⟨hsent, hreceived⟩ := hmemory.complete moves hcomplete
  obtain ⟨hsent', hreceived'⟩ := hstream.complete moves' hcomplete'
  rw [hsent, hsent', hreceived, hreceived']
  exact ⟨rfl, rfl⟩

/-- A frame with a payload of so many bytes. -/
def padded (n : Nat) : Frame := ⟨Frame.hello.header, [.any (.replicate n 0)]⟩

/-- A frame with a payload that is nested so deep. -/
def nestedBy (n : Nat) : Frame := ⟨Frame.hello.header, [(fun f => .sequence [f])^[n] (.bool true)]⟩

theorem encodedLength_padded (n : Nat) : (padded n).encodedLength = 54 + n := by
  simp only [padded, Frame.encodedLength, Frame.toFields, Header.fields, Field.listLength,
    List.cons_append, List.nil_append, Field.encodedLengths, Field.encodedLength,
    List.length_replicate]
  omega

/-- The first frame is too large and the second one is nested too deep. A pipe that holds one byte
does with them what a mailbox does. -/
theorem transports_interchangeable_tight :
    0 < 1 ∧
      results [padded Envelope.defaultLimit, nestedBy 65, nestedBy 64] =
        [.failed (.envelope (.tooLarge 16777270)), .done, .done, .done] ∧
      arrivals [padded Envelope.defaultLimit, nestedBy 65, nestedBy 64] =
        [.failed (.malformed ⟨Frame.hello.header, .tooDeep⟩), .frame (nestedBy 64), .ended] ∧
      CarriesOver .memory .left [padded Envelope.defaultLimit, nestedBy 65, nestedBy 64] ∧
      CarriesOver (.stream 1 Envelope.defaultLimit) .right
        [padded Envelope.defaultLimit, nestedBy 65, nestedBy 64] := by
  have hlength : (padded Envelope.defaultLimit).encodedLength = 16777270 :=
    encodedLength_padded Envelope.defaultLimit
  have hpadded : (padded Envelope.defaultLimit).isSmall = false := by
    rw [Frame.isSmall, hlength]
    decide
  have hsmall : (nestedBy 65).isSmall = true ∧ (nestedBy 64).isSmall = true := by
    decide +kernel
  have hdeep : ¬ Field.nestingEach (nestedBy 65).payload ≤ Field.maxNesting ∧
      Field.nestingEach (nestedBy 64).payload ≤ Field.maxNesting := by decide +kernel
  obtain ⟨hmemory, hstream, -⟩ := transports_interchangeable
    [padded Envelope.defaultLimit, nestedBy 65, nestedBy 64] (by decide : 0 < 1) .left .right
  refine ⟨by decide, ?_, ?_, hmemory, hstream⟩
  · simp only [results, List.map_cons, List.map_nil, Frame.sentAs, hpadded, hlength, hsmall]
    rfl
  · have hheader : (nestedBy 65).header = Frame.hello.header := rfl
    simp [arrivals, hpadded, hsmall, Frame.arrival, hdeep, hheader]

end Transfer

end Remoting

import Remoting.Proofs.Traffic

/-!
# Remoting.Proofs.Ledger

Tasks, tickets and the history of calls belong together. A ticket is in the hands of at most one
task; the number of a call is known exactly to the task that waits for its response; and a ticket
that something was reported under is in nobody's hands any more (`Ledger`). So nothing is reported
twice, and nothing gets two numbers.

Five things can happen to a ledger: something is asked for (`Ledger.ask`), tasks are added that
report nothing (`Ledger.spawn`), a task goes on (`Ledger.goOn`), a call gets its number
(`Ledger.number`), and a task ends (`Ledger.finish`).
-/

namespace Remoting

open List

/-- Tasks, the next ticket and the history of calls agree. -/
structure Ledger (h : History) (tasks : List Task) (reports : List (Nat × Report))
    (nextTicket : Nat) : Prop where
  /-- Who waits for the response to a call knows its number, and nobody else does. -/
  awaits : ∀ t ∈ tasks, ∀ k, t.ticket = some k →
    ∀ id, (k, id) ∈ h.numbers ↔ t.job.awaits? = some id
  unique : ∀ t ∈ tasks, ∀ t' ∈ tasks, ∀ k, t.ticket = some k → t'.ticket = some k → t.id = t'.id
  unreported : ∀ t ∈ tasks, ∀ k report, t.ticket = some k → (k, report) ∉ reports
  issued : ∀ t ∈ tasks, ∀ k, t.ticket = some k → k < nextTicket
  called : ∀ k frame, (k, frame) ∈ h.calls → k < nextTicket
  numbered : ∀ k id, (k, id) ∈ h.numbers → ∃ frame, (k, frame) ∈ h.calls
  reported : ∀ k report, (k, report) ∈ reports → k < nextTicket
  callsOnce : (h.calls.map (·.1)).Nodup
  numbersOnce : (h.numbers.map (·.1)).Nodup
  reportsOnce : (reports.map (·.1)).Nodup

namespace Ledger

variable {h : History} {tasks : List Task} {reports : List (Nat × Report)}
  {nextTicket : Nat}

theorem lt_of_numbered (hl : Ledger h tasks reports nextTicket) {k : Nat} {id : CallId}
    (hmem : (k, id) ∈ h.numbers) : k < nextTicket := by
  obtain ⟨frame, hcall⟩ := hl.numbered k id hmem
  exact hl.called k frame hcall

theorem length_numbers_le (hl : Ledger h tasks reports nextTicket) :
    h.numbers.length ≤ h.calls.length := by
  have hsub : h.numbers.map (·.1) ⊆ h.calls.map (·.1) := by
    intro k hk
    obtain ⟨⟨k', id⟩, hmem, rfl⟩ := mem_map.mp hk
    obtain ⟨frame, hcall⟩ := hl.numbered _ id hmem
    exact mem_map.mpr ⟨_, hcall, rfl⟩
  simpa using (hl.numbersOnce.subperm hsub).length_le

theorem sublist {tasks' : List Task} (hl : Ledger h tasks reports nextTicket)
    (hsub : tasks' ⊆ tasks) : Ledger h tasks' reports nextTicket :=
  { hl with
    awaits := fun t ht => hl.awaits t (hsub ht)
    unique := fun t ht t' ht' => hl.unique t (hsub ht) t' (hsub ht')
    unreported := fun t ht => hl.unreported t (hsub ht)
    issued := fun t ht => hl.issued t (hsub ht) }

theorem spawn {new : List Task} (hl : Ledger h tasks reports nextTicket)
    (hnew : ∀ t ∈ new, t.ticket = none) : Ledger h (tasks ++ new) reports nextTicket := by
  -- a task with a ticket is one of those that were there
  have hold : ∀ t ∈ tasks ++ new, ∀ k, t.ticket = some k → t ∈ tasks := by
    intro t ht k hk
    rcases mem_append.mp ht with hmem | hmem
    · exact hmem
    · rw [hnew t hmem] at hk
      contradiction
  exact { hl with
    awaits := fun t ht k hk => hl.awaits t (hold t ht k hk) k hk
    unique := fun t ht t' ht' k hk hk' =>
      hl.unique t (hold t ht k hk) t' (hold t' ht' k hk') k hk hk'
    unreported := fun t ht k report hk => hl.unreported t (hold t ht k hk) k report hk
    issued := fun t ht k hk => hl.issued t (hold t ht k hk) k hk }

theorem nodup_append_pair {α : Type} {pairs : List (Nat × α)} {k : Nat} {a : α}
    (hnodup : (pairs.map (·.1)).Nodup) (hk : ∀ b, (k, b) ∉ pairs) :
    ((pairs ++ [(k, a)]).map (·.1)).Nodup := by
  rw [map_append, map_singleton, ← concat_eq_append]
  refine hnodup.concat fun hmem => ?_
  obtain ⟨⟨k', b⟩, hpair, rfl⟩ := mem_map.mp hmem
  exact hk b hpair

/-- Something is asked for, which may be a call. -/
theorem ask (hl : Ledger h tasks reports nextTicket) {t : Task}
    (hticket : t.ticket = some nextTicket) (hawaits : t.job.awaits? = none) (call : Option Frame) :
    Ledger { h with calls := h.calls ++ call.toList.map (nextTicket, ·) } (tasks ++ [t])
      reports (nextTicket + 1) := by
  have hcases : ∀ t' ∈ tasks ++ [t], t' ∈ tasks ∨ t' = t := by simp
  -- nobody else has the new ticket
  have hnew {t' : Task} {k : Nat} (ht' : t' ∈ tasks) (hk' : t'.ticket = some k)
      (hk : t.ticket = some k) : False := by
    have hlt := hl.issued t' ht' k hk'
    obtain rfl : nextTicket = k := Option.some.inj (hticket.symm.trans hk)
    omega
  refine ⟨?_, ?_, ?_, ?_, ?_, ?_, ?_, ?_, hl.numbersOnce, hl.reportsOnce⟩
  · intro t' ht' k hk id
    rcases hcases t' ht' with hmem | rfl
    · exact hl.awaits t' hmem k hk id
    · obtain rfl := Option.some.inj (hticket.symm.trans hk)
      rw [hawaits]
      refine ⟨fun hmem => ?_, fun hnone => by contradiction⟩
      have hlt := hl.lt_of_numbered hmem
      omega
  · intro t₁ ht₁ t₂ ht₂ k hk₁ hk₂
    rcases hcases t₁ ht₁ with hmem₁ | rfl <;> rcases hcases t₂ ht₂ with hmem₂ | rfl
    · exact hl.unique t₁ hmem₁ t₂ hmem₂ k hk₁ hk₂
    · exact (hnew hmem₁ hk₁ hk₂).elim
    · exact (hnew hmem₂ hk₂ hk₁).elim
    · rfl
  · intro t' ht' k report hk hmem
    rcases hcases t' ht' with ht | rfl
    · exact hl.unreported t' ht k report hk hmem
    · obtain rfl := Option.some.inj (hticket.symm.trans hk)
      have hlt := hl.reported _ report hmem
      omega
  · intro t' ht' k hk
    rcases hcases t' ht' with hmem | rfl
    · have hlt := hl.issued t' hmem k hk
      omega
    · obtain rfl := Option.some.inj (hticket.symm.trans hk)
      omega
  · intro k frame hmem
    rcases mem_append.mp hmem with hcall | hcall
    · have hlt := hl.called k frame hcall
      omega
    · obtain ⟨f, -, heq⟩ := mem_map.mp hcall
      obtain ⟨rfl, -⟩ := Prod.mk.inj heq
      omega
  · intro k id hmem
    obtain ⟨frame, hcall⟩ := hl.numbered k id hmem
    exact ⟨frame, mem_append_left _ hcall⟩
  · intro k report hmem
    have hlt := hl.reported k report hmem
    omega
  · cases call with
    | none => simpa using hl.callsOnce
    | some frame =>
      refine nodup_append_pair hl.callsOnce fun f hmem => ?_
      have hlt := hl.called nextTicket f hmem
      omega

theorem ticket_ne (hl : Ledger h tasks reports nextTicket) {t t' : Task} (ht : t ∈ tasks)
    (ht' : t' ∈ tasks.filter (·.id != t.id)) {k : Nat} (hk : t.ticket = some k) :
    t'.ticket ≠ some k := by
  intro hk'
  obtain ⟨hmem, hid⟩ := mem_filter.mp ht'
  have heq := hl.unique t' hmem t ht k hk' hk
  simp [heq] at hid

/-- A task goes on and waits for the same as before. -/
theorem goOn (hl : Ledger h tasks reports nextTicket) {t : Task} (ht : t ∈ tasks) {job : Job}
    (hawaits : job.awaits? = t.job.awaits?) :
    Ledger h (tasks.filter (·.id != t.id) ++ [{ t with job }]) reports nextTicket := by
  have hcases : ∀ t' ∈ tasks.filter (·.id != t.id) ++ [{ t with job }],
      ∃ t₀ ∈ tasks, t₀.id = t'.id ∧ t₀.ticket = t'.ticket ∧ t₀.job.awaits? = t'.job.awaits? := by
    intro t' ht'
    rcases mem_append.mp ht' with hmem | hmem
    · exact ⟨t', (mem_filter.mp hmem).1, rfl, rfl, rfl⟩
    · rw [mem_singleton.mp hmem]
      exact ⟨t, ht, rfl, rfl, hawaits.symm⟩
  exact { hl with
    awaits := fun t' ht' k hk id => by
      obtain ⟨t₀, ht₀, -, hticket, hsame⟩ := hcases t' ht'
      rw [← hsame]
      exact hl.awaits t₀ ht₀ k (hticket.trans hk) id
    unique := fun t₁ ht₁ t₂ ht₂ k hk₁ hk₂ => by
      obtain ⟨s₁, hs₁, hid₁, hticket₁, -⟩ := hcases t₁ ht₁
      obtain ⟨s₂, hs₂, hid₂, hticket₂, -⟩ := hcases t₂ ht₂
      rw [← hid₁, ← hid₂]
      exact hl.unique s₁ hs₁ s₂ hs₂ k (hticket₁.trans hk₁) (hticket₂.trans hk₂)
    unreported := fun t' ht' k report hk => by
      obtain ⟨t₀, ht₀, -, hticket, -⟩ := hcases t' ht'
      exact hl.unreported t₀ ht₀ k report (hticket.trans hk)
    issued := fun t' ht' k hk => by
      obtain ⟨t₀, ht₀, -, hticket, -⟩ := hcases t' ht'
      exact hl.issued t₀ ht₀ k (hticket.trans hk) }

/-- A call gets its number, and its task waits for the response from now on. -/
theorem number (hl : Ledger h tasks reports nextTicket) {t : Task} (ht : t ∈ tasks) {k : Nat}
    (hk : t.ticket = some k) (hnone : t.job.awaits? = none) {frame : Frame}
    (hcall : (k, frame) ∈ h.calls) {job : Job} {id : CallId} (hjob : job.awaits? = some id) :
    Ledger { h with numbers := h.numbers ++ [(k, id)] }
      (tasks.filter (·.id != t.id) ++ [{ t with job }]) reports nextTicket := by
  have hfresh : ∀ id', (k, id') ∉ h.numbers := by
    intro id' hmem
    have hsome := (hl.awaits t ht k hk id').mp hmem
    rw [hnone] at hsome
    contradiction
  have hothers : Ledger h (tasks.filter (·.id != t.id)) reports nextTicket :=
    hl.sublist (filter_subset_self tasks)
  have hcases : ∀ t' ∈ tasks.filter (·.id != t.id) ++ [{ t with job }],
      t' ∈ tasks.filter (·.id != t.id) ∨ t' = { t with job } := by simp
  refine { hl with
    awaits := ?_
    unique := ?_
    unreported := ?_
    issued := ?_
    numbered := ?_
    numbersOnce := nodup_append_pair hl.numbersOnce hfresh }
  · intro t' ht' k' hk' id'
    rw [mem_append, mem_singleton, Prod.mk.injEq]
    rcases hcases t' ht' with hmem | rfl
    · have hne : k' ≠ k := fun heq => hl.ticket_ne ht hmem hk (heq ▸ hk')
      simp [hothers.awaits t' hmem k' hk' id', hne]
    · obtain rfl : k = k' := Option.some.inj (hk.symm.trans hk')
      simp [hfresh id', hjob, eq_comm]
  · intro t₁ ht₁ t₂ ht₂ k' hk₁ hk₂
    rcases hcases t₁ ht₁ with hmem₁ | rfl <;> rcases hcases t₂ ht₂ with hmem₂ | rfl
    · exact hothers.unique t₁ hmem₁ t₂ hmem₂ k' hk₁ hk₂
    · exact absurd hk₁ (hl.ticket_ne ht hmem₁ hk₂)
    · exact absurd hk₂ (hl.ticket_ne ht hmem₂ hk₁)
    · rfl
  · intro t' ht' k' report hk'
    rcases hcases t' ht' with hmem | rfl
    · exact hothers.unreported t' hmem k' report hk'
    · exact hl.unreported t ht k' report hk'
  · intro t' ht' k' hk'
    rcases hcases t' ht' with hmem | rfl
    · exact hothers.issued t' hmem k' hk'
    · exact hl.issued t ht k' hk'
  · intro k' id' hmem
    rcases mem_append.mp hmem with hold | hnew
    · exact hl.numbered k' id' hold
    · obtain ⟨rfl, rfl⟩ := Prod.mk.inj (mem_singleton.mp hnew)
      exact ⟨frame, hcall⟩

/-- A task ends, and what comes of it is reported under its ticket, if it has one. -/
theorem finish (hl : Ledger h tasks reports nextTicket) {t : Task} (ht : t ∈ tasks)
    (report : Report) :
    Ledger h (tasks.filter (·.id != t.id)) (reports ++ t.ticket.toList.map (·, report))
      nextTicket := by
  have hothers : Ledger h (tasks.filter (·.id != t.id)) reports nextTicket :=
    hl.sublist (filter_subset_self tasks)
  cases hk : t.ticket with
  | none => simpa using hothers
  | some k =>
    refine { hothers with
      unreported := ?_
      reported := ?_
      reportsOnce := nodup_append_pair hl.reportsOnce fun report' =>
        hl.unreported t ht k report' hk }
    · intro t' ht' k' report' hk' hmem
      rcases mem_append.mp hmem with hold | hnew
      · exact hothers.unreported t' ht' k' report' hk' hold
      · obtain ⟨rfl, -⟩ : k' = k ∧ report' = report := by simpa using hnew
        exact hl.ticket_ne ht ht' hk hk'
    · intro k' report' hmem
      rcases mem_append.mp hmem with hold | hnew
      · exact hl.reported k' report' hold
      · obtain ⟨rfl, -⟩ : k' = k ∧ report' = report := by simpa using hnew
        exact hl.issued t ht k' hk

end Ledger

end Remoting

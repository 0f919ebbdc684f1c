import Remoting.Proofs.WellFormed
import Remoting.Schema.Enumeration

/-!
# Remoting.Proofs.EnumHistory

Enumerations against the values that they were asked to take. A request that is refused leaves the
enumeration as it was, so what it holds at any time can be told from the requests that it accepted.

The enumeration is also kept in place here, with the ordinals that are taken in a set of their own.
A request puts its ordinal into the set before it is known whether it is accepted, but an ordinal
for which it is refused was in the set already. So nothing is left of it
(`Enumeration.perform_tables`), and values, set and next ordinal stay in step
(`EnumTables.wellNumbered_after`).
-/

namespace Remoting

open List Enumeration
open Int64 (maxValue toInt_inj)

/-- A value that an enumeration is asked to take. Without an ordinal it takes the next one. -/
structure EnumRequest where
  ident : String
  label : String
  blurb : String
  ordinal : Option Int64
  deriving DecidableEq, Repr

namespace Enumeration

/-- The ordinal of a value that comes without one behind others, as a number: one more than that of
the last value, but at most the greatest ordinal. -/
def following (values : List EnumValue) : Int :=
  match values.getLast? with
  | none => 0
  | some last => min (last.ordinal.toInt + 1) Int64.maxValue.toInt

end Enumeration

namespace EnumRequest

/-- The value that comes of a request, with its ordinal. -/
def value (r : EnumRequest) (ordinal : Int64) : EnumValue := ⟨r.ident, r.label, r.blurb, ordinal⟩

@[simp] theorem value_ident (r : EnumRequest) (ordinal : Int64) :
    (r.value ordinal).ident = r.ident := rfl

@[simp] theorem value_ordinal (r : EnumRequest) (ordinal : Int64) :
    (r.value ordinal).ordinal = ordinal := rfl

/-- The ordinal that is asked for behind the given values, as a number. -/
def number (r : EnumRequest) (values : List EnumValue) : Int :=
  match r.ordinal with
  | some ordinal => ordinal.toInt
  | none => Enumeration.following values

end EnumRequest

/-! ## One request -/

namespace Enumeration

variable {e : Enumeration} {r : EnumRequest}

/-- What a request makes of an enumeration, if it is not refused. -/
def request (e : Enumeration) (r : EnumRequest) : Except SchemaError Enumeration :=
  e.add r.ident r.label r.blurb r.ordinal

/-- The enumeration after a request. -/
def act (e : Enumeration) (r : EnumRequest) : Enumeration :=
  match e.request r with
  | .ok e' => e'
  | .error _ => e

/-- The enumeration after one request after the other, from the beginning. -/
def collect (owner : String) (requests : List EnumRequest) : Enumeration :=
  requests.foldl act { owner }

/-- What a request may come to. -/
inductive Does (e : Enumeration) (r : EnumRequest) : Except SchemaError Enumeration → Prop where
  | sameIdent (h : r.ident ∈ e.values.map (·.ident)) :
      Does e r (.error (.duplicateMember e.owner r.ident))
  | sameOrdinal (hident : r.ident ∉ e.values.map (·.ident))
      (h : r.ordinal.getD e.next ∈ e.values.map (·.ordinal)) :
      Does e r (.error (.duplicateOrdinal e.owner r.ident (r.ordinal.getD e.next)))
  | accept (hident : r.ident ∉ e.values.map (·.ident))
      (hordinal : r.ordinal.getD e.next ∉ e.values.map (·.ordinal)) :
      Does e r (.ok { e with
        values := e.values ++ [r.value (r.ordinal.getD e.next)]
        next := after (r.ordinal.getD e.next) })

/-- A request is refused, or its value comes last. -/
theorem does_request (e : Enumeration) (r : EnumRequest) : e.Does r (e.request r) := by
  unfold request add
  dsimp only
  split
  · next h => exact .sameIdent (by simpa using h)
  · next hident =>
    split
    · next h => exact .sameOrdinal (by simpa using hident) (by simpa using h)
    · next hordinal => exact .accept (by simpa using hident) (by simpa using hordinal)

theorem collect_concat (owner : String) (requests : List EnumRequest) (r : EnumRequest) :
    collect owner (requests ++ [r]) = (collect owner requests).act r := by
  simp [collect, foldl_append]

/-- A request that is refused changes nothing. -/
theorem act_of_request_error {error : SchemaError} (h : e.request r = .error error) :
    e.act r = e := by
  rw [act, h]

theorem act_of_request_ok {e' : Enumeration} (h : e.request r = .ok e') : e.act r = e' := by
  rw [act, h]

/-! ## Ordinals -/

/-- The next ordinal is one more, except after the greatest. -/
theorem toInt_after (ordinal : Int64) :
    (after ordinal).toInt = min (ordinal.toInt + 1) maxValue.toInt := by
  have hle := Int64.toInt_le ordinal
  have hge := Int64.le_toInt ordinal
  unfold after
  split
  · next h =>
    subst h
    decide
  · next h =>
    have hne : ordinal.toInt ≠ maxValue.toInt := fun heq => h (toInt_inj.mp heq)
    rw [Int64.toInt_add]
    simp only [Int64.toInt_maxValue, Int64.toInt_one] at hle hne ⊢
    rw [Int.bmod_eq_of_le] <;> omega

/-- Names and ordinals differ, and the next ordinal follows that of the last value. -/
structure Sound (e : Enumeration) : Prop where
  idents : (e.values.map (·.ident)).Nodup
  ordinals : (e.values.map (·.ordinal)).Nodup
  next : e.next.toInt = following e.values

/-- The ordinal of a request is its own, or one more than the last. -/
theorem Sound.toInt_getD (h : e.Sound) (r : EnumRequest) :
    (r.ordinal.getD e.next).toInt = r.number e.values := by
  unfold EnumRequest.number
  cases r.ordinal with
  | none => exact h.next
  | some ordinal => rfl

/-- Requests keep the enumeration sound. -/
theorem Sound.act (h : e.Sound) (r : EnumRequest) : (e.act r).Sound := by
  have hdoes := does_request e r
  generalize hrequest : e.request r = x at hdoes
  cases hdoes with
  | sameIdent | sameOrdinal => rwa [act_of_request_error hrequest]
  | accept hident hordinal =>
    rw [act_of_request_ok hrequest]
    refine ⟨?_, ?_, ?_⟩
    · simpa using h.idents.concat hident
    · simpa using h.ordinals.concat hordinal
    · simp [following, toInt_after]

theorem Sound.mem_ordinals_iff (h : e.Sound) (r : EnumRequest) :
    r.ordinal.getD e.next ∈ e.values.map (·.ordinal) ↔
      r.number e.values ∈ e.values.map (·.ordinal.toInt) := by
  rw [← h.toInt_getD]
  simp [toInt_inj]

section Last

variable {values : List EnumValue} {last : EnumValue} (hlast : values.getLast? = some last)

include hlast

/-- After the last ordinal comes the next, up to the greatest. -/
theorem following_eq :
    following values = min (last.ordinal.toInt + 1) maxValue.toInt := by
  rw [following, hlast]

/-- An ordinal that is not taken is one more than the last. -/
theorem following_of_not_mem (h : following values ∉ values.map (·.ordinal.toInt)) :
    following values = last.ordinal.toInt + 1 := by
  have hmem : last.ordinal.toInt ∈ values.map (·.ordinal.toInt) :=
    mem_map_of_mem (mem_of_getLast? hlast)
  have hne : following values ≠ last.ordinal.toInt := fun heq => h (heq ▸ hmem)
  have hle := Int64.toInt_le last.ordinal
  rw [following_eq hlast] at hne ⊢
  omega

end Last

/-- After the greatest ordinal it is asked for again. -/
theorem Sound.next_eq_maxValue (h : e.Sound) {last : EnumValue}
    (hlast : e.values.getLast? = some last) (hmax : last.ordinal = maxValue) :
    e.next = maxValue := by
  rw [← toInt_inj, h.next, following_eq hlast, hmax]
  decide

/-- Every enumeration that was collected is sound. -/
theorem sound_collect (owner : String) (requests : List EnumRequest) :
    (collect owner requests).Sound := by
  induction requests using reverseRecOn with
  | nil => exact ⟨nodup_nil, nodup_nil, rfl⟩
  | append_singleton requests r ih =>
    rw [collect_concat]
    exact ih.act r

theorem owner_collect (owner : String) (requests : List EnumRequest) :
    (collect owner requests).owner = owner := by
  induction requests using reverseRecOn with
  | nil => rfl
  | append_singleton requests r ih =>
    rw [collect_concat]
    have hdoes := does_request (collect owner requests) r
    generalize hrequest : (collect owner requests).request r = x at hdoes
    cases hdoes with
    | sameIdent | sameOrdinal => rw [act_of_request_error hrequest, ih]
    | accept => rw [act_of_request_ok hrequest, ih]

end Enumeration

/-! ## In place

The ordinals that are taken stand in a set of their own, and a request changes values, set and next
ordinal step by step. A step that fails ends the request, and what the steps before it have changed
stays. -/

/-- An enumeration, laid out in tables. -/
structure EnumTables where
  owner : String
  values : List EnumValue
  taken : List Int64
  next : Int64
  deriving DecidableEq, Repr

namespace EnumTables

/-- Look for the name, then put the ordinal into the set, which tells whether it was new, then
append the value, and then go on to the next ordinal. -/
def push (t : EnumTables) (r : EnumRequest) (ordinal : Int64) :
    Except SchemaError Unit × EnumTables :=
  if t.values.any (·.ident == r.ident) then (.error (.duplicateMember t.owner r.ident), t)
  else
    let isNew := ordinal ∉ t.taken
    let t := { t with taken := t.taken.insert ordinal }
    if isNew then
      let t := { t with values := t.values ++ [r.value ordinal] }
      let t := { t with next := Enumeration.after ordinal }
      (.ok (), t)
    else (.error (.duplicateOrdinal t.owner r.ident ordinal), t)

/-- A request, which takes the next ordinal if it comes without one. -/
def perform (t : EnumTables) (r : EnumRequest) : Except SchemaError Unit × EnumTables :=
  t.push r (r.ordinal.getD t.next)

/-- The tables after one request after the other, from the beginning. -/
def after (owner : String) (requests : List EnumRequest) : EnumTables :=
  requests.foldl (fun t r => (t.perform r).2) ⟨owner, [], [], 0⟩

/-- What a request is answered after others. -/
def answerAfter (owner : String) (requests : List EnumRequest) (r : EnumRequest) :
    Except SchemaError Unit :=
  ((after owner requests).perform r).1

end EnumTables

namespace Enumeration

variable {e : Enumeration} {r : EnumRequest}

/-- The tables of an enumeration. -/
def tables (e : Enumeration) : EnumTables :=
  ⟨e.owner, e.values, (e.values.map (·.ordinal)).reverse, e.next⟩

/-- What a request is answered. -/
def answer (e : Enumeration) (r : EnumRequest) : Except SchemaError Unit :=
  (e.request r).map fun _ => ()

/-- Names are looked at first, then ordinals. -/
theorem answer_eq (e : Enumeration) (r : EnumRequest) :
    e.answer r =
      if r.ident ∈ e.values.map (·.ident) then .error (.duplicateMember e.owner r.ident)
      else if r.ordinal.getD e.next ∈ e.values.map (·.ordinal) then
        .error (.duplicateOrdinal e.owner r.ident (r.ordinal.getD e.next))
      else .ok () := by
  have hdoes := does_request e r
  rw [answer]
  generalize e.request r = x at hdoes
  cases hdoes with
  | sameIdent h => rw [if_pos h]; rfl
  | sameOrdinal hident h => rw [if_neg hident, if_pos h]; rfl
  | accept hident hordinal => rw [if_neg hident, if_neg hordinal]; rfl

/-- A value is accepted if its name and its ordinal are new. -/
theorem answer_eq_ok_iff : e.answer r = .ok () ↔
    r.ident ∉ e.values.map (·.ident) ∧ r.ordinal.getD e.next ∉ e.values.map (·.ordinal) := by
  rw [answer_eq]
  split
  · simp_all
  · split <;> simp_all

/-- A value that is accepted comes last. -/
theorem values_act (h : e.answer r = .ok ()) :
    (e.act r).values = e.values ++ [r.value (r.ordinal.getD e.next)] := by
  obtain ⟨hident, hordinal⟩ := answer_eq_ok_iff.mp h
  have hdoes := does_request e r
  generalize hrequest : e.request r = x at hdoes
  cases hdoes with
  | sameIdent h => exact absurd h hident
  | sameOrdinal _ h => exact absurd h hordinal
  | accept => rw [act_of_request_ok hrequest]

theorem refused_iff : (∃ error, e.answer r = .error error) ↔ ¬ e.answer r = .ok () := by
  cases e.answer r <;> simp

namespace Sound

variable (h : e.Sound) (r : EnumRequest)

include h

/-- A value is refused if its name or its number is taken. -/
theorem refused_iff_taken : (∃ error, e.answer r = .error error) ↔
    r.ident ∈ e.values.map (·.ident) ∨ r.number e.values ∈ e.values.map (·.ordinal.toInt) := by
  rw [refused_iff, answer_eq_ok_iff, h.mem_ordinals_iff, not_and_or, not_not, not_not]

/-- The error says which of the two it is. -/
theorem error_of_refused {error : SchemaError} (herror : e.answer r = .error error) :
    if r.ident ∈ e.values.map (·.ident) then error = .duplicateMember e.owner r.ident
    else ∃ ordinal, ordinal.toInt = r.number e.values ∧
      error = .duplicateOrdinal e.owner r.ident ordinal := by
  rw [answer_eq] at herror
  split
  · next hident =>
    rw [if_pos hident] at herror
    exact (Except.error.inj herror).symm
  · next hident =>
    rw [if_neg hident] at herror
    split at herror
    · exact ⟨_, h.toInt_getD r, (Except.error.inj herror).symm⟩
    · contradiction

variable {r} (hnone : r.ordinal = none)

include hnone

/-- The first value has ordinal zero, if it was given none. -/
theorem getD_of_nil (hempty : e.values = []) : r.ordinal.getD e.next = 0 := by
  rw [← toInt_inj, h.toInt_getD, EnumRequest.number, hnone, hempty]
  rfl

variable {last : EnumValue} (hlast : e.values.getLast? = some last)

include hlast

/-- A value that is accepted without an ordinal of its own has one more than the last. -/
theorem toInt_getD_of_accepted (haccepted : e.answer r = .ok ()) :
    (r.ordinal.getD e.next).toInt = last.ordinal.toInt + 1 := by
  have hfree := (answer_eq_ok_iff.mp haccepted).2
  rw [h.mem_ordinals_iff, EnumRequest.number, hnone] at hfree
  rw [h.toInt_getD, EnumRequest.number, hnone]
  exact following_of_not_mem hlast hfree

/-- Behind the greatest ordinal, a value without a number is refused. -/
theorem answer_of_greatest (hmax : last.ordinal = maxValue)
    (hident : r.ident ∉ e.values.map (·.ident)) :
    e.answer r = .error (.duplicateOrdinal e.owner r.ident maxValue) := by
  have hmem : maxValue ∈ e.values.map (·.ordinal) :=
    hmax ▸ mem_map_of_mem (mem_of_getLast? hlast)
  rw [answer_eq, if_neg hident, hnone, Option.getD_none, h.next_eq_maxValue hlast hmax,
    if_pos hmem]

end Sound

/-- Requests in place do to the tables what they do to the enumeration as a whole. -/
theorem perform_tables (e : Enumeration) (r : EnumRequest) :
    e.tables.perform r = (e.answer r, (e.act r).tables) := by
  have hdoes := does_request e r
  generalize hrequest : e.request r = x at hdoes
  rw [answer, hrequest, EnumTables.perform, EnumTables.push]
  cases hdoes with
  | sameIdent h =>
    have hany : e.values.any (·.ident == r.ident) = true := by simpa using h
    rw [act_of_request_error hrequest]
    simp [tables, hany, Except.map]
  | sameOrdinal hident h =>
    have hany : e.values.any (·.ident == r.ident) = false := by simpa using hident
    -- the ordinal is in the set already, and putting it there changes nothing
    have hinsert : (e.values.map (·.ordinal)).reverse.insert (r.ordinal.getD e.next) =
        (e.values.map (·.ordinal)).reverse := insert_of_mem (mem_reverse.mpr h)
    rw [act_of_request_error hrequest]
    simp only [tables, hany, mem_reverse, h, not_true, if_false, hinsert, Except.map,
      Bool.false_eq_true]
  | accept hident hordinal =>
    have hany : e.values.any (·.ident == r.ident) = false := by simpa using hident
    rw [act_of_request_ok hrequest]
    simp [tables, hany, hordinal, Except.map]

end Enumeration

namespace EnumTables

open Enumeration (collect)

variable {owner : String} {requests : List EnumRequest} {r : EnumRequest}

theorem after_concat (owner : String) (requests : List EnumRequest) (r : EnumRequest) :
    after owner (requests ++ [r]) = ((after owner requests).perform r).2 := by
  simp [after, foldl_append]

/-- Changed in place, the tables are those of the enumeration. -/
theorem after_eq (owner : String) (requests : List EnumRequest) :
    after owner requests = (collect owner requests).tables := by
  induction requests using reverseRecOn with
  | nil => rfl
  | append_singleton requests r ih =>
    rw [after_concat, ih, perform_tables, collect_concat]

theorem values_after (owner : String) (requests : List EnumRequest) :
    (after owner requests).values = (collect owner requests).values := by
  rw [after_eq, tables]

/-- The answers are those of the enumeration, too. -/
theorem answerAfter_eq (owner : String) (requests : List EnumRequest) (r : EnumRequest) :
    answerAfter owner requests r = (collect owner requests).answer r := by
  rw [answerAfter, after_eq, perform_tables]

theorem after_append (owner : String) (requests more : List EnumRequest) :
    after owner (requests ++ more) =
      more.foldl (fun t r => (t.perform r).2) (after owner requests) := by
  simp [after, foldl_append]

/-- What was refused might as well not have been asked. -/
theorem after_of_refused {error : SchemaError} (h : answerAfter owner requests r = .error error)
    (more : List EnumRequest) :
    after owner (requests ++ r :: more) = after owner (requests ++ more) := by
  rw [answerAfter_eq, answer] at h
  have hsame : ((after owner requests).perform r).2 = after owner requests := by
    rw [after_eq, perform_tables]
    cases hrequest : (collect owner requests).request r with
    | ok e => simp [hrequest, Except.map] at h
    | error error' => rw [act_of_request_error hrequest]
  rw [after_append, after_append, foldl_cons, hsame]

/-- What can be told of an enumeration after some requests. -/
structure WellNumbered (owner : String) (requests : List EnumRequest) : Prop where
  /-- The tables are those of the enumeration, and the next request is answered like there. -/
  enumeration : after owner requests = (collect owner requests).tables ∧
    ∀ r, answerAfter owner requests r = (collect owner requests).answer r
  idents : ((after owner requests).values.map (·.ident)).Nodup
  ordinals : ((after owner requests).values.map (·.ordinal)).Nodup
  /-- The set holds the ordinals of the values. -/
  taken : ∀ ordinal, ordinal ∈ (after owner requests).taken ↔
    ordinal ∈ (after owner requests).values.map (·.ordinal)
  /-- A request that is accepted adds its value, with its own ordinal or the one after the last
  value. -/
  accepted : ∀ r, answerAfter owner requests r = .ok () →
    ∃ ordinal, (after owner (requests ++ [r])).values =
        (after owner requests).values ++ [r.value ordinal] ∧
      (∀ own, r.ordinal = some own → ordinal = own) ∧
      (r.ordinal = none → (after owner requests).values = [] → ordinal = 0) ∧
      (∀ last, r.ordinal = none → (after owner requests).values.getLast? = some last →
        ordinal.toInt = last.ordinal.toInt + 1)
  /-- A request is refused exactly when its name or its ordinal is taken. -/
  refused : ∀ r, (∃ error, answerAfter owner requests r = .error error) ↔
    r.ident ∈ (after owner requests).values.map (·.ident) ∨
      r.number (after owner requests).values ∈
        (after owner requests).values.map (·.ordinal.toInt)
  /-- What it is refused for. -/
  error : ∀ r error, answerAfter owner requests r = .error error →
    if r.ident ∈ (after owner requests).values.map (·.ident) then
      error = .duplicateMember owner r.ident
    else ∃ ordinal, ordinal.toInt = r.number (after owner requests).values ∧
      error = .duplicateOrdinal owner r.ident ordinal
  /-- After the greatest ordinal there is no next one. -/
  greatest : ∀ r last, r.ordinal = none → (after owner requests).values.getLast? = some last →
    last.ordinal = Int64.maxValue → r.ident ∉ (after owner requests).values.map (·.ident) →
    answerAfter owner requests r = .error (.duplicateOrdinal owner r.ident Int64.maxValue)
  /-- A request that is refused changes nothing, also not for what comes later. -/
  unchanged : ∀ r error more, answerAfter owner requests r = .error error →
    after owner (requests ++ r :: more) = after owner (requests ++ more)
  /-- The rules for enumerations are obeyed, whatever the type is called. -/
  checked : ∀ types name path,
    Schema.checkShape types ⟨name, path, (collect owner requests).toKind⟩ = .ok ()

/-- **Enumerations are numbered** as they are asked to be, whatever requests come in whatever
order. -/
theorem wellNumbered_after (owner : String) (requests : List EnumRequest) :
    WellNumbered owner requests := by
  have hsound := Enumeration.sound_collect owner requests
  constructor
  case enumeration => exact ⟨after_eq owner requests, answerAfter_eq owner requests⟩
  case unchanged => exact fun r error more h => after_of_refused h more
  case checked =>
    intro types name path
    rw [Schema.checkShape_eq_ok_iff]
    exact ⟨hsound.idents, hsound.ordinals⟩
  case taken =>
    intro ordinal
    rw [after_eq, Enumeration.tables, List.mem_reverse]
  all_goals simp only [values_after, answerAfter_eq]
  case idents => exact hsound.idents
  case ordinals => exact hsound.ordinals
  case accepted =>
    intro r h
    refine ⟨r.ordinal.getD (collect owner requests).next, ?_, ?_, ?_, ?_⟩
    · rw [Enumeration.collect_concat, Enumeration.values_act h]
    · intro own hown
      rw [hown, Option.getD_some]
    · exact fun hnone hempty => hsound.getD_of_nil hnone hempty
    · exact fun last hnone hlast => hsound.toInt_getD_of_accepted hnone hlast h
  case refused => exact hsound.refused_iff_taken
  case error =>
    intro r error h
    have herror := hsound.error_of_refused r h
    rwa [Enumeration.owner_collect] at herror
  case greatest =>
    intro r last hnone hlast hmax hident
    rw [hsound.answer_of_greatest hnone hlast hmax hident, Enumeration.owner_collect]

/-- The name of the second value is taken when it comes again. The value after the refusal follows
the second one. -/
example :
    (after "Align" [⟨"left", "", "", none⟩, ⟨"center", "", "", some 10⟩, ⟨"center", "", "", some 3⟩,
      ⟨"right", "", "", none⟩]).values.map (fun v => (v.ident, v.ordinal)) =
      [("left", 0), ("center", 10), ("right", 11)] := by
  decide

end EnumTables

end Remoting

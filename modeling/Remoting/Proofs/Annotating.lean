import Remoting.Proofs.Fallible
import Remoting.Schema.Annotation

/-!
# Remoting.Proofs.Annotating

Annotations against what is given for them. Texts may be given by position or under the names of
keys, and the two ways come to the same (`Annotations.Determined.positional`). Names are read one
after the other, and the first that does not name a key of the storage class is reported. When all
of them do, a key holds the text that was given for it last; numbers fall back on a default, and
nothing else is held.

Both ways put texts under keys (`Annotations.setAll`) and fill in defaults (`Annotations.fill`).
What these do is told through `Annotations.get`, and names are taken to keys and back by
`Annotations.named`.
-/

namespace Remoting

open List Option

namespace AnnotationKey

variable {key : AnnotationKey} {storage : Storage}

/-- The names of the keys that slots of a storage class take, in the order of their arguments. -/
def names (storage : Storage) : List String := (recognized storage).map name

/-- Different keys have different names. -/
theorem name_injective : Function.Injective name := by
  intro key other h
  revert h
  cases key <;> cases other <;> decide

/-- A key is found by its name. -/
theorem ofName?_eq_some_iff {s : String} : ofName? s = some key ↔ key.name = s := by
  constructor
  · intro h
    simpa using List.find?_some h
  · rintro rfl
    cases key <;> rfl

/-- Arguments come in the order in which annotations are listed, with some keys left out. -/
theorem recognized_eq_filter (storage : Storage) :
    recognized storage = all.filter (· ∈ recognized storage) := by
  cases storage <;> decide

/-- Only keys that the storage class takes have a fallback. -/
theorem mem_recognized_of_fallback {text : String} (h : key.fallback storage = some text) :
    key ∈ recognized storage := by
  revert h
  cases key <;> cases storage <;> simp [fallback, recognized, all]

/-- Only the default of a number has a fallback. -/
theorem fallback_eq (key : AnnotationKey) (storage : Storage) :
    key.fallback storage =
      if key = .default ∧ (storage = .int ∨ storage = .float) then some "0" else none := by
  cases key <;> cases storage <;> rfl

end AnnotationKey

namespace Annotations

open AnnotationKey (recognized names)

variable {storage : Storage} {key : AnnotationKey} {pairs : List (String × String)}

/-! ## Texts under keys -/

/-- Of several texts that are put under a key the last one stays. -/
theorem get_setAll (a : Annotations) (texts : List (AnnotationKey × String))
    (key : AnnotationKey) :
    (a.setAll texts).get key = (texts.reverse.lookup key).or (a.get key) := by
  induction texts generalizing a with
  | nil => rfl
  | cons p texts ih =>
    have hfirst : (a.set p.1 p.2).get key = ([p].lookup key).or (a.get key) := by
      rw [get_set, lookup_cons]
      by_cases h : key = p.1
      · simp [h]
      · simp [h, beq_eq_false_iff_ne.mpr h]
    rw [setAll, List.foldl_cons, ← setAll, ih, hfirst, reverse_cons, lookup_append,
      Option.or_assoc]

/-- Put the fallback of the storage class under one key, if it holds nothing. -/
def fillKey (storage : Storage) (a : Annotations) (key : AnnotationKey) : Annotations :=
  match a.get key, key.fallback storage with
  | none, some text => a.set key text
  | _, _ => a

theorem fill_eq (a : Annotations) (storage : Storage) :
    a.fill storage = (recognized storage).foldl (fillKey storage) a := rfl

/-- Filling one key changes no other. -/
theorem get_fillKey (a : Annotations) (key other : AnnotationKey) :
    (a.fillKey storage key).get other =
      if other = key then (a.get other).or (other.fallback storage) else a.get other := by
  unfold fillKey
  split
  · next htext hfallback =>
    rw [get_set]
    split
    · next heq => rw [heq, htext, hfallback, none_or]
    · rfl
  · next hnot =>
    split
    · next heq =>
      subst heq
      cases htext : a.get other with
      | some text => rfl
      | none =>
        cases hfallback : other.fallback storage with
        | some text => exact absurd hfallback (hnot text htext)
        | none => rfl
    · rfl

/-- Filling several keys fills each that holds nothing. -/
theorem get_foldl_fillKey (keys : List AnnotationKey) (a : Annotations) (key : AnnotationKey) :
    (keys.foldl (fillKey storage) a).get key =
      if key ∈ keys then (a.get key).or (key.fallback storage) else a.get key := by
  induction keys generalizing a with
  | nil => simp
  | cons first keys ih =>
    rw [List.foldl_cons, ih, get_fillKey]
    by_cases hfirst : key = first <;> by_cases hkeys : key ∈ keys <;>
      simp [hfirst, hkeys, Option.or_assoc]

/-- A key that holds nothing gets its fallback, and no other key changes. -/
theorem get_fill (a : Annotations) (storage : Storage) (key : AnnotationKey) :
    (a.fill storage).get key = (a.get key).or (key.fallback storage) := by
  rw [fill_eq, get_foldl_fillKey]
  split
  · rfl
  · next hkey =>
    cases hfallback : key.fallback storage with
    | some text => exact absurd (AnnotationKey.mem_recognized_of_fallback hfallback) hkey
    | none => rw [or_none]

/-! ## Names -/

/-- Names of keys that the storage class takes are read. -/
theorem keyOf_eq_ok_iff {s : String} :
    keyOf storage s = .ok key ↔ key ∈ recognized storage ∧ key.name = s := by
  rw [keyOf, ← AnnotationKey.ofName?_eq_some_iff]
  cases AnnotationKey.ofName? s with
  | none => simp
  | some other =>
    by_cases hother : other ∈ recognized storage
    · simp only [filter_some, decide_eq_true hother, if_true, Except.ok.injEq,
        some.injEq]
      exact ⟨fun h => ⟨h ▸ hother, h⟩, fun h => h.2⟩
    · simp only [filter_some, decide_eq_false hother, Bool.false_eq_true, if_false,
        some.injEq, reduceCtorEq, false_iff, not_and]
      rintro hkey rfl
      exact hother hkey

/-- Other names are refused, and the error says which. -/
theorem keyOf_eq_error_iff {s : String} {error : SchemaError} :
    keyOf storage s = .error error ↔ s ∉ names storage ∧ error = .invalidKey s storage := by
  have hmem : s ∈ names storage ↔ ∃ key, keyOf storage s = .ok key := by
    simp only [keyOf_eq_ok_iff, names, List.mem_map]
  rw [hmem, keyOf]
  split <;> simp [eq_comm]

/-- Texts under keys as texts under the names of the keys. -/
def named (texts : List (AnnotationKey × String)) : List (String × String) :=
  texts.map fun p => (p.1.name, p.2)

/-- Looking under a name is looking under its key. -/
theorem lookup_named (texts : List (AnnotationKey × String)) (key : AnnotationKey) :
    (named texts).lookup key.name = texts.lookup key := by
  induction texts with
  | nil => rfl
  | cons p texts ih =>
    have hname : (key.name == p.1.name) = (key == p.1) := by
      rw [Bool.eq_iff_iff, beq_iff_eq, beq_iff_eq, AnnotationKey.name_injective.eq_iff]
    rw [named, List.map_cons, ← named, lookup_cons, lookup_cons, hname, ih]

/-- A key and its text from a name and a text. -/
def readPair (storage : Storage) (p : String × String) :
    Except SchemaError (AnnotationKey × String) := do
  return (← keyOf storage p.1, p.2)

/-- A pair is read as its key and text. -/
theorem readPair_eq_ok_iff {p : String × String} {q : AnnotationKey × String} :
    readPair storage p = .ok q ↔ q.1 ∈ recognized storage ∧ p = (q.1.name, q.2) := by
  obtain ⟨s, text⟩ := p
  obtain ⟨key, text'⟩ := q
  simp only [readPair, bind_eq_ok_iff, keyOf_eq_ok_iff, pure, Except.pure, Except.ok.injEq,
    Prod.mk.injEq]
  constructor
  · rintro ⟨key, ⟨hkey, rfl⟩, rfl, rfl⟩
    exact ⟨hkey, rfl, rfl⟩
  · rintro ⟨hkey, rfl, rfl⟩
    exact ⟨key, ⟨hkey, rfl⟩, rfl, rfl⟩

/-- A pair with an unknown name is refused. -/
theorem readPair_eq_error_iff {p : String × String} {error : SchemaError} :
    readPair storage p = .error error ↔
      p.1 ∉ names storage ∧ error = .invalidKey p.1 storage := by
  rw [← keyOf_eq_error_iff, readPair, bind_eq_error_iff]
  simp [pure, Except.pure]

/-- Names are read when they are those of keys that the storage class takes. -/
theorem mapM_readPair_eq_ok_iff {texts : List (AnnotationKey × String)} :
    pairs.mapM (readPair storage) = .ok texts ↔
      pairs = named texts ∧ ∀ p ∈ texts, p.1 ∈ recognized storage := by
  induction pairs generalizing texts with
  | nil => cases texts <;> simp [named, pure, Except.pure]
  | cons p pairs ih =>
    simp only [mapM_cons, bind_eq_ok_iff, readPair_eq_ok_iff, ih, pure, Except.pure,
      Except.ok.injEq]
    constructor
    · rintro ⟨q, ⟨hq, rfl⟩, texts, ⟨rfl, htexts⟩, rfl⟩
      exact ⟨rfl, List.forall_mem_cons.mpr ⟨hq, htexts⟩⟩
    · rintro ⟨hpairs, htexts⟩
      obtain ⟨q, texts, rfl, rfl, rfl⟩ := map_eq_cons_iff.mp hpairs.symm
      obtain ⟨hq, htexts⟩ := List.forall_mem_cons.mp htexts
      exact ⟨q, ⟨hq, rfl⟩, texts, ⟨rfl, htexts⟩, rfl⟩

/-- The first name that is not one of a key that the storage class takes. -/
def firstUnknown? (storage : Storage) (pairs : List (String × String)) : Option String :=
  (pairs.map (·.1)).find? (· ∉ names storage)

/-- Reading names fails at the first one that is unknown. -/
theorem mapM_readPair_eq_error_iff {error : SchemaError} :
    pairs.mapM (readPair storage) = .error error ↔
      ∃ s, firstUnknown? storage pairs = some s ∧ error = .invalidKey s storage := by
  induction pairs with
  | nil => simp [firstUnknown?, pure, Except.pure]
  | cons p pairs ih =>
    by_cases hp : p.1 ∈ names storage
    · have hcons : firstUnknown? storage (p :: pairs) = firstUnknown? storage pairs := by
        simp [firstUnknown?, hp]
      obtain ⟨q, hq⟩ : ∃ q, readPair storage p = .ok q := by
        cases hread : readPair storage p with
        | ok q => exact ⟨q, rfl⟩
        | error error => exact absurd hp (readPair_eq_error_iff.mp hread).1
      rw [hcons, ← ih, mapM_cons, hq]
      simp only [bind_eq_error_iff, pure, Except.pure, reduceCtorEq, and_false, exists_false,
        or_false, Except.ok.injEq, exists_eq_left', false_or]
    · have hcons : firstUnknown? storage (p :: pairs) = some p.1 := by
        simp [firstUnknown?, hp]
      have hread : readPair storage p = .error (.invalidKey p.1 storage) :=
        readPair_eq_error_iff.mpr ⟨hp, rfl⟩
      rw [hcons, mapM_cons, hread]
      simp [bind, Except.bind, eq_comm]

/-! ## Both ways -/

section Ways

variable (hstorage : recognized storage ≠ [])

include hstorage

theorem recognizedKeys_eq_ok : recognizedKeys storage = .ok (recognized storage) := by
  unfold recognizedKeys
  split
  · next hnone => exact absurd hnone hstorage
  · rfl

/-- Pairs are read and set in their order, and what is missing is filled. -/
theorem ofPairs_eq_map (pairs : List (String × String)) :
    ofPairs storage pairs = (pairs.mapM (readPair storage)).map fun texts =>
      (({} : Annotations).setAll texts).fill storage := by
  rw [ofPairs, recognizedKeys_eq_ok hstorage]
  rfl

/-- Arguments are set under the keys in their order, unless there are too many. -/
theorem ofPositional_eq_ite (args : List String) :
    ofPositional storage args =
      if (recognized storage).length < args.length then
        .error (.tooManyArguments storage args.length (recognized storage).length)
      else
        .ok ((({} : Annotations).setAll ((recognized storage).zip args)).fill storage) := by
  rw [ofPositional, recognizedKeys_eq_ok hstorage]
  rfl

end Ways

/-- Where no key is taken, there are no annotations. -/
theorem ofPairs_of_recognized_nil (hstorage : recognized storage = [])
    (pairs : List (String × String)) : ofPairs storage pairs = .error (.noAnnotations storage) := by
  rw [ofPairs, recognizedKeys, hstorage]
  rfl

/-! ## What is held -/

theorem lookup_reverse_eq_none_iff {s : String} :
    pairs.reverse.lookup s = none ↔ s ∉ pairs.map (·.1) := by
  rw [lookup_eq_none_iff]
  simp only [mem_reverse, bne_iff_ne, List.mem_map, not_exists, not_and]
  exact forall₂_congr fun _ _ => ne_comm

/-- Of several texts under a name the last one counts. -/
theorem lookup_reverse_of_last {s text : String} {before after : List (String × String)}
    (hafter : s ∉ after.map (·.1)) :
    (before ++ (s, text) :: after).reverse.lookup s = some text := by
  have hnone := lookup_reverse_eq_none_iff.mpr hafter
  simp [lookup_append, hnone]

/-- Annotations under names come of texts under keys that the storage class takes. -/
theorem exists_texts_of_ofPairs {a : Annotations} (h : ofPairs storage pairs = .ok a) :
    ∃ texts, pairs = named texts ∧ (∀ p ∈ texts, p.1 ∈ recognized storage) ∧
      a = (({} : Annotations).setAll texts).fill storage := by
  by_cases hstorage : recognized storage = []
  · rw [ofPairs_of_recognized_nil hstorage] at h
    contradiction
  · rw [ofPairs_eq_map hstorage, map_eq_ok_iff] at h
    obtain ⟨texts, hread, rfl⟩ := h
    obtain ⟨hpairs, htexts⟩ := mapM_readPair_eq_ok_iff.mp hread
    exact ⟨texts, hpairs, htexts, rfl⟩

/-- What a key holds in the end. -/
theorem get_fill_setAll (texts : List (AnnotationKey × String)) (storage : Storage)
    (key : AnnotationKey) :
    ((({} : Annotations).setAll texts).fill storage).get key =
      (texts.reverse.lookup key).or (key.fallback storage) := by
  have hempty : ({} : Annotations).get key = none := by cases key <;> rfl
  rw [get_fill, get_setAll, hempty, or_none]

section Held

variable {a : Annotations} (h : ofPairs storage pairs = .ok a)

include h

/-- A key holds the last text under its name, or its fallback. -/
theorem get_of_ofPairs (key : AnnotationKey) :
    a.get key = (pairs.reverse.lookup key.name).or (key.fallback storage) := by
  obtain ⟨texts, rfl, -, rfl⟩ := exists_texts_of_ofPairs h
  have hreverse : (named texts).reverse = named texts.reverse := by
    rw [named, named, map_reverse]
  rw [get_fill_setAll, hreverse, lookup_named]

/-- Only keys that the storage class takes hold something. -/
theorem get_eq_none_of_ofPairs (hkey : key ∉ recognized storage) : a.get key = none := by
  obtain ⟨texts, -, htexts, rfl⟩ := exists_texts_of_ofPairs h
  rw [get_fill_setAll, or_eq_none_iff]
  constructor
  · rw [lookup_eq_none_iff]
    intro p hp
    rw [bne_iff_ne]
    rintro rfl
    exact hkey (htexts p (mem_reverse.mp hp))
  · exact eq_none_iff_forall_not_mem.mpr fun text htext =>
      hkey (AnnotationKey.mem_recognized_of_fallback htext)

end Held

/-- The annotations of a slot hold what was given under the names of their keys. -/
structure Holds (storage : Storage) (pairs : List (String × String)) (a : Annotations) : Prop where
  /-- Of several texts for one key the last one counts. -/
  last : ∀ before key text after, pairs = before ++ (AnnotationKey.name key, text) :: after →
    key.name ∉ after.map (·.1) → a.get key = some text
  /-- A number for which no default was given has one. -/
  default : AnnotationKey.default.name ∉ pairs.map (·.1) → storage = .int ∨ storage = .float →
    a.get .default = some "0"
  /-- Nothing else is held. -/
  nothing : ∀ key, key.name ∉ pairs.map (·.1) →
    ¬ (key = .default ∧ (storage = .int ∨ storage = .float)) → a.get key = none
  /-- What is held is listed in the order of the arguments. -/
  listed : a.entries = (recognized storage).filterMap fun key => (a.get key).map (key, ·)

theorem holds_of_ofPairs {a : Annotations} (h : ofPairs storage pairs = .ok a) :
    a.Holds storage pairs where
  last before key text after hpairs hafter := by
    rw [get_of_ofPairs h, hpairs, lookup_reverse_of_last hafter, some_or]
  default hnone hnumber := by
    rw [get_of_ofPairs h, lookup_reverse_eq_none_iff.mpr hnone, none_or,
      AnnotationKey.fallback_eq, if_pos ⟨rfl, hnumber⟩]
  nothing key hnone hdefault := by
    rw [get_of_ofPairs h, lookup_reverse_eq_none_iff.mpr hnone, none_or,
      AnnotationKey.fallback_eq, if_neg hdefault]
  listed := by
    rw [entries, AnnotationKey.recognized_eq_filter storage, List.filterMap_filter]
    refine filterMap_congr fun key _ => ?_
    split
    · rfl
    · next hkey =>
      rw [get_eq_none_of_ofPairs h (by simpa using hkey), map_none]

/-- The annotations of a storage class are determined by what is given for them. -/
structure Determined (storage : Storage) : Prop where
  /-- Arguments are texts under the names of the keys, in their order. -/
  positional : ∀ args, args.length ≤ (recognized storage).length →
    ofPositional storage args = ofPairs storage ((names storage).zip args)
  tooMany : ∀ args, (recognized storage).length < args.length →
    ofPositional storage args =
      .error (.tooManyArguments storage args.length (recognized storage).length)
  /-- The first name that is not one of a key is reported. -/
  refused : ∀ pairs error, ofPairs storage pairs = .error error ↔
    ∃ s, firstUnknown? storage pairs = some s ∧ error = .invalidKey s storage
  /-- Without such a name there are annotations. -/
  accepted : ∀ pairs, (∀ p ∈ pairs, p.1 ∈ names storage) →
    ∃ a, ofPairs storage pairs = .ok a ∧ a.Holds storage pairs

/-- **Annotations are determined** by what is given for them, in one way or the other, wherever
annotations are taken at all. -/
theorem determined (storage : Storage) (hstorage : recognized storage ≠ []) :
    Determined storage where
  positional args hargs := by
    have hread : ((names storage).zip args).mapM (readPair storage) =
        .ok ((recognized storage).zip args) := by
      rw [mapM_readPair_eq_ok_iff, names, List.zip_map_left]
      exact ⟨rfl, fun p hp => (List.of_mem_zip hp).1⟩
    rw [ofPositional_eq_ite hstorage, if_neg (Nat.not_lt.mpr hargs), ofPairs_eq_map hstorage, hread]
    rfl
  tooMany args hargs := by
    rw [ofPositional_eq_ite hstorage, if_pos hargs]
  refused pairs error := by
    rw [ofPairs_eq_map hstorage, map_eq_error_iff, mapM_readPair_eq_error_iff]
  accepted pairs hpairs := by
    cases h : ofPairs storage pairs with
    | ok a => exact ⟨a, rfl, holds_of_ofPairs h⟩
    | error error =>
      rw [ofPairs_eq_map hstorage, map_eq_error_iff, mapM_readPair_eq_error_iff] at h
      obtain ⟨s, hs, -⟩ := h
      obtain ⟨p, hp, rfl⟩ := List.mem_map.mp (List.mem_of_find?_eq_some hs)
      have hunknown := List.find?_some hs
      exact absurd (hpairs p hp) (by simpa using hunknown)

/-- Texts can be annotated, and what is given determines how. -/
theorem determined_string : recognized .string ≠ [] ∧ Determined .string :=
  ⟨by decide, determined .string (by decide)⟩

/-- The fourth argument of a text is a hint, since a text has no bounds. -/
example :
    (ofPositional .string ["Title", "", "Untitled", "ro"]).map entries =
      .ok [(.label, "Title"), (.blurb, ""), (.default, "Untitled"), (.hints, "ro")] := by
  decide

/-- The first name that is unknown is reported, also where it names a key of other classes. -/
example :
    ofPairs .string [("label", "Title"), ("min", "0"), ("colour", "red")] =
      .error (.invalidKey "min" .string) := by
  decide

end Annotations

end Remoting

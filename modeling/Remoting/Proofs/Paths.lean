import Mathlib
import Remoting.Schema.Type

/-!
# Remoting.Proofs.Paths

Written paths and their segments. A text either has no separator, and is one part, or it falls into
what stands before its first separator and what comes behind it (`leftmost_induction`).

A segment may hold a single `:`, and then it matters what comes next to it: written one after the
other, `A:` and `B` read as `A` and `:B`. `IsPath` says which segments can be told apart when they
are written. The segments of a text are such (`isPath_splitPath`), and such segments are those of
the path that is written with them (`splitPath_joinPath`).
-/

namespace Remoting.Schema

variable {path : List String} {name s text : String}

/-! ## Separators -/

/-- What stands between the segments of a written path. -/
def separator : List Char := [':', ':']

variable {cs xs ys part : List Char}

theorem not_separator_infix_of_colon_free (h : ':' ∉ cs) : ¬ separator <:+: cs ++ [':'] := by
  intro hinside
  have hcount := hinside.sublist.count_le ':'
  rw [List.count_append, List.count_eq_zero_of_not_mem h] at hcount
  revert hcount
  decide

/-- A text with a separator falls into two at the first one. -/
theorem exists_leftmost (h : separator <:+: cs) :
    ∃ xs ys, cs = xs ++ separator ++ ys ∧ ¬ separator <:+: xs ++ [':'] := by
  induction cs with
  | nil => simp [separator] at h
  | cons c cs ih =>
    by_cases hfirst : separator <+: c :: cs
    · obtain ⟨ys, hys⟩ := hfirst
      exact ⟨[], ys, hys.symm, by decide⟩
    · have hrest : separator <:+: cs := by
        rcases List.infix_cons_iff.mp h with hfront | hinside
        · exact absurd hfront hfirst
        · exact hinside
      obtain ⟨xs, ys, rfl, hleft⟩ := ih hrest
      refine ⟨c :: xs, ys, rfl, fun hinside => ?_⟩
      rcases List.infix_cons_iff.mp hinside with hfront | hinside
      · exact hfirst (hfront.trans ⟨':' :: ys, by simp [separator]⟩)
      · exact hleft hinside

/-- Texts are whole, or have a part before their first separator. -/
@[elab_as_elim]
theorem leftmost_induction {P : List Char → Prop} (whole : ∀ cs, ¬ separator <:+: cs → P cs)
    (parts : ∀ xs ys, ¬ separator <:+: xs ++ [':'] → P ys → P (xs ++ separator ++ ys))
    (cs : List Char) : P cs := by
  by_cases h : separator <:+: cs
  · obtain ⟨xs, ys, hcs, hleft⟩ := exists_leftmost h
    have hlt : ys.length < cs.length := by
      simp only [hcs, List.length_append]
      simp only [separator, List.length_cons]
      omega
    rw [hcs]
    exact parts xs ys hleft (leftmost_induction whole parts ys)
  · exact whole cs h
termination_by cs.length

/-! ## Parts -/

theorem pathParts_of_whole (h : ¬ separator <:+: cs) :
    pathParts part cs = [part.reverse ++ cs] := by
  fun_induction pathParts part cs with
  | case1 part => simp
  | case2 part cs ih => exact absurd ⟨[], cs, rfl⟩ h
  | case3 part c cs hne ih =>
    rw [ih fun hinside => h (List.infix_cons_iff.mpr (.inr hinside))]
    simp

theorem pathParts_append (h : ¬ separator <:+: xs ++ [':']) :
    pathParts part (xs ++ separator ++ ys) = (part.reverse ++ xs) :: pathParts [] ys := by
  induction xs generalizing part with
  | nil => simp [separator, pathParts]
  | cons c xs ih =>
    -- the separator is not met before its place
    have hnext : ∀ rest, c = ':' → xs ++ separator ++ ys = ':' :: rest → False := by
      rintro rest rfl hrest
      cases xs with
      | nil => exact h ⟨[], [], rfl⟩
      | cons d xs =>
        obtain ⟨rfl, -⟩ := List.cons.inj hrest
        exact h ⟨[], xs ++ [':'], rfl⟩
    rw [List.cons_append, List.cons_append, pathParts.eq_3 _ _ _ hnext,
      ih fun hinside => h (List.infix_cons_iff.mpr (.inr hinside))]
    simp

/-! ## Segments -/

/-- The segments of a text. -/
def segments (cs : List Char) : List String :=
  ((pathParts [] cs).filter (!·.isEmpty)).map String.ofList

theorem splitPath_eq (s : String) : splitPath s = segments s.toList := rfl

theorem segments_of_whole (h : ¬ separator <:+: cs) (hne : cs ≠ []) :
    segments cs = [String.ofList cs] := by
  simp [segments, pathParts_of_whole h, hne]

theorem segments_append (h : ¬ separator <:+: xs ++ [':']) :
    segments (xs ++ separator ++ ys) =
      if xs = [] then segments ys else String.ofList xs :: segments ys := by
  rw [segments, pathParts_append h]
  split <;> simp_all [segments]

/-- Segments that can be told apart when they are written one after the other. -/
def IsPath : List String → Prop
  | [] => True
  | [s] => s ≠ "" ∧ ¬ separator <:+: s.toList
  | s :: t :: path => s ≠ "" ∧ ¬ separator <:+: s.toList ++ [':'] ∧ IsPath (t :: path)

theorem isPath_segments (cs : List Char) : IsPath (segments cs) := by
  induction cs using leftmost_induction with
  | whole cs h =>
    cases cs with
    | nil => trivial
    | cons c cs =>
      rw [segments_of_whole h (List.cons_ne_nil c cs)]
      exact ⟨by simp, by rwa [String.toList_ofList]⟩
  | parts xs ys h ih =>
    rw [segments_append h]
    split
    · exact ih
    · next hne =>
      have hxs : String.ofList xs ≠ "" := by simpa using hne
      cases hys : segments ys with
      | nil =>
        refine ⟨hxs, fun hinside => h ?_⟩
        rw [String.toList_ofList] at hinside
        exact hinside.trans (List.prefix_append xs [':']).isInfix
      | cons t path => exact ⟨hxs, by rwa [String.toList_ofList], hys ▸ ih⟩

/-- The segments of a written path can be told apart. -/
theorem isPath_splitPath (s : String) : IsPath (splitPath s) := isPath_segments s.toList

/-- A path has the segments that it is written with. -/
theorem splitPath_joinPath (h : IsPath path) : splitPath (joinPath path) = path := by
  fun_induction IsPath path with
  | case1 => rfl
  | case2 s =>
    obtain ⟨hne, hwhole⟩ := h
    have hlist : s.toList ≠ [] := by simpa using hne
    rw [joinPath, String.intercalate_singleton, splitPath_eq, segments_of_whole hwhole hlist,
      String.ofList_toList]
  | case3 s t path ih =>
    obtain ⟨hne, hleft, hpath⟩ := h
    have hlist : s.toList ≠ [] := by simpa using hne
    have hjoin : (joinPath (s :: t :: path)).toList =
        s.toList ++ separator ++ (joinPath (t :: path)).toList := by
      rw [joinPath, String.intercalate_cons_cons]
      simp [joinPath, separator]
    rw [splitPath_eq, hjoin, segments_append hleft, if_neg hlist, ← splitPath_eq, ih hpath,
      String.ofList_toList]

theorem joinPath_singleton (s : String) : joinPath [s] = s := String.intercalate_singleton

theorem joinPath_concat (h : path ≠ []) (s : String) :
    joinPath (path ++ [s]) = joinPath path ++ "::" ++ s := by
  unfold joinPath
  rw [String.intercalate_append_of_ne_nil h (List.cons_ne_nil s []), String.intercalate_singleton]

/-- A name that is a path of its own has itself as its only segment. -/
theorem splitPath_of_isPath (h : IsPath [name]) : splitPath name = [name] := by
  have hsplit := splitPath_joinPath h
  rwa [joinPath_singleton] at hsplit

theorem ne_empty_of_mem_splitPath (h : s ∈ splitPath text) : s ≠ "" := by
  obtain ⟨cs, hcs, rfl⟩ := List.mem_map.mp h
  have hne := (List.mem_filter.mp hcs).2
  simpa using hne

/-- Segments without a `:` can be told apart. -/
theorem isPath_of_colon_free (hne : ∀ s ∈ path, s ≠ "")
    (hfree : ∀ s ∈ path, ':' ∉ s.toList) : IsPath path := by
  fun_induction IsPath path with
  | case1 => trivial
  | case2 s =>
    refine ⟨hne s List.mem_cons_self, fun hinside => ?_⟩
    exact not_separator_infix_of_colon_free (hfree s List.mem_cons_self)
      (hinside.trans (List.prefix_append _ _).isInfix)
  | case3 s t path ih =>
    obtain ⟨hs, hne⟩ := List.forall_mem_cons.mp hne
    obtain ⟨hs', hfree⟩ := List.forall_mem_cons.mp hfree
    exact ⟨hs, not_separator_infix_of_colon_free hs', ih hne hfree⟩

/-- A name without a `:` can be told apart from the segments before it if they have none either. -/
theorem isPath_splitPath_concat (hsegments : ∀ s ∈ splitPath text, ':' ∉ s.toList) (hne : name ≠ "")
    (hfree : ':' ∉ name.toList) : IsPath (splitPath text ++ [name]) := by
  apply isPath_of_colon_free
  · rw [List.forall_mem_append, List.forall_mem_singleton]
    exact ⟨fun s => ne_empty_of_mem_splitPath, hne⟩
  · rw [List.forall_mem_append, List.forall_mem_singleton]
    exact ⟨hsegments, hfree⟩

/-- The last segment of a text is a path of its own. -/
theorem isPath_of_getLast? (h : IsPath path) (hs : path.getLast? = some s) : IsPath [s] := by
  fun_induction IsPath path with
  | case1 => contradiction
  | case2 t =>
    cases hs
    exact h
  | case3 t u path ih => exact ih h.2.2 hs

end Remoting.Schema

namespace Remoting.TypeInfo

open Schema (joinPath)

/-- A qualified name is a written path. -/
theorem qualifiedName_eq (info : TypeInfo) :
    info.qualifiedName = joinPath (info.path ++ [info.name]) := by
  unfold qualifiedName
  cases info.path with
  | nil => exact (Schema.joinPath_singleton info.name).symm
  | cons s path => exact (Schema.joinPath_concat (List.cons_ne_nil s path) info.name).symm

end Remoting.TypeInfo

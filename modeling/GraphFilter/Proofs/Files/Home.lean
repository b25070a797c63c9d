import GraphFilter.Files.Path
import Mathlib.Data.List.Infix

/-!
# Paths relative to the home directory

A path that begins with `~/` is joined to the home directory.  As long as what follows is a
relative path, the result leads through the home directory.  A further slash makes it an absolute
one, which replaces the directory that it is joined to.

Main results:

- Theorem {lit}`Path.names_join`: the names along a joined path.
- Theorem {lit}`Host.expand_tilde`: what paths with a tilde are expanded to, and which of them
  lead through the home directory.
- Theorem {lit}`Host.expand_of_home_none`: without a home directory a tilde is a name like any
  other.
-/

namespace GraphFilter

namespace Path

/-! ## Names along a path -/

/-- The names along a path: the words between its slashes, without empty words and dots. -/
def names (path : List Char) : List (List Char) :=
  (components path).filter fun word => word ≠ [] ∧ word ≠ ['.']

theorem components_ne_nil (path : List Char) : components path ≠ [] := by
  cases path with
  | nil => simp [components]
  | cons c rest =>
    rw [components]
    split
    · simp
    · split <;> simp

/-- A slash separates words. -/
theorem components_append_slash (front rest : List Char) :
    components (front ++ '/' :: rest) = components front ++ components rest := by
  induction front with
  | nil => simp [components]
  | cons c front ih =>
    rw [List.cons_append, components, components]
    split
    · rw [ih, List.cons_append]
    · rw [ih]
      cases hwords : components front with
      | nil => exact absurd hwords (components_ne_nil front)
      | cons word words => rfl

theorem names_append_slash (front rest : List Char) :
    names (front ++ '/' :: rest) = names front ++ names rest := by
  rw [names, components_append_slash, List.filter_append]
  rfl

/-! ## Joined paths -/

/-- A directory with a slash behind it. -/
def withSlash (base : List Char) : List Char :=
  if base.getLast? = some '/' then base else base ++ ['/']

theorem join_eq_withSlash {base path : List Char} (hbase : isAbsolute base = true)
    (hpath : isAbsolute path = false) : join base path = withSlash base ++ path := by
  have hne : base.isEmpty = false := by
    cases base with
    | nil => cases hbase
    | cons c rest => rfl
  rw [join, hpath, if_neg Bool.false_ne_true, hne, Bool.false_or, withSlash]
  by_cases hlast : base.getLast? = some '/'
  · rw [if_pos hlast, if_pos (by simp [hlast])]
  · rw [if_neg hlast, if_neg (by simpa using hlast), List.append_assoc, List.singleton_append]

/-- The names along a joined path are those of the directory, then those of the path. -/
theorem names_withSlash_append (base path : List Char) :
    names (withSlash base ++ path) = names base ++ names path := by
  unfold withSlash
  split
  · rename_i hlast
    rcases List.getLast?_eq_some_iff.mp hlast with ⟨front, rfl⟩
    rw [List.append_assoc, List.singleton_append, names_append_slash, names_append_slash]
    simp [names, components]
  · rw [List.append_assoc, List.singleton_append, names_append_slash]

theorem names_join {base path : List Char} (hbase : isAbsolute base = true)
    (hpath : isAbsolute path = false) : names (join base path) = names base ++ names path := by
  rw [join_eq_withSlash hbase hpath, names_withSlash_append]

theorem isAbsolute_join {base : List Char} (hbase : isAbsolute base = true) (path : List Char) :
    isAbsolute (join base path) = true := by
  by_cases hpath : isAbsolute path = true
  · rwa [join_of_isAbsolute hpath]
  · rw [Bool.not_eq_true] at hpath
    rw [join_eq_withSlash hbase hpath, withSlash]
    cases base with
    | nil => cases hbase
    | cons c rest => split <;> exact hbase

/-- Whether a path leads through a directory: it starts at the root, and the names along it begin
with those of the directory. -/
def LeadsThrough (path base : List Char) : Prop :=
  isAbsolute path = true ∧ names base <+: names path

/-- A path that is joined to a directory leads through it, unless it is an absolute path that
leads elsewhere. -/
theorem leadsThrough_join_iff {base : List Char} (hbase : isAbsolute base = true)
    (path : List Char) :
    LeadsThrough (join base path) base ↔ isAbsolute path = false ∨ names base <+: names path := by
  rw [LeadsThrough, and_iff_right (isAbsolute_join hbase path)]
  by_cases hpath : isAbsolute path = true
  · simp [hpath]
  · rw [Bool.not_eq_true] at hpath
    rw [names_join hbase hpath]
    simp [hpath]

/-! ## The home directory -/

section Tilde

variable {home path rest : List Char} {directory : Option (List Char)}

theorem expandChars_of_tilde (hhome : isAbsolute home = true) (h : Text.trim path = ['~']) :
    expandChars (some home) directory path = home := by
  rw [expandChars, h]
  exact if_pos hhome

theorem expandChars_of_tilde_slash (hhome : isAbsolute home = true)
    (h : Text.trim path = '~' :: '/' :: rest) :
    expandChars (some home) directory path = join home rest := by
  rw [expandChars, h]
  exact if_pos (isAbsolute_join hhome rest)

end Tilde

end Path

open GraphFilter.Path (isAbsolute names withSlash LeadsThrough)

namespace Host

/-- With an absolute home directory, `~` stands for this directory.  What begins with `~/` stands
for the directory, a slash and the rest if the rest does not begin with a slash, and otherwise for
the rest alone, which leads through the home directory only if it names that itself. -/
theorem expand_tilde {host : Host} {home : String} (hhome : host.home = some home)
    (habsolute : isAbsolute home.toList = true) (path : String) :
    (Text.trim path.toList = ['~'] → host.expand path = home) ∧
    ∀ rest, Text.trim path.toList = '~' :: '/' :: rest →
      (isAbsolute rest = false →
        (host.expand path).toList = withSlash home.toList ++ rest) ∧
      (isAbsolute rest = true → (host.expand path).toList = rest) ∧
      (LeadsThrough (host.expand path).toList home.toList ↔
        isAbsolute rest = false ∨ names home.toList <+: names rest) := by
  constructor
  · intro htrim
    rw [expand, hhome, Option.map_some, Path.expandChars_of_tilde habsolute htrim,
      String.ofList_toList]
  · intro rest htrim
    rw [expand, hhome, Option.map_some, Path.expandChars_of_tilde_slash habsolute htrim,
      String.toList_ofList]
    exact ⟨Path.join_eq_withSlash habsolute, Path.join_of_isAbsolute,
      Path.leadsThrough_join_iff habsolute rest⟩

/-- Blanks around the path do not count, and slashes further on do no harm. -/
theorem expand_tilde_slashes :
    (expand ⟨some "/root", some "/work", fun _ => .directory⟩ " ~/a//../b ").toList =
        "/root/a//../b".toList ∧
      LeadsThrough "/root/a//../b".toList "/root".toList := by
  obtain ⟨-, hrest⟩ := @expand_tilde ⟨some "/root", some "/work", fun _ => .directory⟩ "/root" rfl
    (by decide) " ~/a//../b "
  obtain ⟨hjoined, -, hleads⟩ := hrest "a//../b".toList (by decide)
  have htext := hjoined (by decide)
  rw [htext] at hleads ⊢
  exact ⟨by decide, hleads.mpr (.inl (by decide))⟩

/-- A second slash behind the tilde leads away from the home directory. -/
theorem expand_tilde_root :
    Text.trim "~//etc".toList = '~' :: '/' :: "/etc".toList ∧
      expand ⟨some "/root", some "/work", fun _ => .directory⟩ "~//etc" = "/etc" ∧
      ¬LeadsThrough "/etc".toList "/root".toList := by
  refine ⟨by decide, by decide, ?_⟩
  rintro ⟨-, hprefix⟩
  exact absurd hprefix (by decide)

/-- Without a home directory a tilde is a name like any other, below the current directory. -/
theorem expand_of_home_none {host : Host} {directory : String} (hhome : host.home = none)
    (hdirectory : host.directory = some directory) (path : String) :
    (host.expand path).toList =
      if Text.trim path.toList = [] then directory.toList
      else Path.join directory.toList (Text.trim path.toList) := by
  rw [expand, hhome, hdirectory, Option.map_none, Option.map_some, String.toList_ofList,
    Path.expandChars]
  by_cases hempty : Text.trim path.toList = []
  · rw [if_pos hempty, hempty]
    rfl
  · rw [if_neg hempty, if_neg (by simpa using hempty), Path.expandHome_none]
    by_cases habsolute : isAbsolute (Text.trim path.toList) = true
    · rw [if_pos habsolute, Path.join_of_isAbsolute habsolute]
    · rw [if_neg habsolute]
      rfl

end Host

end GraphFilter

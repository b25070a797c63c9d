import GraphFilter.Text.Blank
import Mathlib.Data.List.Basic
import Mathlib.Data.List.TakeWhile

/-!
# Texts without blanks around them

Trimming a text gives the one part of it that has no blank at either end and nothing but
blanks around it.

Main results:

- Theorem {lit}`trim_eq_iff`: the text that trimming gives.
- Theorem {lit}`splitWord_append_of_word`: the cut behind a first word.
-/

namespace GraphFilter.Text

/-! ## Runs of blanks -/

/-- Whether a text has no characters but blanks. -/
def Blanks (s : List Char) : Prop :=
  ∀ c ∈ s, isBlank c = true

/-- Whether a text has no blanks. -/
def Unbroken (s : List Char) : Prop :=
  ∀ c ∈ s, isBlank c = false

/-- Whether a text has no blank at either end. -/
structure Bare (s : List Char) : Prop where
  head : ∀ c ∈ s.head?, isBlank c = false
  last : ∀ c ∈ s.getLast?, isBlank c = false

/-- A text and what is left of it without the blanks around it. -/
def TrimsTo (s t : List Char) : Prop :=
  Bare t ∧ ∃ before behind, s = before ++ t ++ behind ∧ Blanks before ∧ Blanks behind

theorem Unbroken.bare {s : List Char} (h : Unbroken s) : Bare s where
  head c hc := h c (List.mem_of_mem_head? hc)
  last c hc := h c (List.mem_of_mem_getLast? hc)

/-! ## The front and the back -/

/-- A text that does not begin with a blank keeps its front. -/
theorem trimStart_of_head {s : List Char} (h : ∀ c ∈ s.head?, isBlank c = false) :
    trimStart s = s := by
  cases s with
  | nil => rfl
  | cons c rest =>
    have hc : isBlank c = false := h c rfl
    simp [trimStart, hc]

/-- Blanks in front are removed, whatever follows. -/
theorem trimStart_append_of_blanks {before : List Char} (h : Blanks before) (s : List Char) :
    trimStart (before ++ s) = trimStart s :=
  List.dropWhile_append_of_pos h

/-- Nothing but blanks is removed in front. -/
theorem exists_eq_append_trimStart (s : List Char) :
    ∃ before, s = before ++ trimStart s ∧ Blanks before := by
  refine ⟨s.takeWhile isBlank, List.takeWhile_append_dropWhile.symm, ?_⟩
  intro c hc
  exact List.mem_takeWhile_imp hc

/-- What is left does not begin with a blank. -/
theorem head_trimStart (s : List Char) : ∀ c ∈ (trimStart s).head?, isBlank c = false := by
  intro c hc
  have hnot := List.head?_dropWhile_not isBlank s
  rw [trimStart, Option.mem_def] at hc
  rw [hc] at hnot
  exact hnot

/-- The back of a text is the front of the reversed one. -/
theorem trimEnd_eq_reverse (s : List Char) : trimEnd s = (trimStart s.reverse).reverse :=
  rfl

/-- Nothing but blanks is removed at the back. -/
theorem exists_eq_trimEnd_append (s : List Char) :
    ∃ behind, s = trimEnd s ++ behind ∧ Blanks behind := by
  rcases exists_eq_append_trimStart s.reverse with ⟨behind, heq, hblanks⟩
  refine ⟨behind.reverse, ?_, ?_⟩
  · rw [trimEnd_eq_reverse, ← List.reverse_append, ← heq, List.reverse_reverse]
  · intro c hc
    exact hblanks c (List.mem_reverse.mp hc)

/-! ## Trimming -/

/-- Blanks are removed from a text without blanks at its ends, and nothing else. -/
theorem trim_of_trimsTo {s t : List Char} (h : TrimsTo s t) : trim s = t := by
  rcases h with ⟨hbare, before, behind, rfl, hbefore, hbehind⟩
  have hback : trimEnd (t ++ behind) = t := by
    have hbehind' : Blanks behind.reverse := fun c hc => hbehind c (List.mem_reverse.mp hc)
    have hlast : ∀ c ∈ t.reverse.head?, isBlank c = false := by
      simpa using hbare.last
    rw [trimEnd_eq_reverse, List.reverse_append, trimStart_append_of_blanks hbehind',
      trimStart_of_head hlast, List.reverse_reverse]
  rw [trim, List.append_assoc, trimStart_append_of_blanks hbefore]
  by_cases ht : t = []
  · have hfront : trimStart behind = [] := List.dropWhile_eq_nil_iff.mpr hbehind
    rw [ht, List.nil_append, hfront]
    rfl
  · have hhead : ∀ c ∈ (t ++ behind).head?, isBlank c = false := by
      rw [List.head?_append_of_ne_nil t ht]
      exact hbare.head
    rw [trimStart_of_head hhead, hback]

/-- What trimming gives is the text without the blanks around it. -/
theorem trimsTo_trim (s : List Char) : TrimsTo s (trim s) := by
  rcases exists_eq_append_trimStart s with ⟨before, hfront, hbefore⟩
  rcases exists_eq_trimEnd_append (trimStart s) with ⟨behind, hback, hbehind⟩
  refine ⟨⟨?_, ?_⟩, before, behind, ?_, hbefore, hbehind⟩
  · intro c hc
    refine head_trimStart s c ?_
    rw [hback]
    exact List.mem_head?_append_of_mem_head? hc
  · intro c hc
    refine head_trimStart (trimStart s).reverse c ?_
    rwa [trim, trimEnd_eq_reverse, List.getLast?_reverse] at hc
  · rw [trim, List.append_assoc, ← hback]
    exact hfront

/-- The text that trimming gives. -/
theorem trim_eq_iff {s t : List Char} : trim s = t ↔ TrimsTo s t := by
  constructor
  · rintro rfl
    exact trimsTo_trim s
  · exact trim_of_trimsTo

/-- A text that does not end with a blank loses no more than blanks in front. -/
theorem exists_eq_append_trim {s : List Char} (h : ∀ c ∈ s.getLast?, isBlank c = false) :
    ∃ before, s = before ++ trim s ∧ Blanks before := by
  rcases trimsTo_trim s with ⟨-, before, behind, heq, hbefore, hbehind⟩
  have hnil : behind = [] := by
    by_contra hne
    have hlast : s.getLast? = some (behind.getLast hne) := by
      rw [heq, List.getLast?_append_of_ne_nil _ hne, List.getLast?_eq_some_getLast hne]
    have hblank := hbehind _ (List.getLast_mem hne)
    rw [h _ hlast] at hblank
    cases hblank
  rw [hnil, List.append_nil] at heq
  exact ⟨before, heq, hbefore⟩

/-- A text that begins with a blank and ends without one is blanks and then something else. -/
theorem exists_blanks_append {s : List Char} (hne : s ≠ [])
    (hhead : ∀ c ∈ s.head?, isBlank c = true) (hlast : ∀ c ∈ s.getLast?, isBlank c = false) :
    ∃ blanks, s = blanks ++ trim s ∧ Blanks blanks ∧ blanks ≠ [] ∧ trim s ≠ [] := by
  rcases exists_eq_append_trim hlast with ⟨blanks, heq, hblanks⟩
  refine ⟨blanks, heq, hblanks, ?_, ?_⟩
  · rintro rfl
    rw [List.nil_append] at heq
    rcases List.exists_cons_of_ne_nil hne with ⟨c, rest, rfl⟩
    have hblank := hhead c rfl
    rw [(trimsTo_trim (c :: rest)).1.head c (heq ▸ rfl)] at hblank
    cases hblank
  · intro hnil
    rw [hnil, List.append_nil] at heq
    subst heq
    have hblank := hblanks _ (List.getLast_mem hne)
    rw [hlast _ (List.getLast?_eq_some_getLast hne)] at hblank
    cases hblank

/-! ## The first word -/

/-- A text is cut behind its first word, if a blank follows or nothing at all. -/
theorem splitWord_append_of_word {word rest : List Char} (hword : Unbroken word)
    (hrest : ∀ c ∈ rest.head?, isBlank c = true) : splitWord (word ++ rest) = (word, rest) := by
  have hword' : ∀ c ∈ word, (!isBlank c) = true := by
    simpa [Unbroken] using hword
  have hrest' : rest.takeWhile (fun c => !isBlank c) = [] ∧
      rest.dropWhile (fun c => !isBlank c) = rest := by
    cases rest with
    | nil => exact ⟨rfl, rfl⟩
    | cons c rest =>
      have hc : isBlank c = true := hrest c rfl
      simp [hc]
  rw [splitWord, List.takeWhile_append_of_pos hword', List.dropWhile_append_of_pos hword',
    hrest'.1, hrest'.2, List.append_nil]

/-- The first word has no blanks. -/
theorem unbroken_splitWord (s : List Char) : Unbroken (splitWord s).1 := by
  intro c hc
  have hnot := List.mem_takeWhile_imp hc
  simpa using hnot

/-- What follows the first word begins with a blank. -/
theorem head_splitWord (s : List Char) : ∀ c ∈ (splitWord s).2.head?, isBlank c = true := by
  intro c hc
  have hnot := List.head?_dropWhile_not (fun c => !isBlank c) s
  rw [splitWord, Option.mem_def] at hc
  rw [hc] at hnot
  simpa using hnot

end GraphFilter.Text

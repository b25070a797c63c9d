import GraphFilter.Proofs.Filter.Strict
import GraphFilter.Proofs.Text.Trimmed

/-!
# The grammar of order entries

An order entry is a word, which is the field, or a word and a direction with blanks between
them; there may be blanks around it.  A text is such an entry in one way at most.

Main results:

- Theorem {lit}`OrderKey.parse?_eq_some_iff`: an entry describes a key exactly if it is
  written by the grammar.
- Theorem {lit}`Options.order_entries`: the order clause for a list of entries, and the entry
  with which a list is refused.
-/

namespace GraphFilter

/-! ## Words in either case -/

namespace Text

/-- Code point of a character in upper case. -/
theorem toNat_toUpper (c : Char) :
    c.toUpper.toNat = if 97 ≤ c.toNat ∧ c.toNat ≤ 122 then c.toNat - 32 else c.toNat := by
  unfold Char.toUpper
  simp only [UInt32.le_iff_toNat_le]
  change (if h : 97 ≤ c.toNat ∧ c.toNat ≤ 122 then _ else c).toNat = _
  split
  · change (c.val + ('A'.val - 'a'.val)).toNat = _
    rw [UInt32.toNat_add]
    change (c.toNat + 4294967264) % 4294967296 = _
    omega
  · rfl

/-- Code point of a character in lower case. -/
theorem toNat_toLower (c : Char) :
    c.toLower.toNat = if 65 ≤ c.toNat ∧ c.toNat ≤ 90 then c.toNat + 32 else c.toNat := by
  unfold Char.toLower
  simp only [ge_iff_le, UInt32.le_iff_toNat_le]
  change (if h : 65 ≤ c.toNat ∧ c.toNat ≤ 90 then _ else c).toNat = _
  split
  · change (c.val + ('a'.val - 'A'.val)).toNat = _
    rw [UInt32.toNat_add]
    change (c.toNat + 32) % 4294967296 = _
    omega
  · rfl

/-- Code points of capital letters. -/
theorem upper_bounds {c : Char} (h : c.isUpper = true) : 65 ≤ c.toNat ∧ c.toNat ≤ 90 := by
  have hbounds : c.val ≥ 'A'.val ∧ c.val ≤ 'Z'.val := of_decide_eq_true h
  simpa [UInt32.le_iff_toNat_le] using hbounds

/-- The characters that become a given capital letter. -/
theorem toUpper_eq_iff {c letter : Char} (h : letter.isUpper = true) :
    c.toUpper = letter ↔ c = letter ∨ c = letter.toLower := by
  rw [← Char.toNat_inj, ← Char.toNat_inj, ← Char.toNat_inj, toNat_toUpper, toNat_toLower,
    if_pos (upper_bounds h)]
  have hrange := upper_bounds h
  split <;> omega

/-- Whether a word is written with the given capital letters, each of them in either case. -/
def InEitherCase (word letters : List Char) : Prop :=
  List.Forall₂ (fun c letter => c = letter ∨ c = letter.toLower) word letters

theorem map_toUpper_eq_iff {word letters : List Char} (h : letters.all Char.isUpper = true) :
    word.map Char.toUpper = letters ↔ InEitherCase word letters := by
  rw [List.all_eq_true] at h
  unfold InEitherCase
  induction letters generalizing word with
  | nil => simp
  | cons letter letters ih =>
    rw [List.forall_mem_cons] at h
    cases word with
    | nil => simp
    | cons c word => simp [toUpper_eq_iff h.1, ih h.2]

/-- A word in letters has no blanks. -/
theorem InEitherCase.unbroken {word letters : List Char} (h : InEitherCase word letters)
    (hletters : letters.all Char.isUpper = true) : Unbroken word := by
  intro c hc
  rw [← map_toUpper_eq_iff hletters] at h
  rw [List.all_eq_true] at hletters
  have hrange := upper_bounds (hletters _ (h ▸ List.mem_map_of_mem hc))
  rw [toNat_toUpper] at hrange
  have hbounds : 65 ≤ c.toNat ∧ c.toNat < 128 := by
    split at hrange <;> omega
  unfold isBlank
  rw [if_pos hbounds.2]
  simp
  omega

end Text

/-! ## How an entry is written -/

namespace OrderKey

/-- Whether a word is `ASC` or `DESC`, in either case. -/
def IsDirection (word : List Char) : Prop :=
  Text.InEitherCase word ['A', 'S', 'C'] ∨ Text.InEitherCase word ['D', 'E', 'S', 'C']

theorem isDirection_iff {word : List Char} : isDirection word = true ↔ IsDirection word := by
  unfold isDirection IsDirection
  rw [← Text.map_toUpper_eq_iff (by decide), ← Text.map_toUpper_eq_iff (by decide)]
  simp

theorem IsDirection.unbroken {word : List Char} (h : IsDirection word) : Text.Unbroken word := by
  rcases h with h | h
  · exact h.unbroken (by decide)
  · exact h.unbroken (by decide)

theorem IsDirection.ne_nil {word : List Char} (h : IsDirection word) : word ≠ [] := by
  rintro rfl
  rcases h with h | h <;> cases h

/-- The characters of an entry: a field and, unless it stands alone, blanks and a direction. -/
structure Spelling where
  field : List Char
  suffix : Option (List Char × List Char)

namespace Spelling

/-- The entry. -/
def text (s : Spelling) : List Char :=
  s.field ++ s.suffix.elim [] fun (blanks, word) => blanks ++ word

/-- Whether the parts are what they stand for. -/
structure WellFormed (s : Spelling) : Prop where
  field_ne : s.field ≠ []
  field_unbroken : Text.Unbroken s.field
  blanks_ne : ∀ suffix ∈ s.suffix, suffix.1 ≠ []
  blanks : ∀ suffix ∈ s.suffix, Text.Blanks suffix.1
  direction : ∀ suffix ∈ s.suffix, IsDirection suffix.2

/-- The key that is described. -/
def key (s : Spelling) : OrderKey :=
  ⟨String.ofList s.field, s.suffix.map fun (_, word) => String.ofList word⟩

/-- The text in a query: the property of the node, and the direction behind one space. -/
def render (node : String) (s : Spelling) : String :=
  node ++ "." ++ Cypher.quote (String.ofList s.field) ++
    s.suffix.elim "" fun (_, word) => " " ++ String.ofList word

/-- Whether an entry is spelled this way, blanks around it aside. -/
def Describes (entry : String) (s : Spelling) : Prop :=
  s.WellFormed ∧ Text.TrimsTo entry.toList s.text

theorem render_key (node : String) (s : Spelling) : s.key.render node = s.render node := by
  rcases s with ⟨field, suffix⟩
  cases suffix with
  | none => simp [OrderKey.render, render, key, property]
  | some suffix => simp [OrderKey.render, render, key, property, String.append_assoc]

section
variable {s : Spelling} (h : s.WellFormed) {blanks word : List Char}
  (hsuffix : s.suffix = some (blanks, word))
include h hsuffix

/-- What follows a field begins with a blank. -/
theorem head_suffix : ∀ c ∈ (blanks ++ word).head?, Text.isBlank c = true := by
  intro c hc
  rw [List.head?_append_of_ne_nil _ (h.blanks_ne _ hsuffix)] at hc
  exact h.blanks _ hsuffix c (List.mem_of_mem_head? hc)

/-- The direction is what follows the blanks behind a field. -/
theorem trimsTo_suffix : Text.TrimsTo (blanks ++ word) word :=
  ⟨(h.direction _ hsuffix).unbroken.bare, blanks, [], by simp, h.blanks _ hsuffix,
    by simp [Text.Blanks]⟩

end

/-- An entry is cut behind its field. -/
theorem splitWord_text {s : Spelling} (h : s.WellFormed) :
    Text.splitWord s.text = (s.field, s.suffix.elim [] fun (blanks, word) => blanks ++ word) := by
  refine Text.splitWord_append_of_word h.field_unbroken ?_
  cases hsuffix : s.suffix with
  | none => simp
  | some suffix => exact head_suffix h hsuffix

/-- Two spellings of one text are the same. -/
theorem eq_of_text_eq {s s' : Spelling} (h : s.WellFormed) (h' : s'.WellFormed)
    (htext : s.text = s'.text) : s = s' := by
  have hsplit := congrArg Text.splitWord htext
  rw [splitWord_text h, splitWord_text h', Prod.mk.injEq] at hsplit
  rcases s with ⟨field, suffix⟩
  rcases s' with ⟨field', suffix'⟩
  rcases hsplit with ⟨hfield, hrest⟩
  dsimp only at hfield hrest
  cases suffix with
  | none =>
    cases suffix' with
    | none => rw [hfield]
    | some suffix' =>
      have hne := h'.blanks_ne suffix' rfl
      simp [hne] at hrest
  | some suffix =>
    cases suffix' with
    | none =>
      have hne := h.blanks_ne suffix rfl
      simp [hne] at hrest
    | some suffix' =>
      rcases suffix with ⟨blanks, word⟩
      rcases suffix' with ⟨blanks', word'⟩
      have hrest : blanks ++ word = blanks' ++ word' := hrest
      have htrim := Text.trim_of_trimsTo (trimsTo_suffix h rfl)
      rw [hrest, Text.trim_of_trimsTo (trimsTo_suffix h' rfl)] at htrim
      rw [htrim] at hrest
      rw [hfield, htrim, List.append_cancel_right hrest]

/-- An entry is spelled in one way at most. -/
theorem Describes.unique {entry : String} {s s' : Spelling} (h : Describes entry s)
    (h' : Describes entry s') : s = s' := by
  refine eq_of_text_eq h.1 h'.1 ?_
  rw [← Text.trim_of_trimsTo h.2, Text.trim_of_trimsTo h'.2]

/-- A spelling describes its key. -/
theorem Describes.parse?_eq {entry : String} {s : Spelling} (h : Describes entry s) :
    parse? entry = some s.key := by
  have hfield : s.field.isEmpty = false := by
    simpa using h.1.field_ne
  unfold parse?
  rw [Text.trim_of_trimsTo h.2, splitWord_text h.1]
  simp only [hfield, Bool.false_eq_true, if_false]
  cases hsuffix : s.suffix with
  | none => simp [Text.trim, Text.trimStart, Text.trimEnd, key, hsuffix]
  | some suffix =>
    rcases suffix with ⟨blanks, word⟩
    have hword := h.1.direction _ hsuffix
    have htrim : Text.trim (blanks ++ word) = word :=
      Text.trim_of_trimsTo (trimsTo_suffix h.1 hsuffix)
    simp [htrim, hword.ne_nil, isDirection_iff.mpr hword, key, hsuffix]

end Spelling

/-- An entry that describes a key is spelled by the grammar. -/
theorem exists_describes {entry : String} {k : OrderKey} (h : parse? entry = some k) :
    ∃ s, Spelling.Describes entry s := by
  have htrims := Text.trimsTo_trim entry.toList
  have hword := Text.unbroken_splitWord (Text.trim entry.toList)
  have hhead := Text.head_splitWord (Text.trim entry.toList)
  have hsplit := Text.splitWord_append (Text.trim entry.toList)
  unfold parse? at h
  generalize Text.splitWord (Text.trim entry.toList) = cut at h hword hhead hsplit
  rcases cut with ⟨field, rest⟩
  dsimp only at h hword hhead hsplit
  rw [← hsplit] at htrims
  split at h
  · cases h
  · rename_i hfield
    have hne : field ≠ [] := by simpa using hfield
    by_cases hrest : rest = []
    · subst hrest
      have hformed : Spelling.WellFormed ⟨field, none⟩ :=
        ⟨hne, hword, by simp, by simp, by simp⟩
      exact ⟨⟨field, none⟩, hformed, htrims⟩
    · -- the text ends with the direction, for a blank at its end was removed
      have hlast : ∀ c ∈ rest.getLast?, Text.isBlank c = false := by
        rw [← List.getLast?_append_of_ne_nil field hrest]
        exact htrims.1.last
      rcases Text.exists_blanks_append hrest hhead hlast with
        ⟨blanks, heq, hblanks, hblanks_ne, hword_ne⟩
      generalize Text.trim rest = word at h heq hword_ne
      have hdirection : IsDirection word := by
        rw [← isDirection_iff]
        by_contra hnot
        simp [hword_ne, hnot] at h
      subst heq
      refine ⟨⟨field, some (blanks, word)⟩, ⟨hne, hword, ?_, ?_, ?_⟩, htrims⟩
      · simpa using hblanks_ne
      · simpa using hblanks
      · simpa using hdirection

/-- The keys that entries describe. -/
theorem parse?_eq_some_iff {entry : String} {k : OrderKey} :
    parse? entry = some k ↔ ∃ s, Spelling.Describes entry s ∧ s.key = k := by
  constructor
  · intro h
    rcases exists_describes h with ⟨s, hs⟩
    rw [hs.parse?_eq, Option.some.injEq] at h
    exact ⟨s, hs, h⟩
  · rintro ⟨s, hs, rfl⟩
    exact hs.parse?_eq

/-- The text of an entry in a query. -/
theorem render_eq_some_iff {node entry text : String} :
    (parse? entry).map (render node) = some text ↔
      ∃ s, Spelling.Describes entry s ∧ s.render node = text := by
  rw [Option.map_eq_some_iff]
  constructor
  · rintro ⟨k, hk, rfl⟩
    rcases parse?_eq_some_iff.mp hk with ⟨s, hs, rfl⟩
    exact ⟨s, hs, (s.render_key node).symm⟩
  · rintro ⟨s, hs, rfl⟩
    exact ⟨s.key, hs.parse?_eq, s.render_key node⟩

/-- The entries that are well-formed. -/
theorem isWellFormed_iff {entry : String} :
    isWellFormed entry = true ↔ ∃ s, Spelling.Describes entry s := by
  rw [isWellFormed, Option.isSome_iff_exists]
  simp only [parse?_eq_some_iff]
  grind

/-- The well-formed entries of a list are spelled one by one. -/
theorem exists_spellings (entries : List String) :
    ∃ ss, List.Forall₂ Spelling.Describes (entries.filter isWellFormed) ss ∧
      entries.filterMap parse? = ss.map Spelling.key := by
  induction entries with
  | nil => exact ⟨[], .nil, rfl⟩
  | cons entry rest ih =>
    rcases ih with ⟨ss, hss, hkeys⟩
    by_cases h : isWellFormed entry = true
    · rcases isWellFormed_iff.mp h with ⟨s, hs⟩
      refine ⟨s :: ss, ?_, ?_⟩
      · rw [List.filter_cons_of_pos h]
        exact .cons hs hss
      · rw [List.filterMap_cons_some hs.parse?_eq, hkeys, List.map_cons]
    · have hnone : parse? entry = none := by
        simpa [isWellFormed] using h
      refine ⟨ss, ?_, ?_⟩
      · rw [List.filter_cons_of_neg h]
        exact hss
      · rw [List.filterMap_cons_none hnone, hkeys]

end OrderKey

/-! ## Lists of entries -/

/-- The first warning about a list of entries is about the first malformed one. -/
theorem OrderKey.head?_warnings (entries : List String) :
    (entries.filterMap warning?).head? =
      (entries.find? fun entry => !isWellFormed entry).map fun entry =>
        .droppedOrder entry (.invalidOrder entry) := by
  induction entries with
  | nil => rfl
  | cons entry rest ih =>
    rw [List.filterMap_cons, List.find?_cons, warning?]
    cases isWellFormed entry with
    | false => rfl
    | true => exact ih

open OrderKey (Spelling)

/-- The clause of keys that are spelled. -/
theorem OrderKey.clause_map_key (node : String) (ss : List Spelling) :
    clause node (ss.map Spelling.key) = if ss = [] then .empty else
      .ofText ("ORDER BY " ++ ", ".intercalate (ss.map (Spelling.render node))) := by
  cases ss with
  | nil => rfl
  | cons s rest =>
    have hrender : (s :: rest).map (Spelling.render node) =
        ((s :: rest).map Spelling.key).map (render node) := by
      rw [List.map_map]
      exact List.map_congr_left fun s _ => (s.render_key node).symm
    rw [if_neg (List.cons_ne_nil _ _), hrender]
    rfl

/-- An order entry is accepted exactly if it is spelled by the grammar, which it is in one way
at most; its text has the field quoted and the direction as it was given.  For a list of
entries the lenient order clause consists of the accepted ones in the order of the list, and
there is no clause if there are none.  The strict clause is the same unless there is an entry
outside the grammar; the first of these is then refused as it was given. -/
theorem Options.order_entries (o : Options) (entries : List String) :
    (∀ entry text, (OrderKey.parse? entry).map (OrderKey.render o.nodeAlias) = some text ↔
        ∃ s, Spelling.Describes entry s ∧ s.render o.nodeAlias = text) ∧
      (∀ entry s s', Spelling.Describes entry s → Spelling.Describes entry s' → s = s') ∧
      ∃ clause warnings, ∃ ss : List Spelling,
        List.Forall₂ Spelling.Describes (entries.filter OrderKey.isWellFormed) ss ∧
        clause = (if ss = [] then .empty else
          .ofText ("ORDER BY " ++ ", ".intercalate (ss.map (Spelling.render o.nodeAlias)))) ∧
        ({ o with strict := false }.orderClause entries).runFresh = (.ok clause, warnings) ∧
        ({ o with strict := true }.orderClause entries).runFresh =
          match entries.find? fun entry => !OrderKey.isWellFormed entry with
          | none => (.ok clause, [])
          | some first => (.error (.invalidOrder first), []) := by
  refine ⟨fun _ _ => OrderKey.render_eq_some_iff, fun _ _ _ h h' => h.unique h', ?_⟩
  rcases OrderKey.exists_spellings entries with ⟨ss, hss, hkeys⟩
  rcases (o.agree_orderClause entries).runFresh with ⟨clause, hlenient, hnone, hsome⟩
  refine ⟨clause, _, ss, hss, ?_, hlenient, ?_⟩
  · rcases Compile.runFrom_of_runFresh hlenient with ⟨p, hrun⟩
    have hclause : clause = o.compiledOrder entries :=
      (({ o with strict := false }.gives_orderClause entries).of_runFrom hrun).1
    rw [hclause, Options.compiledOrder, hkeys, OrderKey.clause_map_key]
  · have hhead := OrderKey.head?_warnings entries
    cases hfind : entries.find? fun entry => !OrderKey.isWellFormed entry with
    | none =>
      rw [hfind, Option.map_none, List.head?_eq_none_iff] at hhead
      exact hnone hhead
    | some first =>
      rw [hfind] at hhead
      rcases hsome _ hhead with ⟨error, herror, hstrict⟩
      cases herror
      exact hstrict

end GraphFilter

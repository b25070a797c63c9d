import GraphFilter.Proofs.Cypher.Token

/-!
# Names are read back

A name in query text may be any text at all.  Whatever it is, reading the first name of the query
text gives it back and stops where the name was written to end, unless it runs on into the text
behind it: a plain identifier into a word character, a quoted name into another backtick.  So names
that differ are written differently.

Main results:

- Theorem {lit}`readName_quote_iff`: when a name is read back in front of a given text.
- Theorem {lit}`readName_quote`: reading undoes writing, and writing is injective.
-/

namespace GraphFilter.Cypher

/-! ## Reading a name -/

/-- Read a name from the front of a text: the word or the quoted name that the text begins with,
the latter without its quotation marks. -/
def readName (text : String) : Option (String × String) := do
  let (token?, rest) ← readToken text.toList
  let token ← token?
  let name ← token.name?
  return (name, String.ofList rest)

/-- Whether a name that is written in a query runs on into a character behind it. -/
def runsOn (name : String) (c : Char) : Bool :=
  if isPlainName name then isWordChar c else c == tick

theorem runsOn_eq_false {c : Char} (htick : c ≠ tick) (hword : isWordChar c = false)
    (name : String) : runsOn name c = false := by
  unfold runsOn
  split
  · exact hword
  · exact beq_false_of_ne htick

/-- Behind a plain identifier, reading takes further word characters for its own. -/
theorem readName_quote_of_plain {name : String} (h : isPlainName name = true) (rest : String) :
    readName (quote name ++ rest) =
      some (name ++ String.ofList (rest.toList.takeWhile isWordChar),
        String.ofList (rest.toList.dropWhile isWordChar)) := by
  have hword := isWordChar_of_isPlain h
  rw [readName, quote_eq_self h, String.toList_append, readToken_word hword.1 hword.2]
  rfl

/-- Behind the closing backtick of any other name, reading goes on as behind a backtick. -/
theorem readName_quote_of_not_plain {name : String} (h : isPlainName name = false)
    (rest : String) : readName (quote name ++ rest) =
      (readQuoted (tick :: rest.toList)).map fun (more, rest) =>
        (name ++ String.ofList more, String.ofList rest) := by
  rw [readName, String.toList_append, readToken_quote h]
  cases readQuoted (tick :: rest.toList) <;> rfl

/-! ## Names that are written -/

/-- A name that is written is read back exactly if it does not run on into what follows. -/
theorem readName_quote_iff (name rest : String) :
    readName (quote name ++ rest) = some (name, rest) ↔
      ∀ c ∈ rest.toList.head?, runsOn name c = false := by
  obtain ⟨s, rfl⟩ : ∃ s, rest = String.ofList s := ⟨rest.toList, String.ofList_toList.symm⟩
  cases hplain : isPlainName name with
  | true =>
    rw [readName_quote_of_plain hplain, String.toList_ofList]
    cases s with
    | nil => simp
    | cons c s =>
      cases hc : isWordChar c <;> simp [runsOn, hplain, hc]
  | false =>
    rw [readName_quote_of_not_plain hplain, String.toList_ofList]
    cases s with
    | nil => simp [readQuoted]
    | cons c s =>
      by_cases hc : c = tick
      · -- the closing backtick and the next one are read as one that belongs to the name
        simp [runsOn, hplain, hc, readQuoted]
      · simp [runsOn, hplain, hc, readQuoted]

/-- Reading undoes writing: in front of any text that begins neither with a backtick nor with a
word character, a name is read back as it was, and the text is left.  So different names are
written differently, and labels are alike only if the capitalized names are. -/
theorem readName_quote :
    (∀ name rest : String, (∀ c ∈ rest.toList.head?, c ≠ tick ∧ isWordChar c = false) →
      readName (quote name ++ rest) = some (name, rest)) ∧
    Function.Injective quote ∧
    ∀ model other : String,
      label model = label other ↔ Text.capitalize model.toList = Text.capitalize other.toList := by
  have hread : ∀ name rest : String,
      (∀ c ∈ rest.toList.head?, c ≠ tick ∧ isWordChar c = false) →
        readName (quote name ++ rest) = some (name, rest) := by
    intro name rest hrest
    refine (readName_quote_iff name rest).mpr ?_
    intro c hc
    exact runsOn_eq_false (hrest c hc).1 (hrest c hc).2 name
  have hinjective : Function.Injective quote := by
    intro name other heq
    have hname := hread name "" (by simp)
    rw [heq, hread other "" (by simp)] at hname
    cases hname
    rfl
  refine ⟨hread, hinjective, ?_⟩
  intro model other
  rw [label, label, hinjective.eq_iff, String.ofList_inj]

/-- A name of backticks around a letter, in front of a blank. -/
theorem readName_quote_ticks :
    (∀ c ∈ " IS NULL".toList.head?, c ≠ tick ∧ isWordChar c = false) ∧
      readName (quote "`a``" ++ " IS NULL") = some ("`a``", " IS NULL") := by
  have hrest : ∀ c ∈ " IS NULL".toList.head?, c ≠ tick ∧ isWordChar c = false := by
    rintro c ⟨⟩
    decide
  exact ⟨hrest, readName_quote.1 _ _ hrest⟩

end GraphFilter.Cypher

import GraphFilter.Cypher.Name
import GraphFilter.Placeholder
import GraphFilter.Text.Blank
import Mathlib.Data.List.Forall2
import Mathlib.Data.List.TakeWhile

/-!
# Tokens of query text

This module reads query text the way the query language does: words are maximal
runs of word characters, a name between backticks ends at the first backtick that
is not doubled, a parameter is a dollar sign with the characters behind it, and
the rest is punctuation.  A text that was put together from pieces is read piece
by piece, provided that no piece can run on into the next one.

Main results:

- Theorems {lit}`readQuoted_append` and {lit}`readQuoted_tick`: a quoted name is read
  back as it was, and reading stops right behind its closing backtick.
- Theorem {lit}`lexes_quote`: a quoted name is one token, and the token's value is
  the name.
- Theorems {lit}`Lexes.append` and {lit}`Closed.append`: the tokens of a joined text
  are those of its pieces.
-/

namespace GraphFilter.Cypher

/-! ## Tokens -/

/-- Punctuation and comparison symbols. -/
inductive Symbol where
  | openParen
  | closeParen
  | colon
  | dot
  | comma
  | equal
  | notEqual
  | greater
  | greaterEqual
  | less
  | lessEqual
deriving DecidableEq

/-- How a symbol is written. -/
def Symbol.text : Symbol → String
  | openParen => "("
  | closeParen => ")"
  | colon => ":"
  | dot => "."
  | comma => ","
  | equal => "="
  | notEqual => "<>"
  | greater => ">"
  | greaterEqual => ">="
  | less => "<"
  | lessEqual => "<="

/-- The symbols that end themselves: none of them begins a longer one. -/
def Symbol.punctuation : List Symbol :=
  [openParen, closeParen, colon, dot, comma]

/-- A lexical unit of query text. -/
inductive Token where
  | word (text : String)
  | quoted (name : String)
  | param (name : String)
  | symbol (s : Symbol)
deriving DecidableEq

namespace Token

/-- The token that a name is written as. -/
def ofName (name : String) : Token :=
  if isPlainName name then .word name else .quoted name

/-- The name that a token stands for, quotation marks removed. -/
def name? : Token → Option String
  | word text => some text
  | quoted name => some name
  | _ => none

/-- The name of a parameter. -/
def param? : Token → Option String
  | param name => some name
  | _ => none

@[simp]
theorem name?_ofName (name : String) : (ofName name).name? = some name := by
  unfold ofName
  split <;> rfl

@[simp]
theorem param?_ofName (name : String) : (ofName name).param? = none := by
  unfold ofName
  split <;> rfl

end Token

/-! ## Reading one token -/

/-- Read a name behind its opening backtick, up to the first backtick that is not
doubled. -/
def readQuoted : List Char → Option (List Char × List Char)
  | [] => none
  | [c] => if c = tick then some ([], []) else none
  | c :: d :: rest =>
    if c = tick then
      if d = tick then (readQuoted rest).map fun (name, rest) => (tick :: name, rest)
      else some ([], d :: rest)
    else (readQuoted (d :: rest)).map fun (name, rest) => (c :: name, rest)

/-- Read a symbol, the longest one that fits. -/
def readSymbol : List Char → Option (Symbol × List Char)
  | '(' :: rest => some (.openParen, rest)
  | ')' :: rest => some (.closeParen, rest)
  | ':' :: rest => some (.colon, rest)
  | '.' :: rest => some (.dot, rest)
  | ',' :: rest => some (.comma, rest)
  | '=' :: rest => some (.equal, rest)
  | '<' :: '>' :: rest => some (.notEqual, rest)
  | '<' :: '=' :: rest => some (.lessEqual, rest)
  | '<' :: rest => some (.less, rest)
  | '>' :: '=' :: rest => some (.greaterEqual, rest)
  | '>' :: rest => some (.greater, rest)
  | _ => none

/-- Read a parameter behind its dollar sign. -/
def readParam (s : List Char) : Option (List Char × List Char) :=
  match s.takeWhile isParamChar with
  | [] => none
  | name => some (name, s.dropWhile isParamChar)

/-- Read one token, or pass over one blank. -/
def readToken : List Char → Option (Option Token × List Char)
  | [] => none
  | c :: rest =>
    if isWordChar c then
      some (some (.word (String.ofList (c :: rest.takeWhile isWordChar))),
        rest.dropWhile isWordChar)
    else if c = tick then
      (readQuoted rest).map fun (name, rest) => (some (.quoted (String.ofList name)), rest)
    else if c = '$' then
      (readParam rest).map fun (name, rest) => (some (.param (String.ofList name)), rest)
    else if Text.isBlank c then some (none, rest)
    else (readSymbol (c :: rest)).map fun (s, rest) => (some (.symbol s), rest)

/-- Behind a quoted name there is less to read. -/
theorem readQuoted_length_lt {s name rest : List Char} (h : readQuoted s = some (name, rest)) :
    rest.length < s.length := by
  induction s using readQuoted.induct generalizing name with
  | case1 => simp [readQuoted] at h
  | case2 =>
    simp only [readQuoted, if_true, Option.some.injEq, Prod.mk.injEq] at h
    rcases h with ⟨-, rfl⟩
    simp
  | case3 c hc => simp [readQuoted, hc] at h
  | case4 s ih =>
    simp only [readQuoted, if_true, Option.map_eq_some_iff, Prod.mk.injEq] at h
    rcases h with ⟨⟨inner, after⟩, hread, -, rfl⟩
    have hlt : after.length < s.length := ih hread
    simp only [List.length_cons]
    omega
  | case5 d s hd =>
    simp only [readQuoted, if_true, hd, if_false, Option.some.injEq, Prod.mk.injEq] at h
    rcases h with ⟨-, rfl⟩
    simp
  | case6 c d s hc ih =>
    simp only [readQuoted, hc, if_false, Option.map_eq_some_iff, Prod.mk.injEq] at h
    rcases h with ⟨⟨inner, after⟩, hread, -, rfl⟩
    have hlt : after.length < (d :: s).length := ih hread
    simp only [List.length_cons] at hlt ⊢
    omega

/-- Behind a symbol there is less to read. -/
theorem readSymbol_length_lt {s rest : List Char} {symbol : Symbol}
    (h : readSymbol s = some (symbol, rest)) : rest.length < s.length := by
  unfold readSymbol at h
  split at h <;> cases h <;> simp only [List.length_cons] <;> omega

/-- Each token takes at least one character. -/
theorem readToken_length_lt {s rest : List Char} {token : Option Token}
    (h : readToken s = some (token, rest)) : rest.length < s.length := by
  cases s with
  | nil => simp [readToken] at h
  | cons c s =>
    simp only [readToken] at h
    split at h
    · cases h
      exact Nat.lt_succ_of_le (List.length_dropWhile_le isWordChar s)
    split at h
    · simp only [Option.map_eq_some_iff, Prod.mk.injEq] at h
      rcases h with ⟨⟨name, after⟩, hread, -, rfl⟩
      exact Nat.lt_succ_of_lt (readQuoted_length_lt hread)
    split at h
    · simp only [Option.map_eq_some_iff, Prod.mk.injEq] at h
      rcases h with ⟨⟨name, after⟩, hread, -, rfl⟩
      unfold readParam at hread
      split at hread
      · cases hread
      · cases hread
        exact Nat.lt_succ_of_le (List.length_dropWhile_le isParamChar s)
    split at h
    · cases h
      simp
    · simp only [Option.map_eq_some_iff, Prod.mk.injEq] at h
      rcases h with ⟨⟨symbol, after⟩, hread, -, rfl⟩
      exact readSymbol_length_lt hread

/-! ## Reading a text -/

/-- The tokens of a list of characters. -/
def lexChars (s : List Char) : Option (List Token) :=
  if s.isEmpty then some []
  else
    match h : readToken s with
    | none => none
    | some (token, rest) =>
      have := readToken_length_lt h
      (lexChars rest).map (token.toList ++ ·)
termination_by s.length

/-- The tokens of a text, if it is made of tokens. -/
def lex (text : String) : Option (List Token) :=
  lexChars text.toList

@[simp]
theorem lexChars_nil : lexChars [] = some [] := by
  rw [lexChars]
  rfl

/-- The first token comes before the tokens of what follows it. -/
theorem lexChars_of_readToken {s rest : List Char} {token : Option Token}
    (h : readToken s = some (token, rest)) :
    lexChars s = (lexChars rest).map (token.toList ++ ·) := by
  have hs : s.isEmpty = false := by
    cases s with
    | nil => simp [readToken] at h
    | cons c s => rfl
  rw [lexChars, hs, if_neg (by simp)]
  split
  · rename_i hnone
    rw [h] at hnone
    cases hnone
  · rename_i token' rest' hsome
    rw [h] at hsome
    cases hsome
    rfl

/-! ## Reading a text piece by piece -/

/-- The characters that end every word, name, parameter and comparison symbol. -/
def delimiters : List Char :=
  [' ', '(', ')', ',', '.', ':']

/-- What follows a piece begins with a delimiter, if anything follows. -/
def Stops (rest : List Char) : Prop :=
  ∀ c ∈ rest.head?, c ∈ delimiters

/-- In front of a delimiter, a piece of text is read as the given tokens. -/
def Lexes (text : String) (tokens : List Token) : Prop :=
  ∀ rest, Stops rest → lexChars (text.toList ++ rest) = (lexChars rest).map (tokens ++ ·)

/-- Whatever follows, a piece of text is read as the given tokens. -/
def Closed (text : String) (tokens : List Token) : Prop :=
  ∀ rest, lexChars (text.toList ++ rest) = (lexChars rest).map (tokens ++ ·)

theorem stops_nil : Stops [] := by
  simp [Stops]

theorem Stops.append {s rest : List Char} (hs : Stops s) (hrest : Stops rest) :
    Stops (s ++ rest) := by
  cases s with
  | nil => exact hrest
  | cons c s => exact hs

/-- A delimiter ends words and parameters and is no second half of a symbol. -/
theorem of_mem_delimiters {c : Char} (h : c ∈ delimiters) :
    isWordChar c = false ∧ isParamChar c = false ∧ c ≠ tick ∧ c ≠ '=' ∧ c ≠ '>' := by
  revert h
  simp only [delimiters, List.mem_cons, List.not_mem_nil, or_false]
  rintro (rfl | rfl | rfl | rfl | rfl | rfl) <;> decide

/-- A piece that ends the text gives its tokens. -/
theorem Lexes.lex_eq {text : String} {tokens : List Token} (h : Lexes text tokens) :
    lex text = some tokens := by
  have hread := h [] stops_nil
  rw [List.append_nil, lexChars_nil, Option.map_some, List.append_nil] at hread
  exact hread

theorem Closed.lexes {text : String} {tokens : List Token} (h : Closed text tokens) :
    Lexes text tokens :=
  fun rest _ => h rest

theorem closed_empty : Closed "" [] := by
  intro rest
  simp

/-- The empty text has no tokens. -/
theorem Lexes.eq_nil_of_empty {tokens : List Token} (h : Lexes "" tokens) : tokens = [] := by
  have hread := h.lex_eq
  rw [closed_empty.lexes.lex_eq, Option.some.injEq] at hread
  exact hread.symm

/-- Joining two pieces, the second of which begins with a delimiter. -/
theorem Lexes.append {first second : String} {tokens others : List Token}
    (hfirst : Lexes first tokens) (hsecond : Lexes second others)
    (hstops : Stops second.toList) : Lexes (first ++ second) (tokens ++ others) := by
  intro rest hrest
  rw [String.toList_append, List.append_assoc, hfirst _ (hstops.append hrest),
    hsecond rest hrest, Option.map_map]
  congr 1
  funext ts
  simp

/-- Behind a closed piece, any piece may follow. -/
theorem Closed.append {first second : String} {tokens others : List Token}
    (hfirst : Closed first tokens) (hsecond : Lexes second others) :
    Lexes (first ++ second) (tokens ++ others) := by
  intro rest hrest
  rw [String.toList_append, List.append_assoc, hfirst, hsecond rest hrest, Option.map_map]
  congr 1
  funext ts
  simp

/-- A closed piece behind another piece closes it. -/
theorem Lexes.append_closed {first second : String} {tokens others : List Token}
    (hfirst : Lexes first tokens) (hsecond : Closed second others)
    (hstops : ∃ c ∈ delimiters, ∃ rest, second.toList = c :: rest) :
    Closed (first ++ second) (tokens ++ others) := by
  rcases hstops with ⟨c, hc, tail, hsecond'⟩
  intro rest
  have hrest : Stops (second.toList ++ rest) := by
    rw [hsecond']
    simpa [Stops] using hc
  rw [String.toList_append, List.append_assoc, hfirst _ hrest, hsecond, Option.map_map]
  congr 1
  funext ts
  simp

/-- A row of pieces is read piece by piece if what stands between them begins with a
delimiter and is closed. -/
theorem Lexes.intercalate {separator : String} {between : List Token}
    (hclosed : Closed separator between)
    (hstops : ∃ c ∈ delimiters, ∃ rest, separator.toList = c :: rest) {texts : List String}
    {rows : List (List Token)} (h : List.Forall₂ Lexes texts rows) :
    Lexes (separator.intercalate texts) (between.intercalate rows) := by
  induction h with
  | nil => exact closed_empty.lexes
  | @cons text row texts rows hfirst hrest ih =>
    cases hrest with
    | nil =>
      rw [String.intercalate_singleton, List.intercalate_singleton]
      exact hfirst
    | cons hsecond hrest =>
      rw [String.intercalate_cons_cons, List.intercalate_cons_cons]
      exact (hfirst.append_closed hclosed hstops).append ih

/-! ## Blanks and punctuation -/

theorem closed_blank : Closed " " [] := by
  intro rest
  have hread : readToken (' ' :: rest) = some (none, rest) := by
    have hword : isWordChar ' ' = false := by decide
    have hblank : Text.isBlank ' ' = true := by decide
    simp [readToken, hword, hblank, tick]
  have hlist : " ".toList ++ rest = ' ' :: rest := by simp
  rw [hlist, lexChars_of_readToken hread]
  simp

/-- In front of a delimiter every symbol is read as itself. -/
theorem readSymbol_text (symbol : Symbol) {rest : List Char}
    (hnext : ∀ c ∈ rest.head?, c ≠ '=' ∧ c ≠ '>') :
    readSymbol (symbol.text.toList ++ rest) = some (symbol, rest) := by
  cases rest with
  | nil => cases symbol <;> simp [Symbol.text, readSymbol]
  | cons c rest =>
    rcases hnext c rfl with ⟨heq, hgt⟩
    cases symbol <;> simp [Symbol.text, readSymbol, heq, hgt]

/-- Punctuation is read as itself whatever follows. -/
theorem readSymbol_punctuation {symbol : Symbol} (h : symbol ∈ Symbol.punctuation)
    (rest : List Char) : readSymbol (symbol.text.toList ++ rest) = some (symbol, rest) := by
  cases symbol <;> simp [Symbol.punctuation] at h <;> simp [Symbol.text, readSymbol]

/-- No symbol begins like another kind of token. -/
theorem readToken_text (symbol : Symbol) (rest : List Char) :
    readToken (symbol.text.toList ++ rest) =
      (readSymbol (symbol.text.toList ++ rest)).map fun (s, rest) => (some (.symbol s), rest) := by
  have hhead : ∃ c s, symbol.text.toList = c :: s ∧
      isWordChar c = false ∧ c ≠ tick ∧ c ≠ '$' ∧ Text.isBlank c = false := by
    cases symbol <;> refine ⟨_, _, by simp [Symbol.text]; exact ⟨rfl, rfl⟩, by decide⟩
  rcases hhead with ⟨c, s, hs, hword, htick, hdollar, hblank⟩
  rw [hs, List.cons_append]
  simp [readToken, hword, htick, hdollar, hblank]

theorem lexes_symbol (symbol : Symbol) : Lexes symbol.text [.symbol symbol] := by
  intro rest hrest
  have hnext : ∀ c ∈ rest.head?, c ≠ '=' ∧ c ≠ '>' := fun c hc =>
    (of_mem_delimiters (hrest c hc)).2.2.2
  have hread := readToken_text symbol rest
  rw [readSymbol_text symbol hnext] at hread
  exact lexChars_of_readToken hread

theorem closed_symbol (symbol : Symbol) (h : symbol ∈ Symbol.punctuation) :
    Closed symbol.text [.symbol symbol] := by
  intro rest
  have hread := readToken_text symbol rest
  rw [readSymbol_punctuation h] at hread
  exact lexChars_of_readToken hread

/-! ## Words and parameters -/

/-- In front of a delimiter, a run of characters of one class ends where it should. -/
theorem span_of_stops {p : Char → Bool} {s rest : List Char} (hs : ∀ c ∈ s, p c = true)
    (hrest : ∀ c ∈ rest.head?, p c = false) :
    (s ++ rest).takeWhile p = s ∧ (s ++ rest).dropWhile p = rest := by
  rw [List.takeWhile_append_of_pos hs, List.dropWhile_append_of_pos hs]
  cases rest with
  | nil => simp
  | cons c rest => simp [hrest c rfl]

/-- A word is read together with the word characters behind it. -/
theorem readToken_word {word : String} (hne : word.toList ≠ [])
    (hword : ∀ c ∈ word.toList, isWordChar c = true) (rest : List Char) :
    readToken (word.toList ++ rest) =
      some (some (.word (word ++ String.ofList (rest.takeWhile isWordChar))),
        rest.dropWhile isWordChar) := by
  rcases List.exists_cons_of_ne_nil hne with ⟨c, s, hs⟩
  have hc : isWordChar c = true := hword c (by simp [hs])
  have htail : ∀ d ∈ s, isWordChar d = true := fun d hd => hword d (by simp [hs, hd])
  have htext : String.ofList (c :: (s ++ rest.takeWhile isWordChar)) =
      word ++ String.ofList (rest.takeWhile isWordChar) := by
    rw [← List.cons_append, ← hs, String.ofList_append, String.ofList_toList]
  rw [hs, List.cons_append, readToken, if_pos hc, List.takeWhile_append_of_pos htail,
    List.dropWhile_append_of_pos htail, htext]

theorem lexes_word {word : String} (hne : word.toList ≠ [])
    (hword : ∀ c ∈ word.toList, isWordChar c = true) : Lexes word [.word word] := by
  intro rest hrest
  have hspan : rest.takeWhile isWordChar = [] ∧ rest.dropWhile isWordChar = rest :=
    span_of_stops (s := []) (by simp) (fun d hd => (of_mem_delimiters (hrest d hd)).1)
  have hread := readToken_word hne hword rest
  rw [hspan.1, hspan.2, String.ofList_nil, String.append_empty] at hread
  exact lexChars_of_readToken hread

theorem lexes_param {name : String} (hne : name.toList ≠ [])
    (hname : ∀ c ∈ name.toList, isParamChar c = true) :
    Lexes ("$" ++ name) [.param name] := by
  intro rest hrest
  have hspan := span_of_stops (p := isParamChar) hname
    (fun d hd => (of_mem_delimiters (hrest d hd)).2.1)
  have hparam : readParam (name.toList ++ rest) = some (name.toList, rest) := by
    rw [readParam, hspan.1, hspan.2]
    split
    · contradiction
    · rfl
  have hread : readToken (("$" ++ name).toList ++ rest) = some (some (.param name), rest) := by
    have hlist : ("$" ++ name).toList ++ rest = '$' :: (name.toList ++ rest) := by simp
    have hword : isWordChar '$' = false := by decide
    rw [hlist]
    simp [readToken, hword, tick, hparam]
  exact lexChars_of_readToken hread

/-! ## Names -/

theorem readQuoted_cons {c : Char} (hc : c ≠ tick) (s : List Char) :
    readQuoted (c :: s) = (readQuoted s).map fun (name, rest) => (c :: name, rest) := by
  cases s with
  | nil => simp [readQuoted, hc]
  | cons d s => rw [readQuoted, if_neg hc]

/-- Reading a quoted name undoes the doubling of backticks, and goes on behind them. -/
theorem readQuoted_append (s rest : List Char) :
    readQuoted (doubleTicks s ++ rest) =
      (readQuoted rest).map fun (name, rest) => (s ++ name, rest) := by
  induction s with
  | nil => simp [doubleTicks]
  | cons c s ih =>
    have hcons : doubleTicks (c :: s) = (if c = tick then [tick, tick] else [c]) ++ doubleTicks s :=
      rfl
    rw [hcons]
    by_cases hc : c = tick
    · simp [hc, readQuoted, ih, Function.comp_def]
    · simp [hc, readQuoted_cons hc, ih, Function.comp_def]

/-- Reading a quoted name stops behind the closing backtick. -/
theorem readQuoted_tick {rest : List Char} (hrest : ∀ c ∈ rest.head?, c ≠ tick) :
    readQuoted (tick :: rest) = some ([], rest) := by
  cases rest with
  | nil => simp [readQuoted]
  | cons c rest => simp [readQuoted, hrest c rfl]

/-- Every character of a plain identifier is a word character. -/
theorem isWordChar_of_isPlain {s : List Char} (h : isPlain s = true) :
    s ≠ [] ∧ ∀ c ∈ s, isWordChar c = true := by
  cases s with
  | nil => simp [isPlain] at h
  | cons c s =>
    simp only [isPlain, Bool.and_eq_true, List.all_eq_true] at h
    refine ⟨by simp, ?_⟩
    intro d hd
    rcases List.mem_cons.mp hd with rfl | hd
    · exact isWordChar_of_isWordStart h.1
    · exact h.2 d hd

theorem lexes_plain {name : String} (h : isPlainName name = true) : Lexes name [.word name] :=
  lexes_word (isWordChar_of_isPlain h).1 (isWordChar_of_isPlain h).2

/-- A plain identifier is written as it is. -/
theorem quote_eq_self {name : String} (h : isPlainName name = true) : quote name = name := by
  have hchars : isPlain name.toList = true := h
  rw [quote, quoteChars, if_pos hchars, String.ofList_toList]

/-- Between the backticks of a name that is no plain identifier, the name itself is read; whether
the closing backtick is one depends on what follows. -/
theorem readToken_quote {name : String} (h : isPlainName name = false) (rest : List Char) :
    readToken ((quote name).toList ++ rest) =
      (readQuoted (tick :: rest)).map fun (more, rest) =>
        (some (.quoted (name ++ String.ofList more)), rest) := by
  have hchars : isPlain name.toList = false := h
  have htick : isWordChar tick = false := by decide
  have hquote : (quote name).toList ++ rest =
      tick :: (doubleTicks name.toList ++ tick :: rest) := by
    simp [quoteChars, hchars]
  rw [hquote, readToken, htick, if_neg Bool.false_ne_true, if_pos rfl, readQuoted_append,
    Option.map_map]
  simp [Function.comp_def, String.ofList_append]

/-- A name is written as one token that stands for the name. -/
theorem lexes_quote (name : String) : Lexes (quote name) [Token.ofName name] := by
  cases hplain : isPlainName name with
  | true =>
    rw [quote_eq_self hplain, Token.ofName, if_pos hplain]
    exact lexes_plain hplain
  | false =>
    intro rest hrest
    have hstop := readQuoted_tick fun c hc => (of_mem_delimiters (hrest c hc)).2.2.1
    have hread : readToken ((quote name).toList ++ rest) = some (some (.quoted name), rest) := by
      rw [readToken_quote hplain, hstop]
      simp
    rw [Token.ofName, hplain, if_neg Bool.false_ne_true]
    exact lexChars_of_readToken hread

end GraphFilter.Cypher

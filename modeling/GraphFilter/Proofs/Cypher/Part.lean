import GraphFilter.Query
import GraphFilter.Proofs.Cypher.Token
import GraphFilter.Proofs.Placeholder.Fresh
import GraphFilter.Proofs.Tree.Children
import GraphFilter.Proofs.Where.Binding

/-!
# Parts of a query

What a query is made of, before it is written: names that come from the input, the
matched node, placeholders, and the fixed words and symbols of the query language.
Each part is one token.  The parts of a where expression follow its structure.

Main results:

- Theorem {lit}`Chain.spells_render`: the text of an expression is read as its parts.
- Theorem {lit}`Chain.filterMap_parts`: apart from fixed words and symbols, the parts
  of an expression are those of its atoms.
- Theorem {lit}`Tree.atoms_toChain`: the atoms of the expression of a tree are the
  leaves of the tree in text order.
-/

namespace GraphFilter

open Cypher (Symbol Token Lexes Closed Stops)

/-! ## Parts -/

/-- The fixed words of queries. -/
inductive Keyword where
  | match
  | where
  | return
  | as
  | count
  | order
  | by
  | skip
  | limit
  | and
  | xor
  | or
  | not
  | is
  | null
  | in
  | contains
deriving DecidableEq

/-- How a fixed word is written. -/
def Keyword.text : Keyword → String
  | .match => "MATCH"
  | .where => "WHERE"
  | .return => "RETURN"
  | .as => "AS"
  | .count => "count"
  | .order => "ORDER"
  | .by => "BY"
  | .skip => "SKIP"
  | .limit => "LIMIT"
  | .and => "AND"
  | .xor => "XOR"
  | .or => "OR"
  | .not => "NOT"
  | .is => "IS"
  | .null => "NULL"
  | .in => "IN"
  | .contains => "CONTAINS"

/-- A part of a query.  The word of a direction is written as it was given. -/
inductive Part where
  | name (value : String)
  | node
  | placeholder (id : String)
  | keyword (k : Keyword)
  | symbol (s : Symbol)
  | direction (word : String)
deriving DecidableEq

namespace Part

/-- The token of a part, given the name of the matched node. -/
def token (node : String) : Part → Token
  | .name value => Token.ofName value
  | .node => .word node
  | .placeholder id => .param id
  | .keyword k => .word k.text
  | .symbol s => .symbol s
  | .direction word => .word word

/-- The value of a part that is a name from the input. -/
def name? : Part → Option String
  | .name value => some value
  | _ => none

/-- Whether a part is a name from the input. -/
def isName (p : Part) : Bool :=
  p.name?.isSome

/-- The name of a part that is a placeholder. -/
def placeholder? : Part → Option String
  | .placeholder id => some id
  | _ => none

/-- The word of a part that is a direction. -/
def direction? : Part → Option String
  | .direction word => some word
  | _ => none

/-- Only placeholders are written as parameters. -/
@[simp]
theorem param?_token (node : String) (p : Part) : (p.token node).param? = p.placeholder? := by
  cases p with
  | name value => exact Token.param?_ofName value
  | _ => rfl

/-- The values of the tokens that names are written as are the names. -/
theorem map_token_filter_isName (node : String) (parts : List Part) :
    (parts.filter isName).map (fun p => (p.token node).name?) =
      (parts.filterMap Part.name?).map some := by
  induction parts with
  | nil => rfl
  | cons p rest ih =>
    cases p with
    | name value =>
      rw [List.filter_cons_of_pos rfl, List.map_cons, ih]
      exact congrArg (· :: _) (Token.name?_ofName value)
    | _ => exact ih

end Part

/-- A text is read as the given parts. -/
def Spells (node text : String) (parts : List Part) : Prop :=
  Lexes text (parts.map (Part.token node))

/-- A property of the matched node. -/
def propertyParts (field : String) : List Part :=
  [.node, .symbol .dot, .name field]

/-- The word or symbol of a relation. -/
def Relation.part : Relation → Part
  | equal => .symbol .equal
  | notEqual => .symbol .notEqual
  | greater => .symbol .greater
  | greaterEqual => .symbol .greaterEqual
  | less => .symbol .less
  | lessEqual => .symbol .lessEqual
  | member _ => .keyword .in
  | contains _ => .keyword .contains

/-- The parts of a bound predicate. -/
def Predicate.parts (p : Predicate Bound) : List Part :=
  match p.test with
  | .null negated =>
    propertyParts p.field ++
      (if negated then [.keyword .is, .keyword .not, .keyword .null]
        else [.keyword .is, .keyword .null])
  | .relates relation operand =>
    (if relation.isNegated then [.keyword .not] else []) ++ propertyParts p.field ++
      [relation.part, .placeholder operand.placeholder]

/-- The word of a joiner. -/
def Joiner.part : Joiner → Part
  | and => .keyword .and
  | xor => .keyword .xor
  | or => .keyword .or

namespace Chain

variable {α : Type}

/-! ## Parts and atoms of an expression -/

mutual

/-- The parts of a term. -/
def termParts (parts : α → List Part) : Term α → List Part
  | .atom a => parts a
  | .paren terms => [.symbol .openParen] ++ chainParts parts terms ++ [.symbol .closeParen]

/-- The parts of a chain. -/
def chainParts (parts : α → List Part) : List (Joiner × Term α) → List Part
  | [] => []
  | (_, t) :: rest => termParts parts t ++ restParts parts rest

/-- The parts of the terms behind the first one. -/
def restParts (parts : α → List Part) : List (Joiner × Term α) → List Part
  | [] => []
  | (j, t) :: rest => [j.part] ++ termParts parts t ++ restParts parts rest

end

mutual

/-- The atoms of a term, from left to right. -/
def termAtoms : Term α → List α
  | .atom a => [a]
  | .paren terms => atoms terms

/-- The atoms of a chain, from left to right. -/
def atoms : List (Joiner × Term α) → List α
  | [] => []
  | (_, t) :: rest => termAtoms t ++ atoms rest

end

/-- Behind the first term, the terms come with their joiners. -/
theorem restParts_cons (parts : α → List Part) (j : Joiner) (t : Term α) (rest : Chain α) :
    restParts parts ((j, t) :: rest) = [j.part] ++ chainParts parts ((j, t) :: rest) := by
  rw [restParts, chainParts, List.append_assoc]

/-- Induction over the terms of a chain and over the chains in parentheses. -/
@[elab_as_elim]
theorem induction {motive : Chain α → Prop} (nil : motive [])
    (atom : ∀ j a rest, motive rest → motive ((j, .atom a) :: rest))
    (paren : ∀ j terms rest, motive terms → motive rest → motive ((j, .paren terms) :: rest)) :
    (c : Chain α) → motive c
  | [] => nil
  | (j, .atom a) :: rest => atom j a rest (induction nil atom paren rest)
  | (j, .paren terms) :: rest =>
    paren j terms rest (induction nil atom paren terms) (induction nil atom paren rest)

/-- What is asked of the parts of an expression only depends on its atoms, if fixed
words and symbols do not matter. -/
theorem filterMap_parts {β : Type} {f : Part → Option β} (hkeyword : ∀ k, f (.keyword k) = none)
    (hsymbol : ∀ s, f (.symbol s) = none) (parts : α → List Part) (c : Chain α) :
    (chainParts parts c).filterMap f = (atoms c).flatMap (fun a => (parts a).filterMap f) ∧
      (restParts parts c).filterMap f = (atoms c).flatMap (fun a => (parts a).filterMap f) := by
  have hjoiner (j : Joiner) : f j.part = none := by cases j <;> exact hkeyword _
  induction c using induction with
  | nil => exact ⟨rfl, rfl⟩
  | atom j a rest ih =>
    constructor <;> simp [chainParts, restParts, termParts, atoms, termAtoms, ih.2, hjoiner]
  | paren j terms rest ihterms ihrest =>
    constructor <;>
      simp [chainParts, restParts, termParts, atoms, termAtoms, ihterms.1, ihrest.2, hjoiner,
        hsymbol]

@[simp]
theorem atoms_append (c d : Chain α) : atoms (c ++ d) = atoms c ++ atoms d := by
  induction c with
  | nil => rfl
  | cons term rest ih => simp [atoms, ih]

@[simp]
theorem atoms_withJoiner (j : Joiner) (c : Chain α) : atoms (withJoiner j c) = atoms c := by
  cases c <;> rfl

@[simp]
theorem atoms_wrap (j : Joiner) (c : Chain α) : atoms (wrap j c) = atoms c := by
  cases c <;> simp [wrap, atoms, termAtoms]

end Chain

/-! ## Reading the parts -/

theorem lexes_keyword (k : Keyword) : Lexes k.text [.word k.text] := by
  have hne : k.text.toList.isEmpty = false := by cases k <;> decide
  have hword : k.text.toList.all Cypher.isWordChar = true := by cases k <;> decide
  exact Cypher.lexes_word (List.isEmpty_eq_false_iff.mp hne) (List.all_eq_true.mp hword)

/-- Two pieces, the second of which begins with a delimiter. -/
theorem Spells.append {node first second : String} {parts others : List Part}
    (hfirst : Spells node first parts) (hsecond : Spells node second others)
    (hstops : Stops second.toList) : Spells node (first ++ second) (parts ++ others) := by
  unfold Spells
  rw [List.map_append]
  exact Lexes.append hfirst hsecond hstops

/-- Two pieces with a blank between them. -/
theorem Spells.spaced {node first second : String} {parts others : List Part}
    (hfirst : Spells node first parts) (hsecond : Spells node second others) :
    Spells node (first ++ " " ++ second) (parts ++ others) := by
  have hclosed : Closed (first ++ " ") (parts.map (Part.token node) ++ []) :=
    Lexes.append_closed hfirst Cypher.closed_blank ⟨' ', by decide, [], rfl⟩
  unfold Spells
  rw [List.map_append, ← List.append_nil (parts.map (Part.token node))]
  exact hclosed.append hsecond

/-- A piece in parentheses. -/
theorem Spells.enclosed {node text : String} {parts : List Part} (h : Spells node text parts) :
    Spells node ("(" ++ text ++ ")")
      ([.symbol .openParen] ++ parts ++ [.symbol .closeParen]) := by
  have hopened : Spells node ("(" ++ text) ([.symbol .openParen] ++ parts) :=
    (Cypher.closed_symbol .openParen (by decide)).append h
  exact hopened.append (Cypher.lexes_symbol .closeParen) (by simp [Stops, Cypher.delimiters])

theorem blank_dollar (s : String) : " " ++ ("$" ++ s) = " $" ++ s := by
  rw [← String.append_assoc]
  rfl

section
variable {node : String}

theorem spells_keyword (k : Keyword) : Spells node k.text [.keyword k] :=
  lexes_keyword k

theorem spells_placeholder {name : String} (h : IsPlaceholder name) :
    Spells node ("$" ++ name) [.placeholder name] :=
  Cypher.lexes_param h.toList_ne_nil h.isParamChar

/-- A property is the node, a dot and the name of the field. -/
theorem spells_property (halias : Cypher.isPlainName node = true) (field : String) :
    Spells node (property node field) (propertyParts field) := by
  have hdot : Closed (node ++ ".") ([.word node] ++ [.symbol .dot]) :=
    (Cypher.lexes_plain halias).append_closed (Cypher.closed_symbol .dot (by decide))
      ⟨'.', by decide, [], rfl⟩
  exact hdot.append (Cypher.lexes_quote field)

theorem spells_relation (r : Relation) : Spells node r.symbol [r.part] := by
  cases r with
  | equal => exact Cypher.lexes_symbol .equal
  | notEqual => exact Cypher.lexes_symbol .notEqual
  | greater => exact Cypher.lexes_symbol .greater
  | greaterEqual => exact Cypher.lexes_symbol .greaterEqual
  | less => exact Cypher.lexes_symbol .less
  | lessEqual => exact Cypher.lexes_symbol .lessEqual
  | member negated => exact lexes_keyword .in
  | contains negated => exact lexes_keyword .contains

theorem spells_joiner (j : Joiner) : Spells node j.keyword [j.part] := by
  cases j with
  | and => exact lexes_keyword .and
  | xor => exact lexes_keyword .xor
  | or => exact lexes_keyword .or

/-- A predicate is read as its parts. -/
theorem Predicate.spells_render (halias : Cypher.isPlainName node = true) {p : Predicate Bound}
    (hname : ∀ name ∈ p.placeholder?, IsPlaceholder name) :
    Spells node (p.render node) p.parts := by
  rcases p with ⟨field, test⟩
  have hproperty : Spells node (property node field) (propertyParts field) :=
    spells_property halias field
  cases test with
  | null negated =>
    cases negated with
    | false =>
      have hnull := (hproperty.spaced (spells_keyword .is)).spaced (spells_keyword .null)
      simpa [render, parts, Keyword.text, String.append_assoc] using hnull
    | true =>
      have hnull := ((hproperty.spaced (spells_keyword .is)).spaced
        (spells_keyword .not)).spaced (spells_keyword .null)
      simpa [render, parts, Keyword.text, String.append_assoc] using hnull
  | relates relation operand =>
    have hplaceholder : IsPlaceholder operand.placeholder := hname _ rfl
    have hplain := (hproperty.spaced (spells_relation relation)).spaced
      (spells_placeholder hplaceholder)
    cases hnegated : relation.isNegated with
    | false => simpa [render, parts, hnegated, String.append_assoc, blank_dollar] using hplain
    | true =>
      have hnot := (spells_keyword .not).spaced hplain
      simpa [render, parts, hnegated, Keyword.text, String.append_assoc, blank_dollar] using hnot

end

/-- The text behind the first term begins with a blank. -/
theorem Chain.stops_renderRest {α : Type} (text : α → String) (c : Chain α) :
    Stops (renderRest text c).toList := by
  cases c with
  | nil => exact Cypher.stops_nil
  | cons term rest => simp [renderRest, Stops, Cypher.delimiters]

/-- An expression is read as its parts if its atoms are. -/
theorem Chain.spells_render {α : Type} {node : String} {text : α → String}
    {parts : α → List Part} {c : Chain α}
    (h : ∀ a ∈ atoms c, Spells node (text a) (parts a)) :
    Spells node (render text c) (chainParts parts c) ∧
      Spells node (renderRest text c) (restParts parts c) := by
  -- the text of a term, with what follows it
  have hjoin {first : String} {ps : List Part} (hterm : Spells node first ps) (j : Joiner)
      {rest : Chain α} (hrest : Spells node (renderRest text rest) (restParts parts rest)) :
      Spells node (first ++ renderRest text rest) (ps ++ restParts parts rest) ∧
        Spells node (" " ++ j.keyword ++ " " ++ first ++ renderRest text rest)
          ([j.part] ++ ps ++ restParts parts rest) := by
    constructor
    · exact hterm.append hrest (stops_renderRest text rest)
    · have hword : Spells node (" " ++ j.keyword) [j.part] :=
        Cypher.closed_blank.append (spells_joiner j)
      exact (hword.spaced hterm).append hrest (stops_renderRest text rest)
  induction c using induction with
  | nil => exact ⟨Cypher.closed_empty.lexes, Cypher.closed_empty.lexes⟩
  | atom j a rest ih =>
    have hrest := (ih fun b hb => h b (by simp [atoms, hb])).2
    exact hjoin (h a (by simp [atoms, termAtoms])) j hrest
  | paren j terms rest ihterms ihrest =>
    have hterms := (ihterms fun b hb => h b (by simp [atoms, termAtoms, hb])).1
    have hrest := (ihrest fun b hb => h b (by simp [atoms, hb])).2
    exact hjoin hterms.enclosed j hrest

/-! ## Expressions of trees -/

namespace Tree

variable {α : Type}

/-- The terms of all groups of a combinator are those of the single groups. -/
theorem groupTerms_eq_flatMap (c : Combinator) (t : Tree α) :
    groupTerms c t = (groups c t).flatMap (childTerms c true) := by
  induction t with
  | nil => rfl
  | cons condition rest ih =>
    cases condition with
    | leaf a => simp [groupTerms, conditionTerms, groups, ih]
    | group d members =>
      rw [groupTerms, conditionTerms, groups, ih]
      by_cases hd : d = c
      · subst hd
        simp
      · simp [hd]

theorem atoms_topTerms (t : Tree α) : Chain.atoms (topTerms t) = topLeaves t := by
  induction t with
  | nil => rfl
  | cons condition rest ih =>
    cases condition with
    | leaf a => simp [topTerms, topLeaves, Chain.atoms, Chain.termAtoms, ih]
    | group c members => exact ih

theorem atoms_childTerms (c : Combinator) (first : Bool) (members : List (Tree α)) :
    Chain.atoms (childTerms c first members) =
      members.flatMap fun child => Chain.atoms (toChain child) := by
  induction members generalizing first with
  | nil => rfl
  | cons child rest ih => rw [childTerms_cons, Chain.atoms_append, Chain.atoms_withJoiner, ih,
      List.flatMap_cons]

/-- The atoms of an expression stand in text order. -/
theorem atoms_toChain (t : Tree α) : Chain.atoms (toChain t) = textLeaves t := by
  induction t using induction with
  | step t ih =>
    have hgroup (c : Combinator) :
        Chain.atoms (groupTerms c t) = (children c t).flatMap textLeaves := by
      have hflat : Chain.atoms ((groups c t).flatMap (childTerms c true)) =
          (groups c t).flatten.flatMap fun child => Chain.atoms (toChain child) := by
        induction groups c t with
        | nil => rfl
        | cons members rest ih =>
          rw [List.flatMap_cons, Chain.atoms_append, ih, atoms_childTerms, List.flatten_cons,
            List.flatMap_append]
      rw [groupTerms_eq_flatMap, hflat]
      exact List.flatMap_congr fun child hchild => ih c child hchild
    rw [toChain, Chain.atoms_append, Chain.atoms_append, Chain.atoms_wrap, Chain.atoms_wrap,
      atoms_topTerms, hgroup, hgroup, textLeaves_eq]

end Tree

/-! ## The text of a where object -/

/-- The parts of the expression of a tree. -/
def Tree.parts (t : Tree (Predicate Bound)) : List Part :=
  Chain.chainParts Predicate.parts t.toChain

theorem Predicate.parts_ne_nil (p : Predicate Bound) : p.parts ≠ [] := by
  rcases p with ⟨field, test⟩
  cases test <;> simp [parts, propertyParts]

/-- Only the chain without terms has no parts. -/
theorem Chain.chainParts_eq_nil_iff {c : Chain (Predicate Bound)} :
    chainParts Predicate.parts c = [] ↔ c = [] := by
  constructor
  · intro h
    cases c with
    | nil => rfl
    | cons term rest =>
      rcases term with ⟨j, term⟩
      rw [chainParts, List.append_eq_nil_iff] at h
      cases term with
      | atom p => exact absurd h.1 p.parts_ne_nil
      | paren terms => simp [termParts] at h
  · rintro rfl
    rfl

/-- Only the expression without terms has no parts. -/
theorem Tree.parts_eq_nil_iff {t : Tree (Predicate Bound)} : t.parts = [] ↔ t.toChain = [] :=
  Chain.chainParts_eq_nil_iff

/-- The placeholders of a tree that was given names are placeholders. -/
theorem isPlaceholder_of_mem_bind {w : Where} {names : NameSupply} {p : Predicate Bound}
    (hp : p ∈ Tree.textLeaves (w.bind.run names).1) :
    ∀ name ∈ p.placeholder?, IsPlaceholder name := by
  intro name hname
  refine (w.handsOut_bind names).isPlaceholder name ?_
  exact List.mem_filterMap.mpr ⟨p, (Tree.textLeaves_perm _).mem_iff.mp hp, hname⟩

/-- The text of a tree that was given names is read as its parts. -/
theorem spells_tree {node : String} (halias : Cypher.isPlainName node = true) (w : Where)
    (names : NameSupply) :
    Spells node (Tree.clause node (w.bind.run names).1).text
      (Tree.parts (w.bind.run names).1) := by
  refine (Chain.spells_render ?_).1
  intro p hp
  rw [Tree.atoms_toChain] at hp
  exact Predicate.spells_render halias (isPlaceholder_of_mem_bind hp)

/-- Only the expression without parts has no text. -/
theorem isEmpty_clause {node : String} (halias : Cypher.isPlainName node = true) (w : Where)
    (names : NameSupply) :
    (Tree.clause node (w.bind.run names).1).isEmpty =
      (Tree.parts (w.bind.run names).1).isEmpty := by
  have hread := spells_tree halias w names
  rw [Bool.eq_iff_iff]
  constructor
  · intro hempty
    have htext : (Tree.clause node (w.bind.run names).1).text = "" := by
      simpa [Clause.isEmpty] using hempty
    rw [htext] at hread
    simpa using Lexes.eq_nil_of_empty hread
  · intro hempty
    have hchain := Tree.parts_eq_nil_iff.mp (List.isEmpty_iff.mp hempty)
    simp [Clause.isEmpty, Tree.clause, hchain, Chain.render]

end GraphFilter

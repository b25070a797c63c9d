import GraphFilter.Proofs.Cypher.Grouping

/-!
# Reading conditions

A reader for the boolean expressions of the query language, which knows nothing about
how they were written: an expression is a disjunction of exclusive disjunctions of
conjunctions of terms, and a term is an expression in parentheses or a predicate of a
property.

Main results:

- Theorem {lit}`Cypher.reads_of_solid`: the tokens of a chain are read as the value of
  its row of operands.
- Theorem {lit}`Where.readCondition_bind`: so is the text of a where clause.
-/

namespace GraphFilter

open Cypher (Token Symbol)

namespace Cypher

/-! ## What is read -/

/-- A predicate of a property.  The symbol of a comparison may be a word. -/
inductive Atom where
  | isNull (field : String)
  | isNotNull (field : String)
  | compares (negated : Bool) (field symbol placeholder : String)
deriving DecidableEq

/-- A boolean expression. -/
inductive Expr (α : Type) where
  | atom (a : α)
  | join (j : Joiner) (left right : Expr α)

namespace Expr

variable {α β : Type}

/-- The atoms of an expression, from left to right. -/
def atoms : Expr α → List α
  | atom a => [a]
  | join _ left right => left.atoms ++ right.atoms

/-- Replace the atoms of an expression. -/
def map (f : α → β) : Expr α → Expr β
  | atom a => atom (f a)
  | join j left right => join j (left.map f) (right.map f)

end Expr

/-- A way to read something from the front of a list of tokens. -/
abbrev Parser (α : Type) := List Token → Option (α × List Token)

/-! ## Predicates -/

/-- Read a property of the node. -/
def readProperty (node : String) : Parser String
  | .word w :: .symbol .dot :: field :: rest =>
    if w = node then field.name?.map fun field => (field, rest) else none
  | _ => none

/-- The symbol of a comparison. -/
def readSymbol? : Token → Option String
  | .symbol s => if s ∈ Symbol.punctuation then none else some s.text
  | .word w => if w = "IN" || w = "CONTAINS" then some w else none
  | _ => none

/-- Read a comparison behind its property. -/
def readComparison (negated : Bool) (field : String) : Parser Atom
  | symbol :: .param placeholder :: rest =>
    (readSymbol? symbol).map fun symbol => (.compares negated field symbol placeholder, rest)
  | _ => none

/-- Read a test for null or a comparison behind its property. -/
def readTest (field : String) : Parser Atom
  | .word "IS" :: .word "NULL" :: rest => some (.isNull field, rest)
  | .word "IS" :: .word "NOT" :: .word "NULL" :: rest => some (.isNotNull field, rest)
  | ts => readComparison false field ts

/-- Read a comparison behind the word that negates it. -/
def readNegated (node : String) : Parser Atom
  | .word "NOT" :: ts =>
    (readProperty node ts).bind fun (field, rest) => readComparison true field rest
  | _ => none

/-- Read a predicate.  A property is tried first, since the node may be called like the
word that negates a comparison. -/
def readAtom (node : String) : Parser Atom := fun ts =>
  match readProperty node ts with
  | some (field, rest) => readTest field rest
  | none => readNegated node ts

/-! ## Expressions -/

variable {α : Type}

/-- Read operands as long as the joiner stands in front of them. -/
def readJoined (j : Joiner) (operand : Parser (Expr α)) : Nat → Expr α → Parser (Expr α)
  | 0, left, ts => some (left, ts)
  | steps + 1, left, ts =>
    if ts.head? = some (.word j.keyword) then
      (operand ts.tail).bind fun (right, rest) =>
        readJoined j operand steps (.join j left right) rest
    else some (left, ts)

/-- Read an operand and all that are joined to it. -/
def readLevel (j : Joiner) (operand : Parser (Expr α)) (steps : Nat) : Parser (Expr α) := fun ts =>
  (operand ts).bind fun (left, rest) => readJoined j operand steps left rest

/-- Read an expression, given how a term is read: `AND` binds tighter than `XOR`, and
`XOR` tighter than `OR`. -/
def readExpr (term : Parser (Expr α)) (steps : Nat) : Parser (Expr α) :=
  readLevel .or (readLevel .xor (readLevel .and term steps) steps) steps

/-- Read a term, in which `depth` parentheses may be open at once. -/
def readTerm (atom : Parser α) (steps : Nat) : Nat → Parser (Expr α)
  | 0, _ => none
  | depth + 1, ts =>
    if ts.head? = some (.symbol .openParen) then
      match readExpr (readTerm atom steps depth) steps ts.tail with
      | some (e, .symbol .closeParen :: rest) => some (e, rest)
      | _ => none
    else (atom ts).map fun (a, rest) => (.atom a, rest)

/-- The expression of a text; `some none` is that of the empty text. -/
def readCondition (node text : String) : Option (Option (Expr Atom)) :=
  match lex text with
  | none => none
  | some [] => some none
  | some ts =>
    match readExpr (readTerm (readAtom node) ts.length ts.length) ts.length ts with
    | some (e, []) => some (some e)
    | _ => none

/-! ## Reading a row of operands -/

/-- No joiner follows. -/
def Ends (ts : List Token) : Prop :=
  ∀ j : Joiner, ts.head? ≠ some (.word j.keyword)

theorem keyword_injective {i j : Joiner} (h : i.keyword = j.keyword) : i = j := by
  revert h
  cases i <;> cases j <;> simp [Joiner.keyword]

theorem readJoined_stop {j : Joiner} {ts : List Token} (h : ts.head? ≠ some (.word j.keyword))
    (operand : Parser (Expr α)) (steps : Nat) (left : Expr α) :
    readJoined j operand steps left ts = some (left, ts) := by
  cases steps with
  | zero => rfl
  | succ steps => simp [readJoined, h]

theorem readJoined_step (j : Joiner) (operand : Parser (Expr α)) (steps : Nat) (left : Expr α)
    (ts : List Token) :
    readJoined j operand (steps + 1) left (.word j.keyword :: ts) =
      (operand ts).bind fun (right, rest) =>
        readJoined j operand steps (.join j left right) rest := by
  simp [readJoined]

/-- Another joiner than the one that is looked for. -/
theorem readJoined_other {i j : Joiner} (h : i ≠ j) (operand : Parser (Expr α)) (steps : Nat)
    (left : Expr α) (ts : List Token) :
    readJoined j operand steps left (.word i.keyword :: ts) = some (left, .word i.keyword :: ts) := by
  refine readJoined_stop ?_ operand steps left
  intro heq
  rw [List.head?_cons, Option.some.injEq, Token.word.injEq] at heq
  exact h (keyword_injective heq)

/-- Go on reading an expression of which something was read, with steps left for each
of the three loops. -/
def readOn (term : Parser (Expr α)) (steps conj excl alts : Nat) (r : Reading (Expr α)) :
    Parser (Expr α) := fun ts =>
  (readJoined .and term conj r.conjuncts ts).bind fun (a, ts) =>
    (readJoined .xor (readLevel .and term steps) excl
      (Reading.behind Expr.join .xor r.exclusives a) ts).bind fun (x, ts) =>
      readJoined .or (readLevel .xor (readLevel .and term steps) steps) alts
        (Reading.behind Expr.join .or r.alternatives x) ts

theorem readOn_of_ends {ts : List Token} (h : Ends ts) (term : Parser (Expr α))
    (steps conj excl alts : Nat) (r : Reading (Expr α)) :
    readOn term steps conj excl alts r ts = some (r.close Expr.join, ts) := by
  simp only [readOn, readJoined_stop (h .and), readJoined_stop (h .xor), readJoined_stop (h .or),
    Option.bind_some]
  rfl

/-- Reading starts with the first term. -/
theorem readExpr_of_term {term : Parser (Expr α)} {ts rest : List Token} {e : Expr α}
    (h : term ts = some (e, rest)) (steps : Nat) :
    readExpr term steps ts = readOn term steps steps steps steps ⟨none, none, e⟩ rest := by
  simp only [readExpr, readOn, readLevel, h, Option.bind_some, Option.bind_assoc]
  rfl

/-- One more operand: the loop of its joiner takes a step, the loops of the tighter
joiners begin anew. -/
theorem readOn_push {term : Parser (Expr α)} {ts rest : List Token} {e : Expr α}
    (h : term ts = some (e, rest)) (j : Joiner) (steps conj excl alts : Nat)
    (r : Reading (Expr α)) :
    readOn term steps (conj + 1) (excl + 1) (alts + 1) r (.word j.keyword :: ts) =
      match j with
      | .and => readOn term steps conj (excl + 1) (alts + 1) (r.push Expr.join (j, e)) rest
      | .xor => readOn term steps steps excl (alts + 1) (r.push Expr.join (j, e)) rest
      | .or => readOn term steps steps steps alts (r.push Expr.join (j, e)) rest := by
  cases j with
  | and =>
    simp only [readOn, readJoined_step, h, Option.bind_some]
    rfl
  | xor =>
    have hskip := readJoined_other (i := .xor) (j := .and) (by decide) term (conj + 1)
      r.conjuncts ts
    simp only [readOn, hskip, readJoined_step, readLevel, h, Option.bind_some, Option.bind_assoc]
    rfl
  | or =>
    have hskip := readJoined_other (i := .or) (j := .and) (by decide) term (conj + 1)
      r.conjuncts ts
    have hskip' (left : Expr α) := readJoined_other (i := .or) (j := .xor) (by decide)
      (readLevel .and term steps) (excl + 1) left ts
    simp only [readOn, hskip, hskip', readJoined_step, readLevel, h, Option.bind_some,
      Option.bind_assoc]
    rfl

/-! ## Reading the tokens of an expression -/

section
variable {β : Type} {atom : Parser β}

/-- Whatever follows, the tokens are read as a term. -/
def ReadsTerm (atom : Parser β) (tokens : List Token) (e : Expr β) : Prop :=
  ∀ depth steps rest, tokens.length ≤ depth → tokens.length ≤ steps →
    readTerm atom steps depth (tokens ++ rest) = some (e, rest)

/-- Where no joiner follows, the tokens are read as operands behind what was read. -/
def ReadsRest (atom : Parser β) (tokens : List Token) (row : Row (Expr β)) : Prop :=
  ∀ depth steps conj excl alts r rest, tokens.length ≤ depth → tokens.length ≤ steps →
    tokens.length ≤ conj → tokens.length ≤ excl → tokens.length ≤ alts → Ends rest →
      readOn (readTerm atom steps depth) steps conj excl alts r (tokens ++ rest) =
        some ((r.pushAll Expr.join row).close Expr.join, rest)

theorem readsRest_nil : ReadsRest atom [] [] := by
  intro depth steps conj excl alts r rest _ _ _ _ _ hends
  exact readOn_of_ends hends _ _ _ _ _ _

theorem readsRest_cons {ts tokens : List Token} {e : Expr β} {row : Row (Expr β)}
    (hterm : ReadsTerm atom ts e) (hrest : ReadsRest atom tokens row) (j : Joiner) :
    ReadsRest atom (.word j.keyword :: (ts ++ tokens)) ((j, e) :: row) := by
  intro depth steps conj excl alts r rest hdepth hsteps hconj hexcl halts hends
  simp only [List.length_cons, List.length_append] at hdepth hsteps hconj hexcl halts
  obtain ⟨conj, rfl⟩ : ∃ n, conj = n + 1 := ⟨conj - 1, by omega⟩
  obtain ⟨excl, rfl⟩ : ∃ n, excl = n + 1 := ⟨excl - 1, by omega⟩
  obtain ⟨alts, rfl⟩ : ∃ n, alts = n + 1 := ⟨alts - 1, by omega⟩
  have hfirst := hterm depth steps (tokens ++ rest) (by omega) (by omega)
  rw [List.cons_append, List.append_assoc, readOn_push hfirst, Reading.pushAll_cons]
  cases j with
  | and => exact hrest _ _ _ _ _ _ _ (by omega) (by omega) (by omega) (by omega) (by omega) hends
  | xor => exact hrest _ _ _ _ _ _ _ (by omega) (by omega) (by omega) (by omega) (by omega) hends
  | or => exact hrest _ _ _ _ _ _ _ (by omega) (by omega) (by omega) (by omega) (by omega) hends

/-- A first term and the operands behind it make an expression. -/
theorem readExpr_of_reads {ts tokens rest : List Token} {e : Expr β} {row : Row (Expr β)}
    (hterm : ReadsTerm atom ts e) (hrest : ReadsRest atom tokens row) {depth steps : Nat}
    (hdepth : (ts ++ tokens).length ≤ depth) (hsteps : (ts ++ tokens).length ≤ steps)
    (hends : Ends rest) (j : Joiner) :
    ∃ value, Row.value Expr.join ((j, e) :: row) = some value ∧
      readExpr (readTerm atom steps depth) steps (ts ++ tokens ++ rest) = some (value, rest) := by
  rw [List.length_append] at hdepth hsteps
  have hfirst := hterm depth steps (tokens ++ rest) (by omega) (by omega)
  refine ⟨_, rfl, ?_⟩
  rw [List.append_assoc, readExpr_of_term hfirst]
  exact hrest _ _ _ _ _ _ _ (by omega) (by omega) (by omega) (by omega) (by omega) hends

/-- A term in parentheses. -/
theorem readsTerm_paren {ts : List Token} {e : Expr β}
    (h : ∀ depth steps rest, ts.length ≤ depth → ts.length ≤ steps → Ends rest →
      readExpr (readTerm atom steps depth) steps (ts ++ rest) = some (e, rest)) :
    ReadsTerm atom ([.symbol .openParen] ++ ts ++ [.symbol .closeParen]) e := by
  intro depth steps rest hdepth hsteps
  simp only [List.length_append, List.length_singleton] at hdepth hsteps
  obtain ⟨depth, rfl⟩ : ∃ n, depth = n + 1 := ⟨depth - 1, by omega⟩
  have hends : Ends (.symbol .closeParen :: rest) := by
    intro j
    simp
  have hinner := h depth steps (.symbol .closeParen :: rest) (by omega) (by omega) hends
  simp [readTerm, hinner]

/-- An atom. -/
theorem readsTerm_atom {ts : List Token} {b : β} (hne : ts ≠ [])
    (hopen : ts.head? ≠ some (.symbol .openParen))
    (hread : ∀ rest, atom (ts ++ rest) = some (b, rest)) : ReadsTerm atom ts (.atom b) := by
  intro depth steps rest hdepth _
  rcases List.exists_cons_of_ne_nil hne with ⟨t, ts, rfl⟩
  obtain ⟨depth, rfl⟩ : ∃ n, depth = n + 1 := ⟨depth - 1, by simp at hdepth; omega⟩
  have hopen' : ¬ (t :: ts ++ rest).head? = some (.symbol .openParen) := hopen
  rw [readTerm, if_neg hopen', hread, Option.map_some]

variable {node : String} {parts : α → List Part} {value : α → β}

/-- Where its atoms are read, each term of an expression is read as its operand, and the
terms behind the first one as the operands behind it. -/
theorem reads_of_solid {c : Chain α} (h : Chain.Solid c)
    (hatoms : ∀ a ∈ Chain.atoms c,
      ReadsTerm atom ((parts a).map (Part.token node)) (.atom (value a))) :
    ReadsRest atom ((Chain.restParts parts c).map (Part.token node))
        (Chain.row Expr.join (fun a => .atom (value a)) c) ∧
      (c ≠ [] → ∀ depth steps rest, (Chain.chainParts parts c).length ≤ depth →
        (Chain.chainParts parts c).length ≤ steps → Ends rest →
        ∃ e, Row.value Expr.join (Chain.row Expr.join (fun a => .atom (value a)) c) = some e ∧
          readExpr (readTerm atom steps depth) steps
            ((Chain.chainParts parts c).map (Part.token node) ++ rest) = some (e, rest)) := by
  -- a first operand with what stands behind it
  have hcons {j : Joiner} {ps : List Part} {rest : Chain α} {e : Expr β}
      (hterm : ReadsTerm atom (ps.map (Part.token node)) e)
      (hrest : ReadsRest atom ((Chain.restParts parts rest).map (Part.token node))
        (Chain.row Expr.join (fun a => .atom (value a)) rest)) :
      ReadsRest atom (([j.part] ++ ps ++ Chain.restParts parts rest).map (Part.token node))
          ((j, e) :: Chain.row Expr.join (fun a => .atom (value a)) rest) ∧
        (∀ depth steps more, (ps ++ Chain.restParts parts rest).length ≤ depth →
          (ps ++ Chain.restParts parts rest).length ≤ steps → Ends more →
          ∃ v, Row.value Expr.join ((j, e) ::
              Chain.row Expr.join (fun a => .atom (value a)) rest) = some v ∧
            readExpr (readTerm atom steps depth) steps
              ((ps ++ Chain.restParts parts rest).map (Part.token node) ++ more) =
                some (v, more)) := by
    constructor
    · have hword : j.part.token node = .word j.keyword := by cases j <;> rfl
      have hrow := readsRest_cons hterm hrest j
      simpa [hword] using hrow
    · intro depth steps more hdepth hsteps hends
      rw [List.map_append]
      refine readExpr_of_reads hterm hrest ?_ ?_ hends j
      · simpa using hdepth
      · simpa using hsteps
  induction h with
  | nil => exact ⟨readsRest_nil, fun hne => absurd rfl hne⟩
  | @atom j a rest _ ih =>
    have hrest := (ih fun b hb => hatoms b (by simp [Chain.atoms, hb])).1
    have hterm := hatoms a (by simp [Chain.atoms, Chain.termAtoms])
    rcases hcons (j := j) hterm hrest with ⟨hbehind, hfirst⟩
    exact ⟨hbehind, fun _ => hfirst⟩
  | @paren j terms rest hne _ _ ihterms ihrest =>
    have hrest := (ihrest fun b hb => hatoms b (by simp [Chain.atoms, hb])).1
    have hinner := (ihterms fun b hb => hatoms b (by simp [Chain.atoms, Chain.termAtoms, hb])).2 hne
    rcases hinner _ _ [] (Nat.le_refl _) (Nat.le_refl _) (by intro j; simp) with ⟨e, he, -⟩
    have hterm : ReadsTerm atom
        (([Part.symbol .openParen] ++ Chain.chainParts parts terms ++
            [Part.symbol .closeParen]).map
          (Part.token node)) e := by
      rw [List.map_append, List.map_append]
      refine readsTerm_paren ?_
      intro depth steps more hdepth hsteps hends
      rw [List.length_map] at hdepth hsteps
      rcases hinner depth steps more hdepth hsteps hends with ⟨e', he', hread⟩
      rw [he, Option.some.injEq] at he'
      rw [he']
      exact hread
    rcases hcons (j := j) hterm hrest with ⟨hbehind, hfirst⟩
    have hrow : Chain.row Expr.join (fun a => .atom (value a)) ((j, .paren terms) :: rest) =
        (j, e) :: Chain.row Expr.join (fun a => .atom (value a)) rest := by
      rw [Chain.row, Chain.termRow, Row.wrap, he]
      rfl
    rw [hrow]
    exact ⟨hbehind, fun _ => hfirst⟩

end

/-! ## Reading predicates -/

theorem readProperty_parts (node field : String) (rest : List Token) :
    readProperty node ((propertyParts field).map (Part.token node) ++ rest) =
      some (field, rest) := by
  simp [propertyParts, Part.token, readProperty]

theorem readComparison_parts (negated : Bool) (node field placeholder : String) (r : Relation)
    (rest : List Token) :
    readComparison negated field
        ([r.part, .placeholder placeholder].map (Part.token node) ++ rest) =
      some (.compares negated field r.symbol placeholder, rest) := by
  cases r <;>
    simp [Relation.part, Relation.symbol, Part.token, readComparison, readSymbol?, Keyword.text,
      Symbol.punctuation, Symbol.text]

/-- Behind a property, a comparison is no test for null. -/
theorem readTest_parts (node field placeholder : String) (r : Relation) (rest : List Token) :
    readTest field ([r.part, .placeholder placeholder].map (Part.token node) ++ rest) =
      some (.compares false field r.symbol placeholder, rest) := by
  rw [← readComparison_parts false node field placeholder r rest]
  cases r <;> simp [Relation.part, Part.token, readTest, Keyword.text]

end Cypher

/-- What a bound predicate is read as. -/
def Predicate.atom (p : Predicate Bound) : Cypher.Atom :=
  match p.test with
  | .null false => .isNull p.field
  | .null true => .isNotNull p.field
  | .relates relation operand =>
    .compares relation.isNegated p.field relation.symbol operand.placeholder

/-- A bound predicate is read as what it says. -/
theorem Predicate.readAtom_parts (node : String) (p : Predicate Bound) (rest : List Token) :
    Cypher.readAtom node (p.parts.map (Part.token node) ++ rest) = some (p.atom, rest) := by
  rcases p with ⟨field, test⟩
  have hproperty (ts : List Token) : Cypher.readAtom node
      ((propertyParts field).map (Part.token node) ++ ts) = Cypher.readTest field ts := by
    simp only [Cypher.readAtom, Cypher.readProperty_parts]
  cases test with
  | null negated =>
    cases negated with
    | false =>
      simp only [parts, Bool.false_eq_true, if_false, List.map_append, List.append_assoc]
      rw [hproperty]
      simp [Part.token, Keyword.text, Cypher.readTest, atom]
    | true =>
      simp only [parts, if_true, List.map_append, List.append_assoc]
      rw [hproperty]
      simp [Part.token, Keyword.text, Cypher.readTest, atom]
  | relates relation operand =>
    cases hnegated : relation.isNegated with
    | false =>
      simp only [parts, hnegated, Bool.false_eq_true, if_false, List.nil_append, List.map_append,
        List.append_assoc]
      rw [hproperty, Cypher.readTest_parts]
      simp only [atom, hnegated]
    | true =>
      -- the word in front is not taken for the node: no dot follows it
      have hword (ts : List Token) : Cypher.readAtom node
          (.word "NOT" :: ((propertyParts field).map (Part.token node) ++ ts)) =
            Cypher.readComparison true field ts := by
        have hnone : Cypher.readProperty node
            (.word "NOT" :: ((propertyParts field).map (Part.token node) ++ ts)) = none := by
          simp [propertyParts, Part.token, Cypher.readProperty]
        simp only [Cypher.readAtom, hnone, Cypher.readNegated, Cypher.readProperty_parts,
          Option.bind_some]
      have hparts : (Predicate.mk field (.relates relation operand)).parts.map (Part.token node) ++
          rest = .word "NOT" :: ((propertyParts field).map (Part.token node) ++
            ([relation.part, .placeholder operand.placeholder].map (Part.token node) ++ rest)) := by
        simp [parts, hnegated, Part.token, Keyword.text]
      rw [hparts, hword, Cypher.readComparison_parts]
      simp only [atom, hnegated]

/-- A bound predicate is read as an atom. -/
theorem Predicate.readsTerm_parts (node : String) (p : Predicate Bound) :
    Cypher.ReadsTerm (Cypher.readAtom node) (p.parts.map (Part.token node)) (.atom p.atom) := by
  refine Cypher.readsTerm_atom ?_ ?_ (p.readAtom_parts node)
  · rcases p with ⟨field, test⟩
    cases test <;> simp [parts, propertyParts]
  · rcases p with ⟨field, test⟩
    cases test with
    | null negated => simp [parts, propertyParts, Part.token]
    | relates relation operand =>
      cases hnegated : relation.isNegated <;> simp [parts, hnegated, propertyParts, Part.token]

/-- The text of a where object is read as the value of its row of predicates. -/
theorem readCondition_bind {node : String} (halias : Cypher.isPlainName node = true) (w : Where)
    (names : NameSupply) :
    Cypher.readCondition node (Tree.clause node (w.bind.run names).1).text =
      some (Row.value Cypher.Expr.join
        (Tree.row Cypher.Expr.join (fun p => .atom p.atom) (w.bind.run names).1)) := by
  have hlex := (spells_tree halias w names).lex_eq
  generalize (w.bind.run names).1 = t at hlex ⊢
  unfold Cypher.readCondition
  rw [hlex]
  by_cases hchain : t.toChain = []
  · rw [Tree.parts_eq_nil_iff.mpr hchain, Tree.row, hchain]
    rfl
  · have hne : t.parts.map (Part.token node) ≠ [] := by
      rw [ne_eq, List.map_eq_nil_iff, Tree.parts_eq_nil_iff]
      exact hchain
    obtain ⟨e, he, hread⟩ := (Cypher.reads_of_solid (Tree.solid_toChain t)
      fun p _ => p.readsTerm_parts node).2 hchain t.parts.length t.parts.length []
      (Nat.le_refl _) (Nat.le_refl _) (by intro j; simp)
    rw [List.append_nil] at hread
    have hlength : (t.parts.map (Part.token node)).length = t.parts.length := List.length_map _
    rw [Tree.row, he]
    split
    · contradiction
    · rename_i hnil
      rw [Option.some.injEq] at hnil
      exact absurd hnil hne
    · rename_i ts _ hts
      rw [Option.some.injEq] at hts
      rw [← hts, hlength]
      unfold Tree.parts at hread ⊢
      rw [hread]

end GraphFilter

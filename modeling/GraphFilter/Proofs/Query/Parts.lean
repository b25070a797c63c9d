import GraphFilter.Proofs.Cypher.Part
import GraphFilter.Proofs.Filter.Compiled

/-!
# The parts of whole queries

A query that finds or counts nodes is read as a sequence of parts that can be told
from the request alone: fixed words around the label, the conditions, the returned
properties, the order and the paging.  Texts from the input only occur as names.

Main results:

- Theorem {lit}`Request.spells_query`: the text of a query is read as the parts of
  its request.
- Theorem {lit}`Request.lex_query`: the names among its tokens are those of the
  input, and the other tokens are not up to the input.
-/

namespace GraphFilter

open Cypher (Symbol Token Lexes Closed Stops)

/-! ## Requests -/

/-- The parts of a paging clause. -/
def Options.pagingParts (o : Options) (k : Keyword) (name : String) : Option UInt64 → List Part
  | none => []
  | some n => if n = 0 && !o.zeroPaging then [] else [.keyword k, .placeholder name]

/-- The well-formed comparisons of a where object with their names, in text order. -/
def Where.boundLeaves : Option Where → List (Predicate Bound)
  | none => []
  | some w => Tree.textLeaves (w.bind.run .empty).1

/-- The fields of well-formed comparisons, in text order. -/
def Where.renderedFields : Option Where → List String
  | none => []
  | some w => ((Tree.textLeaves w).filter Comparison.isWellFormed).map Comparison.field

namespace Request

/-- The where object of a request. -/
def condition : Request → Option Where
  | find f => f.condition
  | count w => w

/-- The properties a request asks to return. -/
def fields : Request → List String
  | find f => f.fields
  | count _ => []

/-- The well-formed order entries of a request. -/
def orderKeys : Request → List OrderKey
  | find f => f.order.filterMap OrderKey.parse?
  | count _ => []

/-- The paging parts of a request. -/
def pagingParts (o : Options) : Request → List Part
  | find f => o.pagingParts .skip "skip" f.skip ++ o.pagingParts .limit "limit" f.limit
  | count _ => []

/-- The names in the query for a request: the label of the model, then the fields of
the comparisons, of the returned properties and of the order entries. -/
def names (model : String) (r : Request) : List String :=
  String.ofList (Text.capitalize model.toList) ::
    (Where.renderedFields r.condition ++ r.fields ++ r.orderKeys.map OrderKey.field)

end Request

/-! ## Parts of a request -/

/-- The parts of an order entry. -/
def OrderKey.parts (k : OrderKey) : List Part :=
  propertyParts k.field ++ (k.direction.map Part.direction).toList

namespace Options

/-- The parts of a where clause, none if no condition is left. -/
def whereParts : Option Where → List Part
  | none => []
  | some w =>
    let parts := Tree.parts (w.bind.run .empty).1
    if parts.isEmpty then [] else [.keyword .where] ++ parts

/-- The parts of an order clause. -/
def orderParts : List OrderKey → List Part
  | [] => []
  | keys =>
    [.keyword .order, .keyword .by] ++ [.symbol .comma].intercalate (keys.map OrderKey.parts)

/-- The parts of what is returned: the node or some of its properties. -/
def returnedParts : List String → List Part
  | [] => [.node]
  | fields => [.symbol .comma].intercalate (fields.map propertyParts)

end Options

/-- The parts of the clause that matches the nodes of a model. -/
def Query.matchParts (model : String) : List Part :=
  [.keyword .match, .symbol .openParen, .node, .symbol .colon,
    .name (String.ofList (Text.capitalize model.toList)), .symbol .closeParen]

/-- The parts of the query for a request. -/
def Request.parts (o : Options) (model : String) : Request → List Part
  | find f =>
    Query.matchParts model ++ Options.whereParts f.condition ++
      [.keyword .return] ++ Options.returnedParts f.fields ++
      Options.orderParts (find f).orderKeys ++ (find f).pagingParts o
  | count w =>
    Query.matchParts model ++ Options.whereParts w ++
      [.keyword .return, .keyword .count, .symbol .openParen, .node, .symbol .closeParen,
        .keyword .as, .keyword .count]

/-! ## Rows of pieces -/

theorem map_intercalate {α β : Type} (f : α → β) (between : List α) (rows : List (List α)) :
    (between.intercalate rows).map f = (between.map f).intercalate (rows.map (List.map f)) := by
  induction rows with
  | nil => rfl
  | cons row rows ih =>
    cases rows with
    | nil => simp
    | cons second rows => simpa using ih

/-- A row of pieces with commas between them. -/
theorem Spells.commas {node : String} {texts : List String} {rows : List (List Part)}
    (h : List.Forall₂ (Spells node) texts rows) :
    Spells node (", ".intercalate texts) ([.symbol .comma].intercalate rows) := by
  have hcomma : Closed ", " [.symbol .comma] := by
    have hsymbol := Cypher.closed_symbol .comma (by decide)
    exact hsymbol.lexes.append_closed Cypher.closed_blank ⟨' ', by decide, [], rfl⟩
  have hrows : List.Forall₂ Lexes texts (rows.map (List.map (Part.token node))) :=
    List.forall₂_map_right_iff.mpr h
  unfold Spells
  rw [map_intercalate]
  exact Lexes.intercalate hcomma ⟨',', by decide, [' '], rfl⟩ hrows

/-- A row of pieces with blanks between them, where empty pieces are left out. -/
theorem Spells.joinParts {node : String} {texts : List String} {rows : List (List Part)}
    (h : List.Forall₂ (Spells node) texts rows) :
    Spells node (GraphFilter.joinParts texts) rows.flatten := by
  obtain ⟨kept, hkept, hflatten⟩ : ∃ kept : List (List Part),
      List.Forall₂ (Spells node) (texts.filter fun text => !text.isEmpty) kept ∧
        kept.flatten = rows.flatten := by
    induction h with
    | nil => exact ⟨[], List.Forall₂.nil, rfl⟩
    | @cons text row texts rows hfirst hrest ih =>
      rcases ih with ⟨kept, hkept, hflatten⟩
      by_cases hempty : text = ""
      · subst hempty
        have hrow : row = [] := List.map_eq_nil_iff.mp (Lexes.eq_nil_of_empty hfirst)
        exact ⟨kept, by simpa using hkept, by simp [hflatten, hrow]⟩
      · refine ⟨row :: kept, ?_, by simp [hflatten]⟩
        rw [List.filter_cons_of_pos (by simpa using hempty)]
        exact List.Forall₂.cons hfirst hkept
  have hrows : List.Forall₂ Lexes (texts.filter fun text => !text.isEmpty)
      (kept.map (List.map (Part.token node))) := List.forall₂_map_right_iff.mpr hkept
  have hread := Lexes.intercalate Cypher.closed_blank ⟨' ', by decide, [], rfl⟩ hrows
  have hnone (rows : List (List Token)) : [].intercalate rows = rows.flatten := by
    induction rows with
    | nil => rfl
    | cons row rows ih => cases rows <;> simp_all
  unfold Spells GraphFilter.joinParts
  rw [← hflatten, List.map_flatten, ← hnone]
  exact hread

/-! ## Reading the clauses -/

section
variable {o : Options}

theorem spells_matchClause (halias : Cypher.isPlainName o.nodeAlias = true) (model : String) :
    Spells o.nodeAlias (Query.matchClause o model) (Query.matchParts model) := by
  have hnode : Closed (o.nodeAlias ++ ":") ([.word o.nodeAlias] ++ [.symbol .colon]) :=
    (Cypher.lexes_plain halias).append_closed (Cypher.closed_symbol .colon (by decide))
      ⟨':', by decide, [], rfl⟩
  have hlabel : Spells o.nodeAlias (o.nodeAlias ++ ":" ++ Cypher.label model)
      [.node, .symbol .colon, .name (String.ofList (Text.capitalize model.toList))] :=
    hnode.append (Cypher.lexes_quote _)
  have htext : Query.matchClause o model =
      "MATCH" ++ " " ++ ("(" ++ (o.nodeAlias ++ ":" ++ Cypher.label model) ++ ")") := by
    apply String.toList_injective
    simp [Query.matchClause]
  rw [htext]
  exact (spells_keyword .match).spaced hlabel.enclosed

/-- What a counting query returns. -/
theorem spells_count (halias : Cypher.isPlainName o.nodeAlias = true) :
    Spells o.nodeAlias ("RETURN count(" ++ o.nodeAlias ++ ") AS count")
      [.keyword .return, .keyword .count, .symbol .openParen, .node, .symbol .closeParen,
        .keyword .as, .keyword .count] := by
  have hnode : Spells o.nodeAlias o.nodeAlias [.node] := Cypher.lexes_plain halias
  have hcall : Spells o.nodeAlias ("count" ++ ("(" ++ o.nodeAlias ++ ")"))
      [.keyword .count, .symbol .openParen, .node, .symbol .closeParen] :=
    (spells_keyword .count).append hnode.enclosed (by simp [Stops, Cypher.delimiters])
  have htext : "RETURN count(" ++ o.nodeAlias ++ ") AS count" =
      "RETURN" ++ " " ++ ("count" ++ ("(" ++ o.nodeAlias ++ ")")) ++ " " ++ "AS" ++ " " ++
        "count" := by
    apply String.toList_injective
    simp
  rw [htext]
  exact (((spells_keyword .return).spaced hcall).spaced (spells_keyword .as)).spaced
    (spells_keyword .count)

theorem spells_compiledCondition (halias : Cypher.isPlainName o.nodeAlias = true)
    (w : Option Where) :
    Spells o.nodeAlias (o.compiledCondition w).text (Options.whereParts w) := by
  cases w with
  | none => exact Cypher.closed_empty.lexes
  | some w =>
    have hread := spells_tree halias w .empty
    have hempty := isEmpty_clause halias w .empty
    simp only [Options.compiledCondition, Options.withKeyword, Options.whereParts, hempty]
    split
    · rename_i hnone
      rw [List.isEmpty_iff.mp hnone] at hread
      exact hread
    · have hwhere := (spells_keyword .where).spaced hread
      exact hwhere

/-! ## Order, paging and returned properties -/

/-- An ASCII letter may stand in a word. -/
theorem isWordChar_of_isAlpha {c : Char} (h : c.isAlpha = true) : Cypher.isWordChar c = true := by
  have hascii : c.toNat < 0x80 := by
    have hranges : (decide (c.val ≥ 'A'.val ∧ c.val ≤ 'Z'.val) ||
        (c.val ≥ 'a'.val && c.val ≤ 'z'.val)) = true := h
    simp only [Bool.or_eq_true, Bool.and_eq_true, decide_eq_true_eq, UInt32.le_iff_toNat_le]
      at hranges
    change c.val.toNat < 0x80
    rcases hranges with ⟨-, hle⟩ | ⟨-, hle⟩
    · exact Nat.lt_of_le_of_lt hle (by decide)
    · exact Nat.lt_of_le_of_lt hle (by decide)
  simp [Cypher.isWordChar, Text.isAlphabetic_of_ascii hascii, h]

theorem isAlpha_of_isUpper_toUpper {c : Char} (h : c.toUpper.isUpper = true) :
    c.isAlpha = true := by
  change (c.isUpper || c.isLower) = true
  rw [Bool.or_eq_true]
  unfold Char.toUpper at h
  split at h
  · rename_i hrange
    have hlower : (c.val ≥ 'a'.val && c.val ≤ 'z'.val) = true := by
      rw [Bool.and_eq_true, decide_eq_true_eq, decide_eq_true_eq]
      exact hrange
    exact Or.inr hlower
  · exact Or.inl h

namespace OrderKey

/-- A direction is a word, however it is written. -/
theorem spells_direction {node word : String} (h : isDirection word.toList = true) :
    Spells node word [.direction word] := by
  have hupper : ∀ u ∈ word.toList.map Char.toUpper, u.isUpper = true := by
    have hword := h
    simp only [isDirection, Bool.or_eq_true, beq_iff_eq] at hword
    rcases hword with hword | hword
    · rw [hword]
      exact List.all_eq_true.mp (by decide)
    · rw [hword]
      exact List.all_eq_true.mp (by decide)
  refine Cypher.lexes_word ?_ ?_
  · intro hnil
    rw [hnil] at h
    simp [isDirection] at h
  · intro c hc
    have hc' := hupper c.toUpper (List.mem_map_of_mem hc)
    exact isWordChar_of_isAlpha (isAlpha_of_isUpper_toUpper hc')

/-- The direction of a well-formed entry is a direction. -/
theorem isDirection_of_parse? {entry : String} {k : OrderKey} (h : parse? entry = some k) :
    ∀ word ∈ k.direction, isDirection word.toList = true := by
  intro word hword
  simp only [parse?] at h
  split at h
  · simp at h
  split at h
  · rw [Option.some.injEq] at h
    rw [← h] at hword
    simp at hword
  split at h
  · rename_i hdirection
    rw [Option.some.injEq] at h
    rw [← h, Option.mem_def, Option.some.injEq] at hword
    rw [← hword, String.toList_ofList]
    exact hdirection
  · simp at h

theorem spells_render (halias : Cypher.isPlainName o.nodeAlias = true) {entry : String}
    {k : OrderKey} (h : parse? entry = some k) :
    Spells o.nodeAlias (k.render o.nodeAlias) k.parts := by
  have hproperty := spells_property halias k.field
  unfold render parts
  cases hd : k.direction with
  | none => simpa using hproperty
  | some word =>
    have hword : Spells o.nodeAlias word [.direction word] :=
      spells_direction (isDirection_of_parse? h word hd)
    exact hproperty.spaced hword

end OrderKey

theorem spells_compiledOrder (halias : Cypher.isPlainName o.nodeAlias = true)
    (entries : List String) :
    Spells o.nodeAlias (o.compiledOrder entries).text
      (Options.orderParts (entries.filterMap OrderKey.parse?)) := by
  have hrows : List.Forall₂ (Spells o.nodeAlias)
      ((entries.filterMap OrderKey.parse?).map (OrderKey.render o.nodeAlias))
      ((entries.filterMap OrderKey.parse?).map OrderKey.parts) := by
    rw [List.forall₂_map_left_iff, List.forall₂_map_right_iff, List.forall₂_same]
    intro k hk
    rcases List.mem_filterMap.mp hk with ⟨entry, -, hentry⟩
    exact OrderKey.spells_render halias hentry
  have hcommas := Spells.commas hrows
  unfold Options.compiledOrder
  cases hkeys : entries.filterMap OrderKey.parse? with
  | nil => exact Cypher.closed_empty.lexes
  | cons k keys =>
    rw [hkeys] at hcommas
    have horder := ((spells_keyword .order).spaced (spells_keyword .by)).spaced hcommas
    exact horder

theorem spells_pagingClause {k : Keyword} {name : String}
    (hne : name.toList ≠ []) (hname : name.toList.all isParamChar = true) (n : Option UInt64) :
    Spells o.nodeAlias (o.pagingClause k.text name n).text (o.pagingParts k name n) := by
  cases n with
  | none => exact Cypher.closed_empty.lexes
  | some n =>
    unfold Options.pagingClause Options.pagingParts
    simp only
    split
    · exact Cypher.closed_empty.lexes
    · have hparam : Spells o.nodeAlias ("$" ++ name) [.placeholder name] :=
        Cypher.lexes_param hne (List.all_eq_true.mp hname)
      have hboth := (spells_keyword k).spaced hparam
      have hblank : k.text ++ " $" ++ name = k.text ++ " " ++ ("$" ++ name) := by
        rw [String.append_assoc, String.append_assoc, blank_dollar]
      rw [hblank]
      exact hboth

theorem spells_returned (halias : Cypher.isPlainName o.nodeAlias = true) (fields : List String) :
    Spells o.nodeAlias
      (if (o.projection fields).isEmpty then o.nodeAlias else o.projection fields)
      (Options.returnedParts fields) := by
  have hrows : List.Forall₂ (Spells o.nodeAlias) (fields.map (property o.nodeAlias))
      (fields.map propertyParts) := by
    rw [List.forall₂_map_left_iff, List.forall₂_map_right_iff, List.forall₂_same]
    intro field _
    exact spells_property halias field
  have hcommas := Spells.commas hrows
  cases fields with
  | nil => exact Cypher.lexes_plain halias
  | cons field fields =>
    have hne : (o.projection (field :: fields)).isEmpty = false := by
      rw [Bool.eq_false_iff]
      intro hempty
      have htext : ", ".intercalate ((field :: fields).map (property o.nodeAlias)) = "" := by
        simpa [Options.projection] using hempty
      rw [htext] at hcommas
      have hnil := Lexes.eq_nil_of_empty hcommas
      cases fields <;> simp [propertyParts] at hnil
    rw [if_neg (by simp [hne])]
    exact hcommas

end

/-! ## Whole queries -/

namespace Request

/-- The query for a request is read as the parts of the request. -/
theorem spells_query {o : Options} (halias : Cypher.isPlainName o.nodeAlias = true)
    (model : String) (r : Request) :
    Spells o.nodeAlias (r.compiled o model).text (r.parts o model) := by
  have hmatch := spells_matchClause halias model
  cases r with
  | find f =>
    have hcondition := spells_compiledCondition halias f.condition
    have hreturn := (spells_keyword .return).spaced (spells_returned halias f.fields)
    have horder := spells_compiledOrder halias f.order
    have hskip : Spells o.nodeAlias (o.pagingClause "SKIP" "skip" f.skip).text
        (o.pagingParts .skip "skip" f.skip) :=
      spells_pagingClause (k := .skip) (by decide) (by decide) f.skip
    have hlimit : Spells o.nodeAlias (o.pagingClause "LIMIT" "limit" f.limit).text
        (o.pagingParts .limit "limit" f.limit) :=
      spells_pagingClause (k := .limit) (by decide) (by decide) f.limit
    have htail := Spells.joinParts
      (.cons horder (.cons hskip (.cons hlimit List.Forall₂.nil)))
    have hall := Spells.joinParts
      (.cons hmatch (.cons hcondition (.cons hreturn (.cons htail List.Forall₂.nil))))
    have hparts : (find f).parts o model =
        [Query.matchParts model, Options.whereParts f.condition,
          [.keyword .return] ++ Options.returnedParts f.fields,
          [Options.orderParts (f.order.filterMap OrderKey.parse?),
            o.pagingParts .skip "skip" f.skip, o.pagingParts .limit "limit" f.limit].flatten
          ].flatten := by
      simp [parts, orderKeys, pagingParts]
    rw [hparts]
    exact hall
  | count w =>
    have hcondition := spells_compiledCondition halias w
    have hall := Spells.joinParts
      (.cons hmatch (.cons hcondition (.cons (spells_count halias) List.Forall₂.nil)))
    have hparts : (count w).parts o model =
        [Query.matchParts model, Options.whereParts w,
          [.keyword .return, .keyword .count, .symbol .openParen, .node, .symbol .closeParen,
            .keyword .as, .keyword .count]].flatten := by
      simp [parts]
    rw [hparts]
    exact hall

end Request

/-! ## What depends on the input -/

/-- The fields of the comparisons that were given names, in text order. -/
theorem map_field_bind (w : Where) (names : NameSupply) :
    (Tree.textLeaves (w.bind.run names).1).map Predicate.field =
      ((Tree.textLeaves w).filter Comparison.isWellFormed).map Comparison.field := by
  rw [← List.forall₂_eq_eq_eq, List.forall₂_map_left_iff, List.forall₂_map_right_iff]
  refine (w.forall₂_bind names).imp ?_
  intro p c hcheck
  rw [← p.field_unbind]
  exact (Comparison.accepts_of_check? hcheck).1

namespace Part

/-- A question about parts that fixed words, symbols and the node do not answer. -/
structure Ignores {β : Type} (f : Part → Option β) : Prop where
  keyword : ∀ k, f (.keyword k) = none
  symbol : ∀ s, f (.symbol s) = none
  node : f .node = none

end Part

section
variable {β : Type} {f : Part → Option β} (hf : Part.Ignores f)
include hf

theorem filterMap_commas (rows : List (List Part)) :
    ([.symbol .comma].intercalate rows).filterMap f = rows.flatMap (List.filterMap f) := by
  induction rows with
  | nil => rfl
  | cons row rows ih =>
    cases rows with
    | nil => simp
    | cons second rows => simp_all [hf.symbol]

theorem filterMap_whereParts (w : Option Where) :
    (Options.whereParts w).filterMap f =
      (Where.boundLeaves w).flatMap fun p => p.parts.filterMap f := by
  cases w with
  | none => rfl
  | some w =>
    have hparts := (Chain.filterMap_parts hf.keyword hf.symbol Predicate.parts
      (Tree.toChain (w.bind.run .empty).1)).1
    rw [Tree.atoms_toChain] at hparts
    simp only [Options.whereParts, Where.boundLeaves]
    rw [← hparts]
    split
    · rename_i hempty
      rw [← Tree.parts, List.isEmpty_iff.mp hempty]
    · simp [hf.keyword, Tree.parts]

theorem filterMap_orderParts (keys : List OrderKey) :
    (Options.orderParts keys).filterMap f = keys.flatMap fun k => k.parts.filterMap f := by
  cases keys with
  | nil => rfl
  | cons k keys =>
    rw [Options.orderParts, List.filterMap_append, filterMap_commas hf, List.flatMap_map]
    · simp [hf.keyword]
    · simp

theorem filterMap_returnedParts (fields : List String) :
    (Options.returnedParts fields).filterMap f =
      fields.flatMap fun field => (propertyParts field).filterMap f := by
  cases fields with
  | nil => simp [Options.returnedParts, hf.node]
  | cons field fields =>
    rw [Options.returnedParts, filterMap_commas hf, List.flatMap_map]
    simp

/-- What is asked of the parts of a request is asked of the label, the comparisons, the
returned properties, the order entries and the paging. -/
theorem Request.filterMap_parts (o : Options) (model : String) (r : Request) :
    (r.parts o model).filterMap f =
      [.name (String.ofList (Text.capitalize model.toList))].filterMap f ++
        (Where.boundLeaves r.condition).flatMap (fun p => p.parts.filterMap f) ++
        r.fields.flatMap (fun field => (propertyParts field).filterMap f) ++
        r.orderKeys.flatMap (fun k => k.parts.filterMap f) ++ (r.pagingParts o).filterMap f := by
  have hmatch : (Query.matchParts model).filterMap f =
      [.name (String.ofList (Text.capitalize model.toList))].filterMap f := by
    simp [Query.matchParts, List.filterMap_cons, hf.keyword, hf.symbol, hf.node]
  cases r with
  | find filter =>
    simp only [parts, List.filterMap_append, hmatch, filterMap_whereParts hf,
      filterMap_returnedParts hf, filterMap_orderParts hf]
    simp [condition, fields, hf.keyword]
  | count w =>
    simp only [parts, List.filterMap_append, hmatch, filterMap_whereParts hf]
    simp [condition, fields, orderKeys, pagingParts, hf.keyword, hf.symbol, hf.node]

end

/-- Of a bound predicate its field and its placeholder are asked, if it has one. -/
theorem Predicate.filterMap_parts {β : Type} {f : Part → Option β} (hf : Part.Ignores f)
    (p : Predicate Bound) :
    p.parts.filterMap f =
      (f (.name p.field)).toList ++ p.placeholder?.toList.filterMap fun id => f (.placeholder id) := by
  rcases p with ⟨field, test⟩
  have hproperty : (propertyParts field).filterMap f = (f (.name field)).toList := by
    cases hname : f (.name field) <;> simp [propertyParts, hf.node, hf.symbol, hname]
  cases test with
  | null negated =>
    have hword : (if negated then [Part.keyword .is, .keyword .not, .keyword .null]
        else [.keyword .is, .keyword .null]).filterMap f = [] := by
      cases negated <;> simp [hf.keyword]
    rw [parts, List.filterMap_append, hproperty, hword]
    rfl
  | relates relation operand =>
    have hnegation : (if relation.isNegated then [Part.keyword .not] else []).filterMap f = [] := by
      cases relation.isNegated <;> simp [hf.keyword]
    have hsymbol : f relation.part = none := by
      cases relation with
      | member negated => exact hf.keyword _
      | contains negated => exact hf.keyword _
      | _ => exact hf.symbol _
    rw [parts, List.filterMap_append, List.filterMap_append, hnegation, hproperty,
      List.filterMap_cons_none hsymbol]
    rfl

namespace Request

/-- Paging only adds fixed words and placeholders. -/
theorem filterMap_pagingParts {β : Type} {f : Part → Option β} (hf : Part.Ignores f)
    (hplaceholder : ∀ id, f (.placeholder id) = none) (o : Options) (r : Request) :
    (r.pagingParts o).filterMap f = [] := by
  have hclause (k : Keyword) (name : String) (n : Option UInt64) :
      (o.pagingParts k name n).filterMap f = [] := by
    cases n with
    | none => rfl
    | some n =>
      simp only [Options.pagingParts]
      split
      · rfl
      · simp [hf.keyword, hplaceholder]
  cases r with
  | find filter => rw [pagingParts, List.filterMap_append, hclause, hclause, List.append_nil]
  | count w => rfl

/-- The names among the parts of a request are those of the input. -/
theorem filterMap_name?_parts (o : Options) (model : String) (r : Request) :
    (r.parts o model).filterMap Part.name? = r.names model := by
  have hf : Part.Ignores Part.name? := ⟨fun _ => rfl, fun _ => rfl, rfl⟩
  have hleaves : (Where.boundLeaves r.condition).map Predicate.field =
      Where.renderedFields r.condition := by
    cases r.condition with
    | none => rfl
    | some w => exact map_field_bind w .empty
  have hpredicate (p : Predicate Bound) : p.parts.filterMap Part.name? = [p.field] := by
    rw [p.filterMap_parts hf]
    cases p.placeholder? <;> rfl
  have hproperty (field : String) : (propertyParts field).filterMap Part.name? = [field] := rfl
  have hkey (k : OrderKey) : k.parts.filterMap Part.name? = [k.field] := by
    rcases k with ⟨field, direction⟩
    cases direction <;> rfl
  rw [filterMap_parts hf, filterMap_pagingParts hf (fun _ => rfl), names, ← hleaves]
  simp only [hpredicate, hproperty, hkey, List.map_eq_flatMap]
  simp [Part.name?]

/-- The directions among the parts of a request are directions. -/
theorem isDirection_of_mem_parts {o : Options} {model : String} {r : Request} {word : String}
    (h : .direction word ∈ r.parts o model) : OrderKey.isDirection word.toList = true := by
  have hf : Part.Ignores Part.direction? := ⟨fun _ => rfl, fun _ => rfl, rfl⟩
  have hmem : word ∈ (r.parts o model).filterMap Part.direction? :=
    List.mem_filterMap.mpr ⟨_, h, rfl⟩
  have hpredicate (p : Predicate Bound) : p.parts.filterMap Part.direction? = [] := by
    rw [p.filterMap_parts hf]
    cases p.placeholder? <;> rfl
  have hproperty (field : String) : (propertyParts field).filterMap Part.direction? = [] := rfl
  have hkey (k : OrderKey) : k.parts.filterMap Part.direction? = k.direction.toList := by
    rcases k with ⟨field, direction⟩
    cases direction <;> rfl
  rw [filterMap_parts hf, filterMap_pagingParts hf (fun _ => rfl)] at hmem
  simp only [hpredicate, hproperty, hkey] at hmem
  obtain ⟨k, hk, hword⟩ : ∃ k ∈ r.orderKeys, word ∈ k.direction := by
    simpa [Part.direction?] using hmem
  cases r with
  | find f =>
    rcases List.mem_filterMap.mp hk with ⟨entry, -, hentry⟩
    exact OrderKey.isDirection_of_parse? hentry word hword
  | count w => cases hk

/-- The text of a query has the tokens of the parts of its request: the names from the
input are one token each, whose value is the name, directions are directions, and all
other tokens are the matched node, placeholders, fixed words and symbols. -/
theorem lex_query {o : Options} (halias : Cypher.isPlainName o.nodeAlias = true) {model : String}
    {r : Request} {q : Query} {warnings : List Warning}
    (hrun : (r.query o model).runFresh = (.ok q, warnings)) :
    Cypher.lex q.text = some ((r.parts o model).map (Part.token o.nodeAlias)) ∧
      ((r.parts o model).filter Part.isName).map (fun p => (p.token o.nodeAlias).name?) =
        (r.names model).map some ∧
      ∀ word, .direction word ∈ r.parts o model → OrderKey.isDirection word.toList = true := by
  rw [eq_compiled hrun]
  refine ⟨(spells_query halias model r).lex_eq, ?_, fun word hword => isDirection_of_mem_parts hword⟩
  rw [← filterMap_name?_parts o model r]
  exact Part.map_token_filter_isName o.nodeAlias (r.parts o model)

/-- A field that holds the end of a quotation stays one name. -/
theorem lex_query_quoted :
    ∃ q, (query .default "user" (.find ⟨some [.leaf ⟨"a`) OR 1", .eq, none⟩], ["b desc"], none,
        some 2, []⟩)).runFresh = (.ok q, []) ∧
      Cypher.lex q.text = some [.word "MATCH", .symbol .openParen, .word "n", .symbol .colon,
        .word "User", .symbol .closeParen, .word "WHERE", .word "n", .symbol .dot,
        .quoted "a`) OR 1", .word "IS", .word "NULL", .word "RETURN", .word "n", .word "ORDER",
        .word "BY", .word "n", .symbol .dot, .word "b", .word "desc", .word "LIMIT",
        .param "limit"] := by
  obtain ⟨q, hrun⟩ : ∃ q, (query .default "user" (.find ⟨some [.leaf ⟨"a`) OR 1", .eq, none⟩],
      ["b desc"], none, some 2, []⟩)).runFresh = (.ok q, []) := ⟨_, rfl⟩
  refine ⟨q, hrun, ?_⟩
  rw [(lex_query (by decide) hrun).1]
  rfl

end Request

end GraphFilter

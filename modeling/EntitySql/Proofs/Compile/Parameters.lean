import EntitySql.Proofs.Compile.Merge
import EntitySql.Proofs.Statement.Bindings

/-! # Parameters of a compiled query

    A compiled query binds what the conditions of the entity query bind: columns,
    joins and sort keys are made of names, and resolving a predicate replaces
    names by names.

    There is one exception. Membership does not heed the mark by which a string
    on the right side is a key: it binds the string. The compiler does heed the
    mark, and resolves the string, so such a *marked member* is bound as the
    resolved key.
-/

namespace EntitySql

open Rendering

/-! ## Bindings of condition groups -/

/-- Of the tokens only predicates bind anything. -/
theorem Condition.bindings_tokens (ts : List Token) :
    (concat (ts.map Token.rendering)).bindings =
      (concat (((ts.filterMap Token.atom?).filterMap Atom.predicate?).map
        Predicate.rendering)).bindings := by
  induction ts with
  | nil => rfl
  | cons t ts ih =>
    rw [List.map_cons, concat_cons]
    -- only a predicate binds anything, every other token is a text
    cases t with
    | predicate p => exact bindings_append_congr rfl ih
    | raw sql => exact ((silent_text sql).bindings_append _).trans ih
    | connective c => exact ((silent_text _).bindings_append _).trans ih
    | opening => exact ((silent_text "(").bindings_append _).trans ih
    | closing => exact ((silent_text ")").bindings_append _).trans ih

/-- A group binds what its predicates bind, one after the other. -/
theorem ConditionGroup.bindings_rendering (g : ConditionGroup) :
    g.rendering.bindings =
      (g.predicates.mapM (bindings ∘ Predicate.rendering)).map List.flatten := by
  have hatoms : g.atoms.filterMap Atom.predicate? = g.predicates :=
    Condition.filterMap_predicate?_atoms g.toCondition
  unfold ConditionGroup.rendering
  rw [Condition.bindings_tokens, filterMap_atom?_tokens, hatoms, bindings_concat, List.mapM_map]

/-! ## Resolved predicates -/

/-- The right side is a string that is marked as a key, and the operator is a membership. -/
structure Predicate.MarkedMember (p : Predicate) (name : String) : Prop where
  operator : ∃ op, p.readOperator = .ok (some op) ∧ op.isMembership = true
  right : p.right = .value (.string name)
  rightIsKey : p.rightIsKey = true

section resolved

variable {root : String} {m : RelationMap}

/-- A left side binds what it did before it was resolved. -/
theorem bindings_leftSide_of_resolveOperand {o o' : Operand}
    (h : resolveOperand root m o = .ok o') : o'.leftSide.bindings = o.leftSide.bindings := by
  cases o with
  | key name =>
    obtain ⟨key, -, rfl⟩ := Outcome.map_eq_ok_iff.1 h
    exact (silent_name key).trans (silent_name name).symm
  | _ =>
    obtain rfl := Except.ok.inj h
    rfl

end resolved

namespace Predicate

variable {left left' right : Operand} {text : Option String} {isKey : Bool}

/-- Left sides of the same bindings give comparisons of the same bindings. -/
theorem bindings_comparison_congr (h : left'.leftSide.bindings = left.leftSide.bindings)
    (op : Operator) :
    (comparison ⟨left', text, right, isKey⟩ op).bindings =
      (comparison ⟨left, text, right, isKey⟩ op).bindings := by
  have hcompared : (left'.leftSide ++ Rendering.text (" " ++ op.sql ++ " ") ++
        rightSide ⟨left', text, right, isKey⟩ op).bindings =
      (left.leftSide ++ Rendering.text (" " ++ op.sql ++ " ") ++
        rightSide ⟨left, text, right, isKey⟩ op).bindings :=
    bindings_append_congr (bindings_append_congr h rfl) rfl
  -- only a comparison with NULL may have another form, and that binds no value
  cases right with
  | value v =>
    cases v with
    | null =>
      unfold comparison
      cases op.nullTest? with
      | none => exact hcompared
      | some test => exact bindings_append_congr h rfl
    | _ => exact hcompared
  | _ => exact hcompared

/-- So do memberships. -/
theorem bindings_membership_congr (h : left'.leftSide.bindings = left.leftSide.bindings)
    (op : Operator) :
    (membership ⟨left', text, right, isKey⟩ op).bindings =
      (membership ⟨left, text, right, isKey⟩ op).bindings := by
  have hhead : (membershipHead ⟨left', text, right, isKey⟩ op).bindings =
      (membershipHead ⟨left, text, right, isKey⟩ op).bindings := bindings_append_congr h rfl
  -- NULL and the empty list are written in their own way
  cases right with
  | key name => rfl
  | expression e => exact bindings_append_congr hhead rfl
  | list ps =>
    cases ps with
    | nil => rfl
    | cons p ps => exact bindings_append_congr hhead rfl
  | value v =>
    cases v with
    | null => exact bindings_append_congr h rfl
    | _ => exact bindings_append_congr hhead rfl

/-- A name on the right side of a comparison binds nothing. -/
theorem bindings_comparison_of_rightKey {name : String}
    (h : rightKey ⟨left, text, right, isKey⟩ = .ok (some name)) (op : Operator) :
    (comparison ⟨left, text, right, isKey⟩ op).bindings = left.leftSide.bindings := by
  have hcompared : comparison ⟨left, text, right, isKey⟩ op =
      left.leftSide ++ Rendering.text (" " ++ op.sql ++ " ") ++
        rightSide ⟨left, text, right, isKey⟩ op := by
    unfold comparison
    dsimp only
    split
    · -- `NULL` is no name
      cases isKey <;> exact absurd h nofun
    · rfl
  have hright : (rightSide ⟨left, text, right, isKey⟩ op).Silent := by
    unfold rightSide
    rw [h]
    exact silent_name name
  rw [hcompared, bindings_append_of_silent _ hright, bindings_append_of_silent _ (silent_text _)]

/-- So comparisons with names bind the same if their left sides do. -/
theorem bindings_comparison_of_names {right' : Operand} {name key : String}
    (hleft : left'.leftSide.bindings = left.leftSide.bindings)
    (hname : rightKey ⟨left, text, right, isKey⟩ = .ok (some name))
    (hkey : rightKey ⟨left', text, right', isKey⟩ = .ok (some key)) (op : Operator) :
    (comparison ⟨left', text, right', isKey⟩ op).bindings =
      (comparison ⟨left, text, right, isKey⟩ op).bindings := by
  rw [bindings_comparison_of_rightKey hname, bindings_comparison_of_rightKey hkey, hleft]

/-- Membership binds a single string last. -/
theorem bindings_membership_string (name : String) (op : Operator) :
    (membership ⟨left, text, .value (.string name), isKey⟩ op).bindings =
      left.leftSide.bindings.map (· ++ [.string name]) := by
  have hhead : (membershipHead ⟨left, text, .value (.string name), isKey⟩ op).bindings =
      left.leftSide.bindings := bindings_append_of_silent _ (silent_text _)
  show (membershipHead _ op ++ parenthesized (param (.string name))).bindings = _
  rw [bindings_append, hhead]
  cases left.leftSide.bindings <;> rfl

/-- Without an operator only the left side is written, and with an unknown one nothing is. Else the
    bindings are those of a membership or of a comparison. -/
theorem bindings_rendering_congr {right' : Operand}
    (hleft : left'.leftSide.bindings = left.leftSide.bindings)
    (hmembership : ∀ op, readOperator ⟨left, text, right, isKey⟩ = .ok (some op) →
      op.isMembership = true → (membership ⟨left', text, right', isKey⟩ op).bindings =
        (membership ⟨left, text, right, isKey⟩ op).bindings)
    (hcomparison : ∀ op, (comparison ⟨left', text, right', isKey⟩ op).bindings =
      (comparison ⟨left, text, right, isKey⟩ op).bindings) :
    (rendering ⟨left', text, right', isKey⟩).bindings =
      (rendering ⟨left, text, right, isKey⟩).bindings := by
  -- the operator is read from its text alone, so it is the same one
  have hread : readOperator ⟨left', text, right', isKey⟩ =
      readOperator ⟨left, text, right, isKey⟩ := rfl
  unfold rendering
  rw [hread]
  cases hop : readOperator ⟨left, text, right, isKey⟩ with
  | error e => rfl
  | ok op? =>
    cases op? with
    | none => exact hleft
    | some op =>
      dsimp only
      split
      · next hmember => exact hmembership op hop hmember
      · exact hcomparison op

/-- A marked member binds its string after what the left side binds. -/
theorem MarkedMember.bindings {p : Predicate} {name : String} (h : p.MarkedMember name) :
    p.rendering.bindings = p.left.leftSide.bindings.map (· ++ [.string name]) := by
  obtain ⟨left, text, right, isKey⟩ := p
  obtain ⟨⟨op, hop, hmember⟩, hright, -⟩ := h
  obtain rfl : right = .value (.string name) := hright
  unfold rendering
  rw [hop]
  dsimp only
  rw [if_pos hmember]
  exact bindings_membership_string name op

/-- A resolved predicate binds what it did before, unless it is a marked member, whose string is
    bound as the resolved key. -/
theorem bindings_resolved {root : String} {m : RelationMap} {p p' : Predicate}
    (h : resolvePredicate root m p = .ok p') :
    (∀ name, ¬ p.MarkedMember name) ∧ p'.rendering.bindings = p.rendering.bindings ∨
      ∃ name key, p.MarkedMember name ∧ resolveKey root m name = .ok key ∧
        p'.rendering.bindings = p.left.leftSide.bindings.map (· ++ [.string key]) := by
  obtain ⟨left', hleft, h⟩ := Outcome.bind_eq_ok_iff.1 h
  obtain ⟨right', hright, h⟩ := Outcome.bind_eq_ok_iff.1 h
  obtain rfl := Outcome.pure_eq_ok_iff.1 h
  replace hleft := bindings_leftSide_of_resolveOperand hleft
  obtain ⟨left, text, right, isKey⟩ := p
  replace hleft : left'.leftSide.bindings = left.leftSide.bindings := hleft
  obtain ⟨name, key, hname, -, rfl⟩ | ⟨name, key, hname, hisKey, hkey, rfl⟩ | ⟨hneither, rfl⟩ :=
    resolveRight_cases hright
  · -- a key is no set of values, and a comparison with it binds nothing on the right
    obtain rfl : right = .key name := hname
    refine Or.inl ⟨fun n hn => absurd hn.right nofun, ?_⟩
    exact bindings_rendering_congr hleft (fun op _ _ => rfl)
      (bindings_comparison_of_names hleft rfl rfl)
  · -- only membership binds a marked string; a comparison takes it for a name
    obtain rfl : right = .value (.string name) := hname
    obtain rfl : isKey = true := hisKey
    by_cases hmember : ∃ n, MarkedMember ⟨left, text, .value (.string name), true⟩ n
    · obtain ⟨n, hn⟩ := hmember
      obtain rfl : name = n := Param.string.inj (Operand.value.inj hn.right)
      have hresolved : MarkedMember ⟨left', text, .value (.string key), true⟩ key :=
        ⟨hn.operator, rfl, rfl⟩
      refine Or.inr ⟨name, key, hn, hkey, ?_⟩
      rw [hresolved.bindings]
      show left'.leftSide.bindings.map _ = left.leftSide.bindings.map _
      rw [hleft]
    · refine Or.inl ⟨fun n hn => hmember ⟨n, hn⟩, ?_⟩
      refine bindings_rendering_congr hleft (fun op hop hset => ?_)
        (bindings_comparison_of_names hleft rfl rfl)
      exact absurd ⟨name, ⟨op, hop, hset⟩, rfl, rfl⟩ hmember
  · -- the right side is what it was
    refine Or.inl ⟨fun n hn => (hneither n).2 ⟨hn.right, hn.rightIsKey⟩, ?_⟩
    exact bindings_rendering_congr hleft (fun op _ _ => bindings_membership_congr hleft op)
      (bindings_comparison_congr hleft)

end Predicate

/-! ## Resolved groups -/

section groups

variable {root : String} {m : RelationMap}

/-- A resolved predicate fails as it did before, or binds as many parameters. -/
theorem Predicate.length_bindings_resolved {p p' : Predicate}
    (h : resolvePredicate root m p = .ok p') :
    p'.rendering.bindings.map List.length = p.rendering.bindings.map List.length := by
  obtain ⟨-, heq⟩ | ⟨name, key, hmember, -, heq⟩ := bindings_resolved h
  · rw [heq]
  · rw [heq, hmember.bindings]
    cases p.left.leftSide.bindings with
    | error e => rfl
    | ok ps =>
      show Except.ok (ps ++ [Param.string key]).length = .ok (ps ++ [Param.string name]).length
      rw [List.length_append, List.length_append]
      rfl

/-- It binds the same parameters if and only if it is no marked member whose string changes. -/
theorem Predicate.bindings_resolved_eq_iff {p p' : Predicate}
    (h : resolvePredicate root m p = .ok p') {ps ps' : List Param}
    (hps : p.rendering.bindings = .ok ps) (hps' : p'.rendering.bindings = .ok ps') :
    ps' = ps ↔ ∀ name, p.MarkedMember name → resolveKey root m name = .ok name := by
  obtain ⟨hnone, heq⟩ | ⟨name, key, hmember, hkey, heq⟩ := bindings_resolved h
  · rw [heq, hps] at hps'
    have hsame : ps' = ps := (Except.ok.inj hps').symm
    exact iff_of_true hsame fun name hname => absurd hname (hnone name)
  · rw [heq] at hps'
    rw [hmember.bindings] at hps
    obtain ⟨own, hown, rfl⟩ := Outcome.map_eq_ok_iff.1 hps
    obtain ⟨own', hown', rfl⟩ := Outcome.map_eq_ok_iff.1 hps'
    -- the left side binds the same, so all depends on the last parameter
    obtain rfl : own = own' := Except.ok.inj (hown.symm.trans hown')
    constructor
    · intro hsame n hn
      obtain rfl : name = n :=
        Param.string.inj (Operand.value.inj (hmember.right.symm.trans hn.right))
      obtain rfl : key = name := by
        simpa using hsame
      exact hkey
    · intro hfixed
      obtain rfl : name = key := Except.ok.inj ((hfixed name hmember).symm.trans hkey)
      rfl

/-- So do the predicates of a resolved group, one after the other. -/
theorem forall₂_bindings_resolved_eq_iff {ps ps' : List Predicate}
    (h : List.Forall₂ (fun p p' => resolvePredicate root m p = .ok p') ps ps')
    {bs bs' : List (List Param)}
    (hbs : List.Forall₂ (fun p b => p.rendering.bindings = .ok b) ps bs)
    (hbs' : List.Forall₂ (fun p b => p.rendering.bindings = .ok b) ps' bs') :
    bs' = bs ↔ ∀ p ∈ ps, ∀ name, p.MarkedMember name → resolveKey root m name = .ok name := by
  -- predicates and their bindings go side by side
  induction h generalizing bs bs' with
  | nil =>
    cases hbs
    cases hbs'
    exact iff_of_true rfl fun p hp => absurd hp List.not_mem_nil
  | cons hp _ ih =>
    cases hbs with
    | cons hb hbs =>
      cases hbs' with
      | cons hb' hbs' =>
        rw [List.cons.injEq, List.forall_mem_cons, ih hbs hbs',
          Predicate.bindings_resolved_eq_iff hp hb hb']

/-- The predicates of a resolved group bind as many parameters each as they did before, up to the
    first error. -/
theorem ConditionGroup.lengths_bindings_resolved {g g' : ConditionGroup}
    (h : g.mapPredicates (resolvePredicate root m) = .ok g') :
    (g'.predicates.mapM (bindings ∘ Predicate.rendering)).map (List.map List.length) =
      (g.predicates.mapM (bindings ∘ Predicate.rendering)).map (List.map List.length) := by
  have hpairs := Outcome.mapM_eq_ok_iff.1 (mapM_predicates h)
  have hlengths := Outcome.map_mapM_congr (hpairs.imp fun p p' hp =>
    (Predicate.length_bindings_resolved hp).symm)
  exact hlengths.symm

/-- A resolved group fails as it did before, or binds as many parameters. -/
theorem ConditionGroup.length_bindings_resolved {g g' : ConditionGroup}
    (h : g.mapPredicates (resolvePredicate root m) = .ok g') :
    g'.rendering.bindings.map List.length = g.rendering.bindings.map List.length := by
  have hsum (x : Except SqlError (List (List Param))) : (x.map List.flatten).map List.length =
      (x.map (List.map List.length)).map List.sum := by
    cases x with
    | error e => rfl
    | ok bs => exact congrArg Except.ok List.length_flatten
  rw [bindings_rendering, bindings_rendering, hsum, hsum, lengths_bindings_resolved h]

/-- It binds the same parameters if and only if no string of a marked member changes. -/
theorem ConditionGroup.bindings_resolved_eq_iff {g g' : ConditionGroup}
    (h : g.mapPredicates (resolvePredicate root m) = .ok g') {ps ps' : List Param}
    (hps : g.rendering.bindings = .ok ps) (hps' : g'.rendering.bindings = .ok ps') :
    ps' = ps ↔
      ∀ p ∈ g.predicates, ∀ name, p.MarkedMember name → resolveKey root m name = .ok name := by
  rw [bindings_rendering] at hps hps'
  obtain ⟨bs, hbs, rfl⟩ := Outcome.map_eq_ok_iff.1 hps
  obtain ⟨bs', hbs', rfl⟩ := Outcome.map_eq_ok_iff.1 hps'
  -- each predicate binds as many parameters, so the lists can be compared one by one
  have hlengths : bs'.map List.length = bs.map List.length := by
    have hviews := lengths_bindings_resolved h
    rw [hbs, hbs'] at hviews
    exact Except.ok.inj hviews
  have hflatten : bs'.flatten = bs.flatten ↔ bs' = bs := by
    rw [List.eq_iff_flatten_eq]
    exact (and_iff_left hlengths).symm
  rw [hflatten]
  exact forall₂_bindings_resolved_eq_iff (Outcome.mapM_eq_ok_iff.1 (mapM_predicates h))
    (Outcome.mapM_eq_ok_iff.1 hbs) (Outcome.mapM_eq_ok_iff.1 hbs')

end groups

/-! ## Selections -/

section selections

/-- A line with conditions binds what the conditions bind, and without any there is none. -/
theorem Query.bindings_conditionLine (keyword : String) (g : ConditionGroup) :
    (concat (conditionLine keyword g)).bindings = g.rendering.bindings := by
  unfold conditionLine
  split
  · next hempty =>
    have hnone : g.predicates = [] := Condition.predicates_of_isEmpty (c := g.toCondition) hempty
    rw [ConditionGroup.bindings_rendering, hnone]
    rfl
  · rw [concat_cons, concat_nil, append_empty]
    exact (silent_text keyword).bindings_append _

/-- A join on a comparison of keys binds nothing. -/
theorem Join.Links.silent_rendering {j : Join} {table name left right : String}
    (h : j.Links table name left right) : j.rendering.Silent := by
  have halias : j.aliasRendering.Silent := by
    unfold aliasRendering
    split
    · exact silent_empty
    · exact (silent_text _).append (silent_name _)
  -- the condition compares two keys, which stand as names
  have hconditions : j.conditions.rendering.Silent := by
    rw [h.conditions]
    rfl
  have htable := (silent_text (j.direction.sql ++ " ")).append (silent_name j.table)
  unfold rendering
  apply (htable.append halias).append
  split
  · exact silent_empty
  · exact (silent_text _).append hconditions

theorem Query.silent_columnsRendering {columns : List Expression}
    (h : ∀ e ∈ columns, ∃ name a, e = .key name a) : (columnsRendering columns).Silent := by
  unfold columnsRendering
  split
  · exact silent_text "*"
  · apply silent_sepBy
    refine List.forall_mem_map.2 fun e he => ?_
    obtain ⟨name, a, rfl⟩ := h e he
    cases a <;> rfl

theorem OrderBy.silent_rendering (o : OrderBy) : (OrderBy.rendering o).Silent := by
  apply silent_sepBy
  exact List.forall_mem_map.2 fun e _ => (silent_name e.1).append (silent_text _)

theorem Query.silent_numberLine (keyword : String) (n : Option UInt64) :
    (concat (numberLine keyword n)).Silent := by
  cases n with
  | none => exact silent_empty
  | some n => exact silent_text _

/-- A selection of keys whose joins are silent binds what its conditions bind. -/
theorem Query.bindings_renderSelect {q : Query}
    (hcolumns : ∀ e ∈ q.columns, ∃ name a, e = .key name a)
    (hjoins : ∀ j ∈ q.joins, j.rendering.Silent) (hgroupBys : q.groupBys = [])
    (hhavings : q.havings = .and) :
    q.renderSelect.bindings = q.conditions.rendering.bindings := by
  have hfirst := (silent_text (if q.distinct then "SELECT DISTINCT " else "SELECT ")).append
    (silent_columnsRendering hcolumns)
  have hfrom := (silent_text "FROM ").append (silent_name q.table)
  have hall : (joinsRendering q.joins).Silent := silent_sepBy "\n" (List.forall_mem_map.2 hjoins)
  have hjoined := silent_line q.joins.isEmpty hall
  have hsorted := silent_line q.orderBys.isEmpty
    ((silent_text "ORDER BY ").append (OrderBy.silent_rendering q.orderBys))
  have hgrouped : (concat (if ([] : List Expression).isEmpty then []
      else [text "GROUP BY " ++ expressions []])).Silent := silent_empty
  have hhaving : (concat (conditionLine "HAVING " .and)).Silent := silent_empty
  have hhead := silent_concat (List.forall_mem_cons.2 ⟨hfirst, List.forall_mem_singleton.2 hfrom⟩)
  unfold renderSelect selectLines
  rw [bindings_sepBy, hgroupBys, hhavings]
  -- the lines after the conditions are silent, and so are those before them
  rw [concat_append, bindings_append_of_silent _ (silent_numberLine "OFFSET " q.offset),
    concat_append, bindings_append_of_silent _ (silent_numberLine "LIMIT " q.limit),
    concat_append, bindings_append_of_silent _ hsorted,
    concat_append, bindings_append_of_silent _ hhaving,
    concat_append, bindings_append_of_silent _ hgrouped,
    concat_append, concat_append, (hhead.append hjoined).bindings_append]
  exact bindings_conditionLine "WHERE " q.conditions

namespace Plan.Made

variable {inspector : Inspector} {q : EntityQuery} {columns : List Expression}
  {paths : List String} {loading : Loading} {own : List (List Join)} {p : Plan}

/-- The joins of the selection are among those of the entries. -/
theorem silent_joins (h : Made inspector q columns paths loading own p) :
    ∀ j ∈ p.selection.joins, j.rendering.Silent := by
  intro j hj
  rw [h.joins_selection] at hj
  have hmem : j ∈ own.flatten := (foldl_addJoin_sublist [] own.flatten).subset hj
  -- a join stems from one entry of the map, which may ask for two
  obtain ⟨js, hjs, hj⟩ := List.mem_flatten.1 hmem
  obtain ⟨e, -, hentry⟩ := Outcome.exists_of_mem_mapM h.entryJoins hjs
  cases joinedBy_of_joinsFor (joinsFor_of_entryJoins h.aliasName hentry) with
  | direct _ _ hjoin =>
    obtain rfl := List.mem_singleton.1 hj
    exact hjoin.silent_rendering
  | through _ _ _ hpivot hjoin =>
    obtain rfl | hj := List.mem_cons.1 hj
    · exact hpivot.silent_rendering
    · obtain rfl := List.mem_singleton.1 hj
      exact hjoin.silent_rendering

/-- The selection binds what the resolved conditions bind. -/
theorem bindings_selection (h : Made inspector q columns paths loading own p) :
    p.selection.rendering.bindings = p.conditions.rendering.bindings := by
  have hextended := h.extendedTo (Query.select p.table)
  have hselect : p.selection.rendering = p.selection.renderSelect := by
    have hoperation : p.selection.operation = .select := hextended.operation
    unfold Query.rendering
    rw [hoperation]
  have hcolumns : ∀ e ∈ p.selection.columns, ∃ name a, e = .key name a := by
    intro e he
    obtain ⟨name, a, he, -⟩ := h.inScope_columns e he
    exact ⟨name, a, he⟩
  -- nothing binds but the conditions, and these bind what their predicates do
  rw [hselect, Query.bindings_renderSelect hcolumns h.silent_joins hextended.groupBys
    hextended.havings, ConditionGroup.bindings_rendering, ConditionGroup.bindings_rendering,
    p.predicates_selection]

end Plan.Made

end selections

/-! ## Parameters of a compiled query -/

/-- Under every shipped dialect and without one, a query that has been compiled on its own fails on
    the error of the entity query's conditions or binds as many parameters. They are the same
    parameters if and only if each marked member among the conditions is the name it is resolved
    to. -/
theorem compile_params_iff_markedMembers_fixed (inspector : Inspector) (q : EntityQuery)
    (db : Option Database) {c : Compilation} (h : compile inspector q none = .ok c) :
    (c.query.rendering.statement (Dialect.ofDatabase db)).map (fun s => s.params.length) =
        (q.conditions.rendering.statement (Dialect.ofDatabase db)).map
          (fun s => s.params.length) ∧
      ∀ s t, q.conditions.rendering.statement (Dialect.ofDatabase db) = .ok s →
        c.query.rendering.statement (Dialect.ofDatabase db) = .ok t →
        (t.params = s.params ↔ ∀ p ∈ q.conditions.predicates, ∀ name, p.MarkedMember name →
          resolveKey c.query.table c.relationMap name = .ok name) := by
  obtain ⟨columns, paths, loading, own, p, hmade, rfl⟩ := exists_made_of_compile h
  -- the dialect has no part in the parameters
  have hparams (r : Rendering) :
      (r.statement (Dialect.ofDatabase db)).map Statement.params = r.bindings :=
    map_params_statement (Dialect.render?_ofDatabase db) r
  constructor
  · have hlength (r : Rendering) :
        (r.statement (Dialect.ofDatabase db)).map (fun s => s.params.length) =
          r.bindings.map List.length := by
      rw [← hparams]
      cases r.statement (Dialect.ofDatabase db) <;> rfl
    rw [hlength, hlength, hmade.bindings_selection,
      ConditionGroup.length_bindings_resolved hmade.mapPredicates]
  · intro s t hs ht
    have hs' := hparams q.conditions.rendering
    have ht' := hparams p.selection.rendering
    rw [hs] at hs'
    rw [ht, hmade.bindings_selection] at ht'
    rw [p.table_selection]
    exact ConditionGroup.bindings_resolved_eq_iff hmade.mapPredicates hs'.symm ht'.symm

/-- A marked member that names a column of a joined table by the table's alias is what it is
    resolved to, so it stays a value like the others. -/
theorem compile_params_iff_markedMembers_fixed_alias :
    let user : ClassMap := { ClassMap.ofTable "users" with
      relationships := .ofList [("home", .ofOne "Address" "home_id" "id")] }
    let schema : Schema := .ofList [("User", user), ("Address", .ofTable "addresses")]
    let city : Predicate := .ofValue "home.city" "=" (.string "Paris")
    let zip : Predicate := ⟨.key "zip", some "in", .value (.string "home.zip"), true⟩
    let q := ((EntityQuery.of "User").filter (.predicate city)).filter (.predicate zip)
    let d := Dialect.ofDatabase (some .sqlite)
    ∃ c t, compile schema.inspector q none = .ok c ∧ c.query.rendering.statement d = .ok t ∧
      t.params = [.string "Paris", .string "home.zip"] := by
  intro user schema city zip q d
  have hview : (compile schema.inspector q none).map (fun c =>
      (resolveKey c.query.table c.relationMap "home.zip",
        (c.query.rendering.statement d).map fun s => s.params.length)) =
      .ok (.ok "home.zip", .ok 2) := by
    decide +kernel
  have hown : (q.conditions.rendering.statement d).map Statement.params =
      .ok [.string "Paris", .string "home.zip"] := by
    decide +kernel
  obtain ⟨c, hc, hparts⟩ := Outcome.map_eq_ok_iff.1 hview
  obtain ⟨hkey, hlength⟩ := Prod.mk.inj hparts
  obtain ⟨t, ht, -⟩ := Outcome.map_eq_ok_iff.1 hlength
  obtain ⟨s, hs, hparams⟩ := Outcome.map_eq_ok_iff.1 hown
  -- the name that is looked up resolves to itself, so the string stays as it is
  have hfixed : ∀ p ∈ q.conditions.predicates, ∀ name, p.MarkedMember name →
      resolveKey c.query.table c.relationMap name = .ok name := by
    intro p hp name hname
    obtain rfl | hp := List.mem_cons.1 hp
    · exact absurd hname.rightIsKey nofun
    · obtain rfl := List.mem_singleton.1 hp
      obtain rfl := Param.string.inj (Operand.value.inj hname.right)
      exact hkey
  have hsame := ((compile_params_iff_markedMembers_fixed schema.inspector q (some .sqlite) hc).2
    s t hs ht).2 hfixed
  exact ⟨c, t, hc, ht, hsame.trans hparams⟩

/-- Another marked member does not stay the value that the conditions bind. -/
theorem compile_rewrites_markedMember :
    let schema : Schema := .ofList [("User", .ofTable "users")]
    let member : Predicate := ⟨.key "a", some "IN", .value (.string "b"), true⟩
    let q := (EntityQuery.of "User").filter (.predicate member)
    let d := Dialect.ofDatabase (some .postgres)
    (q.conditions.rendering.statement d).map Statement.params = .ok [.string "b"] ∧
      ∃ c, compile schema.inspector q none = .ok c ∧
        (c.query.rendering.statement d).map Statement.params = .ok [.string "users.b"] := by
  intro schema member q d
  have hown : (q.conditions.rendering.statement d).map Statement.params =
      .ok [.string "b"] := by
    decide +kernel
  have hview : (compile schema.inspector q none).map (fun c =>
      (c.query.rendering.statement d).map Statement.params) = .ok (.ok [.string "users.b"]) := by
    decide +kernel
  obtain ⟨c, hc, hcompiled⟩ := Outcome.map_eq_ok_iff.1 hview
  exact ⟨hown, c, hc, hcompiled⟩

end EntitySql

import Formula.Evaluator
import Formula.Proofs.Lookups

/-! The functions that come with the language, as the plain list of the functions of doubles
and as a registry. A registry answers a name with its last registration, and since no name of
the groups is registered twice it answers all names like the list, but for the conditional. -/

namespace Formula

namespace Registry

theorem find?_empty (name : String) : empty.find? name = none := by
  rw [find?, empty, Std.TreeMap.get?_eq_getElem?, Std.TreeMap.getElem?_emptyc]

theorem find?_insert (registry : Registry) (registered : String) (function : Function) (name : String) :
    (registry.insert registered function).find? name = if registered = name then some function else registry.find? name := by
  simp only [find?, insert, Std.TreeMap.get?_eq_getElem?, Std.TreeMap.getElem?_insert, Std.LawfulEqCmp.compare_eq_iff_eq]

theorem contains_of_find?_eq_none {registry : Registry} {name : String} (missing : registry.find? name = none) :
    registry.contains name = false := by
  rw [contains, Std.TreeMap.contains_eq_isSome_getElem?, ← Std.TreeMap.get?_eq_getElem?, ← find?, missing]
  rfl

/-- The last entry of a name counts, and the registry where the table has none. -/
theorem find?_insertTable (registry : Registry) (table : Table) (name : String) :
    (registry.insertTable table).find? name = (table.reverse.lookup name).or (registry.find? name) := by
  induction table generalizing registry with
  | nil => rfl
  | cons entry table ih =>
    obtain ⟨registered, function⟩ := entry
    change ((registry.insert registered function).insertTable table).find? name = _
    rw [ih, find?_insert, List.reverse_cons, List.lookup_append, Option.or_assoc, List.lookup_cons, List.lookup_nil]
    by_cases same : registered = name
    · subst same
      rw [if_pos rfl, beq_self_eq_true]
      rfl
    · have other : (name == registered) = false := beq_eq_false_iff_ne.mpr (Ne.symm same)
      rw [if_neg same, other]
      rfl

end Registry

theorem Table.lookup_reverse {table : Table} (distinct : (table.map Prod.fst).Nodup) (name : String) :
    table.reverse.lookup name = table.lookup name := by
  induction table with
  | nil => rfl
  | cons entry table ih =>
    obtain ⟨registered, function⟩ := entry
    obtain ⟨fresh, distinct⟩ := List.nodup_cons.mp distinct
    rw [List.reverse_cons, List.lookup_append, ih distinct]
    simp only [List.lookup_cons, List.lookup_nil]
    by_cases same : name = registered
    · subst same
      have missing : table.lookup name = none := by
        rw [List.lookup_eq_none_iff]
        intro other member
        exact bne_iff_ne.mpr fun equal => fresh (List.mem_map.mpr ⟨other, member, equal.symm⟩)
      rw [missing, Option.none_or, beq_self_eq_true]
    · have other : (name == registered) = false := beq_eq_false_iff_ne.mpr same
      simp only [other, Option.or_none]

def standardTable : Table := mathTable ++ Group.conditional.table

theorem standardTable_distinct : (standardTable.map Prod.fst).Nodup := by decide

private theorem standard_eq_insertTable : Registry.standard = Registry.empty.insertTable standardTable := by
  simp only [Registry.standard, Registry.insertTable, standardTable, mathTable, List.foldl_append]

theorem find?_standard (name : String) : Registry.standard.find? name = standardTable.find? name := by
  rw [standard_eq_insertTable, Registry.find?_insertTable, Table.lookup_reverse standardTable_distinct,
    Registry.find?_empty, Option.or_none]
  rfl

theorem find?_standard_of_ne {name : String} (other : name ≠ "if") :
    Registry.standard.find? name = mathTable.find? name := by
  have missing : Group.conditional.table.lookup name = none := by
    rw [List.lookup_eq_none_iff]
    intro entry member
    rw [List.mem_singleton.mp member]
    exact bne_iff_ne.mpr other
  rw [find?_standard, Table.find?, standardTable, List.lookup_append, missing, Option.or_none]
  rfl

theorem find?_mathTable_if : mathTable.find? "if" = none := by decide

/-- A function that sees values only and never reports by itself that a variable has no value. -/
inductive Function.Quiet : Function → Prop where
  | declared (function : Declared) (quiet : ∀ values others name, function.body.apply values others ≠ .error (.unresolved name)) :
      Quiet (.declared function)
  | conditional : Quiet .conditional

theorem Function.Quiet.valued {function : Function} (quiet : function.Quiet) : function.Valued := by
  cases quiet with
  | declared function quiet => exact .declared function
  | conditional => exact .conditional

/-- A declared function of doubles that always comes to a number. -/
structure Declared.Numerical (function : Declared) : Prop where
  kinds : ∀ kind ∈ function.kinds, kind = .number
  result : ∀ values others, ∃ x, function.body.apply values others = .ok (.number x)

inductive Function.Standard : String → Function → Prop where
  | declared {function : Declared} (numerical : function.Numerical) : Standard function.name (.declared function)
  | conditional : Standard "if" .conditional

theorem Function.Standard.quiet {name : String} {function : Function} (standard : Function.Standard name function) :
    function.Quiet := by
  cases standard with
  | conditional => exact .conditional
  | @declared function numerical =>
    apply Function.Quiet.declared function
    intro values others missing failed
    obtain ⟨x, solved⟩ := numerical.result values others
    cases solved.symm.trans failed

private theorem numerical_unary (name : String) (f : Float → Float) : (Declared.unary name f).Numerical where
  kinds := List.forall_mem_singleton.mpr rfl
  result values _ := ⟨f values.1, rfl⟩

private theorem numerical_angle : Declared.angle.Numerical where
  kinds := List.forall_mem_cons.mpr ⟨rfl, List.forall_mem_singleton.mpr rfl⟩
  result values _ := ⟨values.1.atan2 values.2.1, rfl⟩

private theorem numerical_root : Declared.root.Numerical where
  kinds := List.forall_mem_cons.mpr ⟨rfl, List.forall_mem_singleton.mpr rfl⟩
  result := by
    intro (x, _) (degree, _)
    cases degree with
    | none => exact ⟨x.sqrt, rfl⟩
    | some degree => exact ⟨x.pow (1 / degree), rfl⟩

theorem standard_ofDeclared {functions : List Declared} (numerical : ∀ function ∈ functions, function.Numerical) :
    ∀ entry ∈ Table.ofDeclared functions, Function.Standard entry.1 entry.2 := by
  intro entry member
  obtain ⟨function, declared, rfl⟩ := List.mem_map.mp member
  exact .declared (numerical function declared)

theorem standard_standardTable : ∀ entry ∈ standardTable, Function.Standard entry.1 entry.2 := by
  have trigonometric : ∀ entry ∈ Group.trigonometric.table, Function.Standard entry.1 entry.2 := by
    apply standard_ofDeclared
    simp only [List.forall_mem_cons, numerical_unary, numerical_angle, true_and]
    exact nofun
  have hyperbolic : ∀ entry ∈ Group.hyperbolic.table, Function.Standard entry.1 entry.2 := by
    apply standard_ofDeclared
    simp only [List.forall_mem_cons, numerical_unary, true_and]
    exact nofun
  have exponential : ∀ entry ∈ Group.exponential.table, Function.Standard entry.1 entry.2 := by
    apply standard_ofDeclared
    simp only [List.forall_mem_cons, numerical_unary, numerical_root, true_and]
    exact nofun
  have conditional : ∀ entry ∈ Group.conditional.table, Function.Standard entry.1 entry.2 := by
    intro entry member
    rw [List.mem_singleton.mp member]
    exact .conditional
  simp only [standardTable, mathTable, List.forall_mem_append]
  exact ⟨⟨⟨trigonometric, hyperbolic⟩, exponential⟩, conditional⟩

theorem Table.mem_of_find? {table : Table} {name : String} {function : Function} (found : table.find? name = some function) :
    (name, function) ∈ table := by
  obtain ⟨before, after, rfl, -⟩ := List.lookup_eq_some_iff.mp found
  exact List.mem_append_right _ List.mem_cons_self

theorem standard_of_find? {name : String} {function : Function} (found : Registry.standard.find? name = some function) :
    Function.Standard name function := by
  rw [find?_standard] at found
  exact standard_standardTable _ (Table.mem_of_find? found)

theorem quiet_mathTable {name : String} {function : Function} (found : mathTable.find? name = some function) :
    function.Quiet := (standard_standardTable _ (List.mem_append_left _ (Table.mem_of_find? found))).quiet

/-- A formula that does not look for the conditional looks for nothing that only the registry
has. -/
theorem eval_standard (value? : String → Option Value) (expr : Expr) :
    expr.eval ⟨value?, mathTable.find?⟩ = .error (.undefined "if") ∨
      expr.eval ⟨value?, mathTable.find?⟩ = expr.eval ⟨value?, Registry.standard.find?⟩ := by
  have valued : Scope.Valued ⟨value?, mathTable.find?⟩ := fun name function found => (quiet_mathTable found).valued
  by_cases looked : .function "if" ∈ (expr.record ⟨value?, mathTable.find?⟩).lookups
  · exact .inl (expr.eval_of_missing_function valued looked find?_mathTable_if)
  · refine .inr (Expr.eval_of_lookups valued ?_).symm
    intro lookup member
    cases lookup with
    | value name => rfl
    | function name =>
      apply find?_standard_of_ne
      intro same
      exact looked (same ▸ member)

/-- With the functions of doubles alone a formula has the value or failure that it has with all
functions of the language, unless it fails for want of the conditional; so has every text. -/
theorem evaluate_standard (value? : String → Option Value) :
    (∀ expr : Expr, expr.eval ⟨value?, mathTable.find?⟩ = .error (.undefined "if") ∨
      expr.eval ⟨value?, mathTable.find?⟩ = expr.eval ⟨value?, Registry.standard.find?⟩) ∧
    ∀ text, evaluateText value? text = .error (.eval (.undefined "if")) ∨
      evaluateText value? text = Evaluator.standard.evaluateText text value? := by
  refine ⟨eval_standard value?, ?_⟩
  intro text
  change evaluateIn ⟨value?, mathTable.find?⟩ defaultLimit text = _ ∨
    evaluateIn ⟨value?, mathTable.find?⟩ defaultLimit text = evaluateIn ⟨value?, Registry.standard.find?⟩ defaultLimit text
  simp only [evaluateIn]
  cases compile defaultLimit text with
  | error error => exact .inr rfl
  | ok expr =>
    rcases eval_standard value? expr with undefined | same
    · exact .inl (by simp only [undefined])
    · exact .inr (by simp only [same])

end Formula

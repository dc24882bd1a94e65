import Formula.Session
import Formula.Host.Functions
import Formula.Proofs.ByteOrder
import Formula.Proofs.Catalogue

/-! What a registry answers, told by the registrations that it has seen. The last entry of a
name is all that counts, so registrations with the same last entries lead to registries that
no formula and no list of names tells apart. A clone has a history of its own. -/

namespace Formula

/-- What a host does to have more functions: one under a name, or those of a group. -/
inductive Registration where
  | single (name : String) (function : Function)
  | group (members : Group)

def Registration.entries : Registration → Table
  | single name function => [(name, function)]
  | group members => members.table

namespace Table

def names (table : Table) : List String := table.map Prod.fst

def Last (table : Table) (name : String) (function : Function) : Prop :=
  ∃ before after, table = before ++ (name, function) :: after ∧ name ∉ names after

end Table

namespace Registry

def register (registry : Registry) : Registration → Registry
  | .single name function => registry.insert name function
  | .group members => registry.insertTable members.table

/-- The registry that starts empty and sees these registrations. -/
def after (registrations : List Registration) : Registry := registrations.foldl register empty

/-- What comes of calls of the name on any arguments and among any values. They stand in a
formula, one that is evaluated by itself or inside a program, or a program makes them. -/
structure Answers (registry : Registry) (name : String)
    (answer : Calls → Scope → List Argument → Except EvalError Value) : Prop where
  formula : ∀ calls value? arguments, (Expr.call name arguments).evalBy calls ⟨value?, registry.find?⟩ =
    answer calls ⟨value?, registry.find?⟩ (Expr.evalArgumentsBy calls ⟨value?, registry.find?⟩ arguments)
  program : ∀ calls {count} (scopes : Fin count → Scope) table scope arguments next,
    (scopes table).function? = registry.find? →
    (Program.call table name scope arguments next).perform calls scopes =
      (next (answer calls (scopes scope) (Expr.evalArgumentsBy calls (scopes scope) arguments))).perform calls scopes

/-- Registries that a host cannot tell apart. -/
structure Alike (one other : Registry) : Prop where
  eval : ∀ value? (expr : Expr), expr.eval ⟨value?, one.find?⟩ = expr.eval ⟨value?, other.find?⟩
  call : ∀ value? (function : Function) arguments,
    function.call ⟨value?, one.find?⟩ arguments = function.call ⟨value?, other.find?⟩ arguments
  contains : ∀ name, one.contains name = other.contains name
  names : one.names = other.names
  describe : one.describe = other.describe

end Registry

namespace Registry

end Registry

/-- The names of a group are different, so each is the last entry of its own. -/
theorem Group.last {group : Group} {name : String} {function : Function} (member : (name, function) ∈ group.table) :
    group.table.Last name function := by
  have distinct : group.table.names.Nodup := by cases group <;> decide
  obtain ⟨before, after, split⟩ := List.append_of_mem member
  refine ⟨before, after, split, ?_⟩
  rw [split, Table.names, List.map_append, List.map_cons] at distinct
  exact (List.nodup_cons.mp (List.nodup_append.mp distinct).2.1).1

inductive Change where
  | register (registration : Registration)
  | fork
  | swap

def Session.change (session : Session) : Change → Session
  | .register (.single name function) => session.register name function
  | .register (.group members) => session.install members
  | .fork => session.fork
  | .swap => session.swap

/-- The registrations that each evaluator of a host has seen. A clone takes those of its
original along. -/
structure Histories where
  evaluator : List Registration
  spare : List Registration

def Histories.change (histories : Histories) : Change → Histories
  | .register registration => { histories with evaluator := histories.evaluator ++ [registration] }
  | .fork => { histories with spare := histories.evaluator }
  | .swap => ⟨histories.spare, histories.evaluator⟩

/-- Both evaluators have the functions of their own histories. -/
structure Histories.Tracks (histories : Histories) (session : Session) : Prop where
  evaluator : session.evaluator.registry = .after histories.evaluator
  spare : session.spare.registry = .after histories.spare

theorem Histories.Tracks.change {histories : Histories} {session : Session} (tracks : histories.Tracks session)
    (change : Change) : (histories.change change).Tracks (session.change change) := by
  cases change with
  | register registration =>
    have registered : Registry.after (histories.evaluator ++ [registration]) =
        session.evaluator.registry.register registration := by
      rw [tracks.evaluator, Registry.after, List.foldl_append]
      rfl
    cases registration with
    | single name function => exact ⟨registered.symm, tracks.spare⟩
    | group members => exact ⟨registered.symm, tracks.spare⟩
  | fork => exact ⟨tracks.evaluator, tracks.evaluator⟩
  | swap => exact ⟨tracks.spare, tracks.evaluator⟩

def Session.run (session : Session) (changes : List Change) : Session := changes.foldl Session.change session

def Histories.run (histories : Histories) (changes : List Change) : Histories := changes.foldl Histories.change histories

theorem Histories.Tracks.run {histories : Histories} {session : Session} (tracks : histories.Tracks session)
    (changes : List Change) : (histories.run changes).Tracks (session.run changes) := by
  induction changes generalizing histories session with
  | nil => exact tracks
  | cons change changes ih => exact ih (tracks.change change)

end Formula

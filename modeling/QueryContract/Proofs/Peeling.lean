import QueryContract.Vocabulary

/-!
# `Proofs.Peeling` — layers taken off a type

The element type of a result and the type inside optional wrappers are found in one way: first arguments are taken
as long as the type is a layer and has an argument. Which types are layers is all that differs.

* `PeelsTo layer t core` — the relation, for any property `layer` of types;
* `peelWhile`            — its computation for a decided property (`peelsTo_iff`);
* `elementType_eq_peelWhile`, `peelOptional_eq_peelWhile` — the two uses.
-/

namespace QueryContract

/-- Taking first arguments as long as there is one and the type is a layer leads from one type to another. -/
inductive PeelsTo (layer : DeclaredType → Prop) : DeclaredType → DeclaredType → Prop
  | bare {t : DeclaredType} : ¬layer t → PeelsTo layer t t
  | raw {t : DeclaredType} : t.args = [] → PeelsTo layer t t
  | inside {t inner core : DeclaredType} :
      layer t → t.firstArg? = some inner → PeelsTo layer inner core → PeelsTo layer t core

namespace DeclaredType

/-- First arguments taken as long as there is one and the type is a layer. -/
def peelWhile (layer : DeclaredType → Bool) : DeclaredType → DeclaredType
  | mk path [] => mk path []
  | mk path (first :: more) =>
    if layer (mk path (first :: more)) then peelWhile layer first else mk path (first :: more)

/-- **`peelWhile` computes the relation.** -/
theorem peelsTo_iff {layer : DeclaredType → Bool} {P : DeclaredType → Prop} (hP : ∀ t, P t ↔ layer t = true)
    {t core : DeclaredType} : PeelsTo P t core ↔ t.peelWhile layer = core := by
  fun_induction peelWhile layer t with
  | case1 path =>
      constructor
      · intro h
        cases h with
        | bare _ => rfl
        | raw _ => rfl
        | inside _ hfirst _ => cases hfirst
      · rintro rfl
        exact .raw rfl
  | case2 path first more hlayer ih =>
      rw [← ih]
      constructor
      · intro h
        cases h with
        | bare hbare => exact absurd ((hP _).2 hlayer) hbare
        | raw hraw => cases hraw
        | inside _ hfirst hcore =>
            injection hfirst with hfirst
            exact hfirst ▸ hcore
      · intro h
        exact .inside ((hP _).2 hlayer) rfl h
  | case3 path first more hlayer =>
      have hbare : ¬P (mk path (first :: more)) := fun h => hlayer ((hP _).1 h)
      constructor
      · intro h
        cases h with
        | bare _ => rfl
        | raw hraw => cases hraw
        | inside hin _ _ => exact absurd hin hbare
      · rintro rfl
        exact .bare hbare

end DeclaredType

/-! ## Uses -/

/-- The element type is found by peeling wrappers and containers. -/
theorem Vocabulary.elementType_eq_peelWhile (v : Vocabulary) (t : DeclaredType) :
    v.elementType t = t.peelWhile v.isLayer := by
  fun_induction Vocabulary.elementType v t with
  | case1 path => rfl
  | case2 path first more hlayer ih => rw [DeclaredType.peelWhile, if_pos hlayer, ih]
  | case3 path first more hlayer => rw [DeclaredType.peelWhile, if_neg hlayer]

/-- What optional wrappers hold is found by peeling them. -/
theorem WrapperTable.peelOptional_eq_peelWhile (w : WrapperTable) (t : DeclaredType) :
    w.peelOptional t = t.peelWhile w.isOptional := by
  fun_induction WrapperTable.peelOptional w t with
  | case1 path => rfl
  | case2 path first more hlayer ih => rw [DeclaredType.peelWhile, if_pos hlayer, ih]
  | case3 path first more hlayer => rw [DeclaredType.peelWhile, if_neg hlayer]

end QueryContract

import QueryContract.Proofs.Precedence

/-!
# `Proofs.Elements` — the element type of a result

The element type of a result is looked for along the first arguments: a type, its first argument, the first argument of
that, and so on. It is the first of these types that is no layer or has no argument. Hence it does not matter how many
of the layers have been taken off already.

* `DeclaredType.chain`   — the types that are met, from the outside to the inside;
* `Innermost`            — where the search stops;
* `PeelsTo.split_chain`  — what peeling arrives at, and what it has passed;
* `elementType_complete` — the main statement, with the laws that follow from it.
-/

namespace QueryContract

/-! ## Chains of first arguments -/

namespace DeclaredType

/-- The type, its first argument, the first argument of that, and so on. -/
def chain : DeclaredType → List DeclaredType
  | mk path [] => [mk path []]
  | mk path (first :: more) => mk path (first :: more) :: chain first

theorem chain_raw {t : DeclaredType} (h : t.args = []) : t.chain = [t] := by
  obtain ⟨path, args⟩ := t
  obtain rfl : args = [] := h
  rfl

theorem chain_firstArg {t inner : DeclaredType} (h : t.firstArg? = some inner) : t.chain = t :: inner.chain := by
  obtain ⟨path, args⟩ := t
  cases args with
  | nil => cases h
  | cons first more =>
      obtain rfl : first = inner := Option.some.inj h
      rfl

/-- A chain starts with the type itself. -/
theorem exists_chain_cons (t : DeclaredType) : ∃ inner, t.chain = t :: inner := by
  cases hfirst : t.firstArg? with
  | none =>
      have hraw : t.args = [] := List.head?_eq_none_iff.1 hfirst
      exact ⟨[], chain_raw hraw⟩
  | some inner => exact ⟨inner.chain, chain_firstArg hfirst⟩

end DeclaredType

namespace PeelsTo

variable {layer : DeclaredType → Prop} {t core : DeclaredType}

/-- What peeling arrives at is no layer, or has no argument. -/
theorem stops (h : PeelsTo layer t core) : core.args = [] ∨ ¬layer core := by
  induction h with
  | bare hbare => exact .inr hbare
  | raw hraw => exact .inl hraw
  | inside _ _ _ ih => exact ih

/-- What peeling arrives at cannot be peeled again. -/
theorem again (h : PeelsTo layer t core) : PeelsTo layer core core := by
  rcases h.stops with hraw | hbare
  · exact .raw hraw
  · exact .bare hbare

/-- **What peeling arrives at lies on the chain of first arguments,** and all that stands before it there are layers
    with an argument. -/
theorem split_chain (h : PeelsTo layer t core) :
    ∃ outer inner, t.chain = outer ++ core :: inner ∧ ∀ x ∈ outer, ¬(x.args = [] ∨ ¬layer x) := by
  induction h with
  | @bare t _ =>
      obtain ⟨inner, hchain⟩ := t.exists_chain_cons
      exact ⟨[], inner, hchain, nofun⟩
  | @raw t hraw => exact ⟨[], [], DeclaredType.chain_raw hraw, nofun⟩
  | @inside t first core hlayer hfirst _ ih =>
      obtain ⟨outer, inner, hchain, houter⟩ := ih
      refine ⟨t :: outer, inner, by rw [DeclaredType.chain_firstArg hfirst, hchain, List.cons_append], ?_⟩
      intro x hx
      rcases List.mem_cons.1 hx with rfl | hx
      · rintro (hraw | hbare)
        · rw [DeclaredType.firstArg?, hraw] at hfirst
          cases hfirst
        · exact hbare hlayer
      · exact houter x hx

end PeelsTo

/-! ## Element types -/

namespace Vocabulary

/-- The search for the element type stops here: the type has no argument, or it is neither a wrapper nor a container. -/
def Innermost (v : Vocabulary) (t : DeclaredType) : Prop := t.args = [] ∨ ¬v.Layer t

variable {v : Vocabulary} {t u inner core : DeclaredType}

theorem elementType_iff : PeelsTo v.Layer t core ↔ v.elementType t = core := by
  rw [elementType_eq_peelWhile]
  exact DeclaredType.peelsTo_iff fun _ => layer_iff

theorem peelsTo_elementType (v : Vocabulary) (t : DeclaredType) : PeelsTo v.Layer t (v.elementType t) :=
  elementType_iff.2 rfl

/-- A layer with an argument has the element type of that argument. -/
theorem elementType_layer (hlayer : v.Layer t) (hfirst : t.firstArg? = some inner) :
    v.elementType t = v.elementType inner :=
  elementType_iff.1 (.inside hlayer hfirst (v.peelsTo_elementType inner))

/-- Taking one wrapper off leaves the element type as it is, because both follow the first argument. -/
theorem elementType_inside (h : v.Inside t u) : v.elementType u = v.elementType t := by
  rcases h with ⟨hreg, hfirst⟩ | ⟨-, rfl⟩
  · exact (elementType_layer (.inl hreg) hfirst).symm
  · rfl

/-- **The element type is peeled completely, and does not depend on the layers around it.** It is the first type along the
    first arguments at which the search stops. So its own element type is itself; a wrapper or container with arguments
    has the element type of its first argument; and taking one wrapper off first changes nothing, so that the element
    type in the meaning of a result is that of the declared and of the unwrapped type alike. -/
theorem elementType_complete (v : Vocabulary) (t : DeclaredType) :
    (∃ outer inner, t.chain = outer ++ v.elementType t :: inner ∧ v.Innermost (v.elementType t) ∧
      ∀ x ∈ outer, ¬v.Innermost x) ∧
    v.elementType (v.elementType t) = v.elementType t ∧
    (∀ path first more, t = .mk path (first :: more) → v.Layer t → v.elementType t = v.elementType first) ∧
    (∀ u, v.wrappers.unwrap t = .ok u → v.elementType u = v.elementType t) ∧
    ∀ domain r, v.resolve t domain none = .ok r →
      r.element = v.elementType r.declared ∧ r.element = v.elementType r.unwrapped ∧ r.declared = t := by
  have hpeels := v.peelsTo_elementType t
  refine ⟨?_, elementType_iff.1 hpeels.again, ?_, fun u hu => elementType_inside (unwrap_eq_ok_iff.1 hu), ?_⟩
  · obtain ⟨outer, inner, hchain, houter⟩ := hpeels.split_chain
    exact ⟨outer, inner, hchain, hpeels.stops, houter⟩
  · rintro path first more rfl hlayer
    exact elementType_layer hlayer rfl
  · intro domain r hr
    have hmeaning := resolve_eq_ok_iff.1 hr
    have helement : r.element = v.elementType r.unwrapped := (elementIs_iff.1 hmeaning.element).symm
    have hinside : v.elementType r.unwrapped = v.elementType t := elementType_inside hmeaning.inside
    refine ⟨?_, helement, hmeaning.declared_eq⟩
    rw [helement, hinside, hmeaning.declared_eq]

end Vocabulary

end QueryContract

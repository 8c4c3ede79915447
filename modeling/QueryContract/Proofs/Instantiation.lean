import QueryContract.Proofs.Likeness

/-!
# `Proofs.Instantiation` — generic repositories

A generic repository resolves the types of a method while the method is described. The same can be done beforehand, by
writing out what the generic parameters stand for; then nothing is left to be bound.

* `Method.instantiate`            — the method with its types written out;
* `resolvedParameters_instantiate`, `resultType_instantiate` — the types that a description starts from;
* `Analyzer.describe_same`        — a description depends on these types only;
* `Analyzer.describe_instantiate` — the main statement.
-/

namespace QueryContract

/-- The method with its types written out, those of the parameters and that of the result. -/
def Method.instantiate (σ : Bindings) (m : Method) : Method :=
  { m with
    parameters := m.parameters.map fun p => { p with type := p.type.substitute σ }
    result := m.result.substitute σ }

namespace Analyzer

/-! ## The types that a description starts from -/

section Types

variable (name : Option String) (domain : Option DeclaredType) (σ : Bindings) (m : Method)

/-- Parameters are resolved to the types that are written out, and these are not resolved again. -/
theorem resolvedParameters_instantiate :
    resolvedParameters (.ofBindings name domain σ) m =
      resolvedParameters (.ofBindings name domain []) (m.instantiate σ) := by
  unfold resolvedParameters Method.instantiate
  rw [List.map_map]
  refine List.map_congr_left fun p _ => ?_
  -- on the right the type that was put in meets the repository again, which has nothing bound
  show DeclaredParameter.mk p.name _ = DeclaredParameter.mk p.name _
  rw [Repository.resolveType_ofBindings, Repository.resolveType_ofBindings, DeclaredType.substitute_nil]

/-- So is the result. -/
theorem resultType_instantiate :
    (Repository.ofBindings name domain σ).resultType m =
      (Repository.ofBindings name domain []).resultType (m.instantiate σ) := by
  show (Repository.ofBindings name domain σ).resolveType m.result =
    (Repository.ofBindings name domain []).resolveType (m.result.substitute σ)
  rw [Repository.resolveType_ofBindings, Repository.resolveType_ofBindings, DeclaredType.substitute_nil]

end Types

end Analyzer

/-! ## Descriptions -/

/-- Two methods are rejected with the same violation. -/
structure Rejection.Same (m m' : Method) (r r' : Rejection) : Prop where
  method : r.method = m
  method' : r'.method = m'
  violation : r.violation = r'.violation

/-- Two methods are described with the same parameters and the same meaning, and with all that follows from these. -/
structure Description.Same (m m' : Method) (d d' : Description) : Prop where
  method : d.method = m
  method' : d'.method = m'
  parameters : d.parameters = d'.parameters
  resolution : d.resolution = d'.resolution
  isCollectionLike : d.isCollectionLike = d'.isCollectionLike
  isEntityResult : d.isEntityResult = d'.isEntityResult
  queryId : d.queryId = d'.queryId

namespace Analyzer

/-- Of what a repository says about a method, the description depends on the resolved types only. -/
theorem describe_same (a : Analyzer) {repository repository' : Repository} {m m' : Method}
    (hname : m.name = m'.name) (hparameters : resolvedParameters repository m = resolvedParameters repository' m')
    (hresult : repository.resultType m = repository'.resultType m')
    (hdomain : repository.domain = repository'.domain)
    (helement : repository.elementType m = repository'.elementType m') :
    ExceptRel (Rejection.Same m m') (Description.Same m m') (a.describe repository m) (a.describe repository' m') := by
  have hps : ExceptRel Eq Eq (a.parameters repository m) (a.parameters repository' m') := by
    unfold parameters
    rw [hparameters]
    exact .refl _
  have hres : ExceptRel Eq Eq (a.resolution repository m) (a.resolution repository' m') := by
    unfold resolution
    rw [hresult, hdomain, helement]
    exact .refl _
  have hdescribe := describe_rel hps hres
    (fun h role => congrArg (Parameters.has · role) h) (congrArg Resolution.shape)
  generalize a.describe repository m = out, a.describe repository' m' = out' at hdescribe
  cases hdescribe with
  | error hrejected =>
      exact .error ⟨hrejected.method, hrejected.method', hrejected.violation.eq⟩
  | ok haccepted =>
      obtain ⟨ps, _, r, _, rfl, rfl, rfl, rfl⟩ := haccepted
      refine .ok ⟨rfl, rfl, rfl, rfl, rfl, rfl, ?_⟩
      unfold Description.queryId
      exact congrArg (r.domain.simpleName ++ "." ++ ·) hname

/-- **A generic repository describes a method as its instantiation does.** Whatever the parameters of the repository
    stand for, the method and the method with its types written out are both rejected, with the same violation, or both
    described, with the same parameters and the same meaning. -/
theorem describe_instantiate (a : Analyzer) (name : Option String) (domain : Option DeclaredType) (σ : Bindings)
    (m : Method) :
    ExceptRel (Rejection.Same m (m.instantiate σ)) (Description.Same m (m.instantiate σ))
      (a.describe (.ofBindings name domain σ) m)
      (a.describe (.ofBindings name domain []) (m.instantiate σ)) :=
  a.describe_same rfl (resolvedParameters_instantiate name domain σ m) (resultType_instantiate name domain σ m) rfl rfl

/-- What was put in for a parameter is left as it is, even if it has the parameter in it again. -/
example :
    (builtin.describe (.ofBindings none none [("T", .generic "Vec" [.named "T"])])
        { name := "find", result := .named "T" }).toOption.map (·.resolution.declared) =
      some (.generic "Vec" [.named "T"]) := by
  decide +kernel

end Analyzer

end QueryContract

import QueryContract.Repository

/-!
# `Proofs.Substitution` — generic parameters, all replaced at once

A substitution goes through a type once: what it puts in is not looked at again, and what is no parameter keeps its path
and its arguments, each with its own parameters replaced. So one substitution after another is a single one, and a
substitution whose types mention nothing that it binds is settled after the first time.

* `node?`, `Mentions`         — the nodes of a type, and the parameters among them;
* `nodeInduction`             — induction over the nodes of a type;
* `Bindings.Settled`          — bindings whose types mention nothing that is bound;
* `substitute_congr`          — a substitution depends on what the mentioned parameters stand for, and on nothing else;
* `Bindings.lookup_comp`, `substitute_comp` — one substitution after another;
* `node?_substitute`          — every node that is there before is there afterwards;
* `substitute_simultaneous`   — the main statement.
-/

namespace QueryContract

namespace DeclaredType

/-! ## Nodes -/

/-- The node of a type that the positions of arguments lead to, from the outside inwards. -/
def node? (t : DeclaredType) : List Nat → Option DeclaredType
  | [] => some t
  | i :: position =>
    match t.args[i]? with
    | some arg => arg.node? position
    | none => none

/-- The name is that of a parameter in the type: a node without arguments whose path is this one segment. -/
def Mentions (name : String) (t : DeclaredType) : Prop := ∃ position, t.node? position = some (mk [name] [])

theorem node?_of_arg {path : List String} {args : List DeclaredType} {i : Nat} {arg : DeclaredType}
    (h : args[i]? = some arg) (position : List Nat) : (mk path args).node? (i :: position) = arg.node? position := by
  rw [node?, args_mk, h]

theorem mentions_parameter (name : String) : (mk [name] []).Mentions name := ⟨[], rfl⟩

/-- A parameter of an argument is one of the whole type. -/
theorem Mentions.of_arg {name : String} {path : List String} {args : List DeclaredType} {arg : DeclaredType}
    (hmem : arg ∈ args) (h : arg.Mentions name) : (mk path args).Mentions name := by
  obtain ⟨i, hi⟩ := List.getElem?_of_mem hmem
  obtain ⟨position, hnode⟩ := h
  exact ⟨i :: position, by rw [node?_of_arg hi, hnode]⟩

mutual

/-- **Induction over the nodes of a type:** what holds of a type without arguments, and of a type if it holds of all its
    arguments, holds of every type. -/
theorem nodeInduction {P : DeclaredType → Prop} (raw : ∀ path, P (mk path []))
    (node : ∀ path args, args ≠ [] → (∀ arg ∈ args, P arg) → P (mk path args)) : ∀ t, P t
  | mk path [] => raw path
  | mk path (a :: as) =>
    node path (a :: as) (List.cons_ne_nil a as)
      (List.forall_mem_cons.2 ⟨nodeInduction raw node a, nodeInductionAll raw node as⟩)

theorem nodeInductionAll {P : DeclaredType → Prop} (raw : ∀ path, P (mk path []))
    (node : ∀ path args, args ≠ [] → (∀ arg ∈ args, P arg) → P (mk path args)) : ∀ ts : List DeclaredType, ∀ t ∈ ts, P t
  | [] => fun _ h => absurd h List.not_mem_nil
  | t :: ts => List.forall_mem_cons.2 ⟨nodeInduction raw node t, nodeInductionAll raw node ts⟩

end

end DeclaredType

/-! ## What is bound -/

namespace Bindings

variable {σ τ : Bindings}

/-- The types that are bound mention nothing that is bound. -/
def Settled (σ : Bindings) : Prop := ∀ name type, σ.lookup name = some type → ∀ x, type.Mentions x → σ.lookup x = none

/-- **One after the other:** a name that `τ` binds stands for its type with `σ` applied to it, any other one for what
    `σ` binds it to. -/
theorem lookup_comp (τ σ : Bindings) (name : String) :
    (τ.comp σ).lookup name = ((τ.lookup name).map (·.substitute σ)).or (σ.lookup name) := by
  unfold comp
  rw [List.lookup_append]
  congr 1
  induction τ with
  | nil => rfl
  | cons entry τ ih =>
      obtain ⟨key, type⟩ := entry
      by_cases h : name = key
      · simp [h]
      · simpa [List.lookup_cons, beq_eq_false_iff_ne.2 h] using ih

/-- So it is with paths. -/
theorem standsFor_comp (τ σ : Bindings) (path : List String) :
    (τ.comp σ).standsFor path = ((τ.standsFor path).map (·.substitute σ)).or (σ.standsFor path) := by
  fun_cases standsFor τ path with
  | case1 name => exact lookup_comp τ σ name
  | case2 path hpath =>
      have hlength : path.length ≠ 1 := fun h => by
        obtain ⟨name, rfl⟩ := List.length_eq_one_iff.1 h
        exact hpath name rfl
      rw [standsFor_of_length hlength, standsFor_of_length hlength]
      rfl

end Bindings

/-! ## Substitution -/

namespace DeclaredType

variable {σ τ : Bindings}

/-- What is no parameter keeps its path, and its parameters are replaced argument by argument. -/
theorem substitute_of_not_parameter {path : List String} {args : List DeclaredType}
    (h : args ≠ [] ∨ path.length ≠ 1) (σ : Bindings) :
    (mk path args).substitute σ = mk path (args.map (substitute σ)) := by
  cases args with
  | cons a as => rw [substitute_cons, List.map_cons]
  | nil =>
      have hlength : path.length ≠ 1 := h.resolve_left fun hne => hne rfl
      rw [substitute_raw, Bindings.standsFor_of_length hlength, Option.getD_none, List.map_nil]

/-- **A substitution depends on the mentioned parameters only.** -/
theorem substitute_congr {t : DeclaredType} (h : ∀ name, t.Mentions name → σ.lookup name = τ.lookup name) :
    t.substitute σ = t.substitute τ := by
  induction t using nodeInduction with
  | raw path =>
      have hpath : σ.standsFor path = τ.standsFor path := by
        fun_cases Bindings.standsFor σ path with
        | case1 name => exact h name (mentions_parameter name)
        | case2 path hpath => fun_cases Bindings.standsFor τ path <;> simp_all
      rw [substitute_raw, substitute_raw, hpath]
  | node path args hne ih =>
      have hargs : args.map (substitute σ) = args.map (substitute τ) :=
        List.map_congr_left fun arg harg => ih arg harg fun name hname => h name (hname.of_arg harg)
      rw [substitute_of_not_parameter (.inl hne), substitute_of_not_parameter (.inl hne), hargs]

/-- A type that mentions nothing that is bound stays as it is. -/
theorem substitute_of_not_mentions {t : DeclaredType} (h : ∀ name, t.Mentions name → σ.lookup name = none) :
    t.substitute σ = t := by
  calc t.substitute σ = t.substitute [] := substitute_congr h
    _ = t := substitute_nil t

/-- **One substitution after another is a single one.** -/
theorem substitute_comp (τ σ : Bindings) (t : DeclaredType) :
    (t.substitute τ).substitute σ = t.substitute (τ.comp σ) := by
  induction t using nodeInduction with
  | raw path =>
      rw [substitute_raw, substitute_raw, Bindings.standsFor_comp]
      cases τ.standsFor path with
      | none => exact substitute_raw σ path
      | some type => rfl
  | node path args hne ih =>
      have hmap : args.map (substitute τ) ≠ [] := mt List.map_eq_nil_iff.1 hne
      have hargs : (args.map (substitute τ)).map (substitute σ) = args.map (substitute (τ.comp σ)) := by
        rw [List.map_map]
        exact List.map_congr_left ih
      rw [substitute_of_not_parameter (.inl hne), substitute_of_not_parameter (.inl hmap),
        substitute_of_not_parameter (.inl hne), hargs]

/-- If the types that are bound mention nothing that is bound, a substitution is done after the first time. -/
theorem substitute_substitute (h : σ.Settled) (t : DeclaredType) :
    (t.substitute σ).substitute σ = t.substitute σ := by
  rw [substitute_comp]
  refine substitute_congr fun name _ => ?_
  rw [Bindings.lookup_comp]
  cases htype : σ.lookup name with
  | none => rfl
  | some type => rw [Option.map_some, Option.some_or, substitute_of_not_mentions (h name type htype)]

/-- **Nodes stay where they are:** at the position of a node there is, afterwards, the node with its parameters
    replaced. -/
theorem node?_substitute (σ : Bindings) {t n : DeclaredType} {position : List Nat} (h : t.node? position = some n) :
    (t.substitute σ).node? position = some (n.substitute σ) := by
  induction position generalizing t with
  | nil =>
      obtain rfl : t = n := Option.some.inj h
      rfl
  | cons i position ih =>
      obtain ⟨path, args⟩ := t
      cases harg : args[i]? with
      | none =>
          rw [node?, args_mk, harg] at h
          cases h
      | some arg =>
          have hne : args ≠ [] := List.ne_nil_of_mem (List.mem_of_getElem? harg)
          have hmap : (args.map (substitute σ))[i]? = some (arg.substitute σ) := by
            rw [List.getElem?_map, harg, Option.map_some]
          rw [node?_of_arg harg] at h
          rw [substitute_of_not_parameter (.inl hne), node?_of_arg hmap]
          exact ih h

/-- **Substitutions are simultaneous.** -/
structure Simultaneous (t : DeclaredType) (τ σ : Bindings) : Prop where
  /-- One substitution after another is a single one, -/
  composed : (t.substitute τ).substitute σ = t.substitute (τ.comp σ)
  /-- in which the names that the first one binds stand for their types with the second one applied to these, -/
  first : ∀ name type, τ.lookup name = some type → (τ.comp σ).lookup name = some (type.substitute σ)
  /-- and all others for what the second one binds them to, if anything. -/
  second : ∀ name, τ.lookup name = none → (τ.comp σ).lookup name = σ.lookup name
  /-- Of the bindings nothing counts but what names stand for. -/
  extensional : ∀ ρ : Bindings, (∀ name, ρ.lookup name = (τ.comp σ).lookup name) →
    t.substitute ρ = t.substitute (τ.comp σ)
  /-- Where nothing is bound, nothing is replaced; -/
  empty : t.substitute [] = t
  /-- so a repository resolves types by substitution, whether or not it binds anything. -/
  resolved : ∀ name domain ρ, (Repository.ofBindings name domain ρ).resolveType t = t.substitute ρ
  /-- If the bound types mention nothing that is bound, nothing is left to be replaced. -/
  idempotent : σ.Settled → (t.substitute σ).substitute σ = t.substitute σ
  /-- Every node with arguments, or with another number of segments than one, keeps its place, its path and the number
      of its arguments. -/
  nodes : ∀ position n, t.node? position = some n → (n.args ≠ [] ∨ n.path.length ≠ 1) →
    ∃ n', (t.substitute σ).node? position = some n' ∧ n'.path = n.path ∧ n'.args.length = n.args.length

/-- **Substitution is simultaneous,** for every type and all bindings: bound types may mention bound names again, have
    arguments or qualified paths. -/
theorem substitute_simultaneous (t : DeclaredType) (τ σ : Bindings) : t.Simultaneous τ σ where
  composed := substitute_comp τ σ t
  first name type h := by rw [Bindings.lookup_comp, h, Option.map_some, Option.some_or]
  second name h := by rw [Bindings.lookup_comp, h, Option.map_none, Option.none_or]
  extensional ρ h := substitute_congr fun name _ => h name
  empty := substitute_nil t
  resolved name domain ρ := Repository.resolveType_ofBindings name domain ρ t
  idempotent h := substitute_substitute h t
  nodes position n hnode hfixed := by
    obtain ⟨path, args⟩ := n
    have hkept : (mk path args).substitute σ = mk path (args.map (substitute σ)) := substitute_of_not_parameter hfixed σ
    refine ⟨_, node?_substitute σ hnode, ?_⟩
    rw [hkept]
    exact ⟨rfl, List.length_map _⟩

/-- A bound type that mentions its own name is put in once more by each further substitution. -/
example : ((named "T").substitute [("T", generic "Vec" [named "T"])]).substitute [("T", generic "Vec" [named "T"])] =
    generic "Vec" [generic "Vec" [named "T"]] := by
  decide +kernel

end DeclaredType

end QueryContract

import QueryContract.Proofs.Forward

/-!
# `Proofs.Outcomes` — what a parser gives

A property that a parser's results have whatever it is run on. It is handed on from the parts of a parser to the whole,
through repetition and through the nonterminals of a grammar.

* `Gives`      — all results have the property;
* `Gives.*`    — one lemma for each combinator;
* `Gives.fix`  — what the rules of a grammar hand on from the nonterminals in them, the nonterminals have.
-/

namespace QueryContract.Parser

/-- All results of the parser have the property. -/
def Gives {σ α : Type} (Q : α → Prop) (p : Parser σ α) : Prop := ∀ ⦃s a r⦄, p s = some (a, r) → Q a

namespace Gives

variable {σ α β : Type} {P Q : α → Prop} {R : β → Prop}

theorem pure {a : α} (h : Q a) : Gives Q (Pure.pure a : Parser σ α) := by
  intro s b r hs
  cases hs
  exact h

theorem failure : Gives Q (failure : Parser σ α) := fun _ _ _ h => absurd h nofun

theorem bind {p : Parser σ α} {f : α → Parser σ β} (hp : Gives P p) (hf : ∀ a, P a → Gives R (f a)) :
    Gives R (p >>= f) := by
  intro s b r h
  obtain ⟨a, m, ha, hb⟩ := of_bind h
  exact hf a (hp ha) hb

theorem skip {p : Parser σ α} {f : α → Parser σ β} (hf : ∀ a, Gives R (f a)) : Gives R (p >>= f) :=
  .bind (P := fun _ => True) (fun _ _ _ _ => trivial) fun a _ => hf a

theorem map {g : α → β} {p : Parser σ α} (hp : Gives P p) (hg : ∀ a, P a → R (g a)) : Gives R (g <$> p) := by
  intro s b r h
  rw [map_apply] at h
  obtain ⟨⟨a, m⟩, ha, hb⟩ := Option.map_eq_some_iff.1 h
  cases hb
  exact hg a (hp ha)

theorem orElse {p q : Parser σ α} (hp : Gives Q p) (hq : Gives Q q) : Gives Q (p <|> q) := by
  intro s a r h
  rw [orElse_apply, Option.or_eq_some_iff] at h
  rcases h with h | ⟨-, h⟩
  · exact hp h
  · exact hq h

theorem ite {c : Prop} [Decidable c] {p q : Parser σ α} (hp : Gives Q p) (hq : Gives Q q) :
    Gives Q (if c then p else q) := by
  split
  · exact hp
  · exact hq

theorem many [Measured σ] {stop : σ → Bool} {item : Parser σ α} (hitem : Gives Q item) :
    Gives (fun as => ∀ a ∈ as, Q a) (many stop item) := by
  intro s as r h
  have hsteps := many_steps h
  clear h
  induction hsteps with
  | nil s => exact nofun
  | cons first rest ih => exact List.forall_mem_cons.2 ⟨hitem first, ih⟩

/-- The items between separators have what the item parser gives. -/
theorem separated [Measured σ] {stop : σ → Bool} {separator : Parser σ Unit} {item : Parser σ α} (hitem : Gives Q item) :
    Gives (fun x => ∀ a ∈ x.1, Q a) (separated stop separator item) := by
  rintro s ⟨as, trailing⟩ r h
  have hsteps := separated_steps h
  clear h
  induction hsteps with
  | nil s => exact nofun
  | last only => exact List.forall_mem_singleton.2 (hitem only)
  | cons first _ _ ih => exact List.forall_mem_cons.2 ⟨hitem first, ih⟩

/-- **What the rules hand on, the nonterminals have.** -/
theorem fix [Measured σ] {ι : Type} {Out : ι → Type}
    {rules : ((i : ι) → Parser σ (Out i)) → (i : ι) → Parser σ (Out i)} {Q : (i : ι) → Out i → Prop}
    (hrules : ∀ self : (i : ι) → Parser σ (Out i), (∀ i, Gives (Q i) (self i)) → ∀ i, Gives (Q i) (rules self i))
    (i : ι) : Gives (Q i) (Parser.fix Out rules i) := by
  intro s a r h
  -- a rule is run with the nonterminals on smaller inputs, and nothing on others
  induction hsize : Measured.size s using Nat.strongRecOn generalizing i s a r with
  | ind n ih =>
      rw [fix_eq] at h
      refine hrules _ (fun j t b e ht => ?_) i h
      split at ht
      · next hlt => exact ih _ (hsize ▸ hlt) j ht rfl
      · cases ht

end Gives

end QueryContract.Parser

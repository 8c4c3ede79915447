import QueryContract.Proofs.Signatures
import QueryContract.Source

/-!
# `Proofs.Declarations` — what a text declares is in normal form

Every type that a text declares, at every node, is put together from words of the text: the type of a text, the parameters
and the result of a method, and the traits that a repository extends. The one name that is added is the `Future` around
the result of an asynchronous method. Parameters stand in the order of the text, without the receiver.

* `Signed`                — a method, with the part of the text that each part of it comes from;
* `Signed.normal`         — all types in such a method are in normal form;
* `Signature.declared_settles`, `ofTrait_settles` — the methods and repositories that are declared;
* `declarations_normal`   — the main statement: types, methods and repositories.
-/

namespace QueryContract

open Source DeclaredType

/-! ## Methods -/

/-- The name of a parameter is a word in it, and its type is in normal form with words in it. -/
def DeclaredParameter.Of (mine : Tokens) (p : DeclaredParameter) : Prop :=
  (∀ n ∈ p.name, n ∈ mine.words) ∧ p.type.Normal (· ∈ mine.words)

/-- A method is made of a function that stands before `rest`. Its parameters are those of the function, in their order and
    without the receiver. Its result is what stands after them, in a `Future` if the function is asynchronous. -/
inductive Signed (rest chunk : Tokens) (m : Method) : Prop where
  | mk {isAsync : Bool} {after : Tokens} {t : DeclaredType}
      (function : IsFunction DeclaredParameter.Of rest m.name isAsync m.parameters after chunk)
      (normal : t.Normal (· ∈ after.words)) (result : m.result = if isAsync then .mk ["Future"] [t] else t) :
      Signed rest chunk m

/-- A word of the text, or the name that is added to it. -/
def WordOrFuture (ts : Tokens) (n : String) : Prop := n ∈ ts.words ∨ n = "Future"

/-- Where a method is declared plays no part. -/
theorem Signed.declaredIn {rest chunk : Tokens} {m : Method} (h : Signed rest chunk m) (owner : String) :
    Signed rest chunk (m.declaredIn owner) := by
  cases h with
  | mk function normal result => exact .mk function normal result

/-- **All types in a method are in normal form.** -/
theorem Signed.normal {rest chunk : Tokens} {m : Method} (h : Signed rest chunk m) :
    ∀ t ∈ m.result :: m.types, t.Normal (WordOrFuture chunk) := by
  cases h with
  | @mk isAsync after t function normal result =>
      obtain ⟨hafter, hparameters⟩ := function.words
      have ht : t.Normal (WordOrFuture chunk) := normal.mono fun n hn => .inl (hafter n hn)
      have hfuture : ∀ n ∈ ["Future"], PlainName (WordOrFuture chunk) n :=
        List.forall_mem_singleton.2 ⟨.inr rfl, by decide⟩
      refine List.forall_mem_cons.2 ⟨?_, fun u hu => ?_⟩
      · rw [result]
        cases isAsync with
        | true => exact .path nofun hfuture (by decide) (List.forall_mem_singleton.2 ht)
        | false => exact ht
      · obtain ⟨p, hp, rfl⟩ := List.mem_map.1 hu
        obtain ⟨mine, hof, hmine⟩ := hparameters p hp
        exact hof.2.mono fun n hn => .inl (hmine n hn)

namespace Source

section

variable {mine rest chunk : Tokens}

/-- The words of a text are plain. -/
theorem Tokens.Within.plainName (h : mine.Within Lexeme.IsWordToken) : mine.Within (PlainName (· ∈ mine.words)) :=
  fun w hw => ⟨hw, Lexeme.isPlain_of_isWordToken (h w hw)⟩

theorem ParameterExpr.declared_settles (method : String) (hmine : mine.Within Lexeme.IsWordToken) {p : ParameterExpr}
    (h : p.Of mine) : Settles (DeclaredParameter.Of mine) (p.declared method) := by
  obtain ⟨hnamed, hname⟩ := h _ hmine.plainName
  refine (p.type.normal hnamed).bind fun t ht => ?_
  cases hp : p.name with
  | name n =>
      refine .ok ⟨?_, ht⟩
      rintro _ ⟨⟩
      exact (hname n hp).1
  | unnamed => exact .ok ⟨nofun, ht⟩
  | pattern => exact .error

theorem Signature.declaredResult_settles {m : Signature} (hmine : mine.Within Lexeme.IsWordToken)
    (h : ∀ W, mine.Within W → ∀ t ∈ m.result, t.Named W) :
    Settles (fun r => ∃ t : DeclaredType, t.Normal (· ∈ mine.words) ∧
      r = if m.isAsync then .mk ["Future"] [t] else t) m.declaredResult := by
  have hfuture : pathOf "Future" = ["Future"] := by decide
  have hdone : ∀ t : DeclaredType, t.Normal (· ∈ mine.words) →
      Settles (fun r => ∃ t : DeclaredType, t.Normal (· ∈ mine.words) ∧
        r = if m.isAsync then .mk ["Future"] [t] else t) (pure (if m.isAsync then .generic "Future" [t] else t)) :=
    fun t ht => .ok ⟨t, ht, by rw [generic, hfuture]⟩
  unfold Signature.declaredResult
  cases hm : m.result with
  | none => exact Settles.bind (.ok .unit) hdone
  | some t => exact (t.normal (h _ hmine.plainName t hm)).bind hdone

/-- **A signature declares a method that is made of it.** -/
theorem Signature.declared_settles {m : Signature} (hchunk : chunk.Within Lexeme.IsWordToken) (h : m.Of rest chunk) :
    Settles (Signed rest chunk) m.declared := by
  obtain ⟨after, hfunction, hresult⟩ := h
  have hafter : after.Within Lexeme.IsWordToken := fun w hw => hchunk w (hfunction.words.1 w hw)
  refine (hfunction.mapM (fun mine p hmine hp => p.declared_settles m.name hmine hp) hchunk).bind fun ps hps => ?_
  refine (Signature.declaredResult_settles hafter hresult).bind fun r hr => ?_
  obtain ⟨t, ht, rfl⟩ := hr
  exact .ok (.mk hps ht rfl)

/-- The traits that a trait extends are in normal form, and its methods are made of its items. -/
theorem ofTrait_settles {t : TraitExpr} {front body : Tokens} (hfront : front.Within Lexeme.IsWordToken)
    (hbody : body.Within Lexeme.IsWordToken) (hbounds : ∀ W, front.Within W → ∀ b ∈ t.bounds, b.Named W)
    (hitems : Items Signature.Of body t.methods) :
    Settles (fun d : RepositoryDeclaration => (∀ s ∈ d.supertraits, s.Normal (· ∈ front.words)) ∧
      Items Signed body d.methods) (RepositoryDeclaration.ofTrait t) := by
  have hsupertraits : Settles (fun ts => ∀ s ∈ ts, s.Normal (· ∈ front.words))
      ((RepositoryDeclaration.supertraitTypes t.bounds).mapM TypeExpr.declared) := by
    refine .mapM fun u hu => ?_
    obtain ⟨b, hb, hu⟩ := List.mem_filterMap.1 hu
    have hnamed := hbounds _ hfront.plainName b hb
    cases hnamed with
    | trait _ _ _ hne hss =>
        cases hu
        exact TypeExpr.normal _ (.path _ hne hss)
    | _ => cases hu
  have hmethods : Settles (Items Signed body) (t.methods.mapM Signature.declared) :=
    hitems.mapM (fun rest chunk m hchunk hm => Signature.declared_settles hchunk hm) hbody
  refine hsupertraits.bind fun ss hss => hmethods.bind fun ms hms => .ok ⟨hss, ?_⟩
  exact hms.map fun rest chunk m hm => hm.declaredIn t.name

end

end Source

/-! ## Texts -/

/-- What is declared is declared by the tokens of the text. -/
theorem exists_tokens {α β : Type} {p : Parser Tokens α} {s : List Char} {f : α → Except Fault β} {b : β}
    (h : (do f (← orMalformed (parse? p s))) = .ok b) :
    ∃ ts a, Tokens.ofText? s = some ts ∧ ts.Within Lexeme.IsWordToken ∧ p ts = some (a, .nil) ∧ f a = .ok b := by
  cases ha : parse? p s with
  | none =>
      rw [ha] at h
      cases h
  | some a =>
      rw [ha] at h
      obtain ⟨ts, hts, hp⟩ := parse?_eq_some ha
      exact ⟨ts, a, hts, within_ofText? hts, hp, h⟩

/-- **What a text declares is in normal form.** A type has its names from the words of the text. A method is made of the
    function that the text is, and all types in it are in normal form. So are the traits that a repository extends, whose
    methods are made of its items. -/
theorem declarations_normal (source : String) :
    (∀ t, DeclaredType.ofSource source = .ok t → ∃ ts, Tokens.ofText? source.toList = some ts ∧
      ts.Within Lexeme.IsWordToken ∧ t.Normal (· ∈ ts.words)) ∧
    (∀ m, Method.ofSource source = .ok m → ∃ ts, Tokens.ofText? (terminated source.toList) = some ts ∧
      ts.Within Lexeme.IsWordToken ∧ Signed .nil ts m ∧ ∀ t ∈ m.result :: m.types, t.Normal (WordOrFuture ts)) ∧
    ∀ d, RepositoryDeclaration.ofSource source = .ok d → ∃ ts front body, Tokens.ofText? source.toList = some ts ∧
      ts.Within Lexeme.IsWordToken ∧ ts = front ++ .group .brace body .nil ∧
      (∀ t ∈ d.supertraits, t.Normal (· ∈ front.words)) ∧ Items Signed body d.methods ∧
      ∀ m ∈ d.methods, ∀ t ∈ m.result :: m.types, t.Normal (WordOrFuture body) := by
  refine ⟨fun t h => ?_, fun m h => ?_, fun d h => ?_⟩
  · obtain ⟨ts, e, hts, hwords, htype, h⟩ := exists_tokens h
    obtain ⟨front, rfl, hnamed⟩ := takes_typeRule reader true htype
    rw [Tokens.append_nil] at hts hwords
    exact ⟨front, hts, hwords, e.normal (hnamed _ hwords.plainName) t h⟩
  · obtain ⟨ts, e, hts, hwords, hmethod, h⟩ := exists_tokens h
    have hsigned := Signature.declared_settles hwords (of_methodDeclaration hmethod) m h
    exact ⟨ts, hts, hwords, hsigned, hsigned.normal⟩
  · obtain ⟨ts, e, hts, hwords, htrait, h⟩ := exists_tokens h
    obtain ⟨front, body, rfl, hbounds, hitems⟩ := of_traitDeclaration htrait
    obtain ⟨hfront, hgroup⟩ := Tokens.within_append.1 hwords
    have hbody : body.Within Lexeme.IsWordToken := fun w hw => hgroup w (by simp [Tokens.words, hw])
    obtain ⟨hsupertraits, hmethods⟩ := ofTrait_settles hfront hbody hbounds hitems d h
    refine ⟨_, front, body, hts, hwords, rfl, hsupertraits, hmethods, fun m hm t ht => ?_⟩
    obtain ⟨rest, chunk, hsigned, hchunk⟩ := hmethods.mem m hm
    exact (hsigned.normal t ht).mono fun n hn => hn.imp_left (hchunk n)

/-- A repository with pointers in its supertrait, and with a receiver, a slice and a raw identifier in its method. -/
def usersText : String :=
  "trait Users: Box<crate::CrudRepository<Arc<User>, u64>> + Send \x7b " ++
    "async fn all(&self, ids: &[r#type::Id], _: ()) -> Result<Vec<User>, Error>; \x7d"

/-- What it declares. -/
def users : RepositoryDeclaration where
  name := "Users"
  generics := []
  supertraits := [.mk ["crate", "CrudRepository"] [.mk ["User"] [], .mk ["u64"] []], .mk ["Send"] []]
  methods :=
    [{ name := "all"
       owner := some "Users"
       parameters := [⟨some "ids", .array (.mk ["r#type", "Id"] [])⟩, ⟨none, .unit⟩]
       result := .mk ["Future"] [.mk ["Vec"] [.mk ["User"] []]] }]

/-- The repository is accepted, and what it declares is in normal form. -/
theorem declarations_normal_users : RepositoryDeclaration.ofSource usersText = .ok users ∧
    ∃ ts front body, Tokens.ofText? usersText.toList = some ts ∧ ts = front ++ .group .brace body .nil ∧
      (∀ t ∈ users.supertraits, t.Normal (· ∈ front.words)) ∧ Items Signed body users.methods := by
  have haccepted : RepositoryDeclaration.ofSource usersText = .ok users := by decide +kernel
  obtain ⟨ts, front, body, hts, -, hsplit, hsupertraits, hmethods, -⟩ := (declarations_normal _).2.2 users haccepted
  exact ⟨haccepted, ts, front, body, hts, hsplit, hsupertraits, hmethods⟩

end QueryContract

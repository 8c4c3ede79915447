import QueryContract.Proofs.ErrorTypes

/-!
# `Proofs.Transparency` — references and pointers at every depth

A reference, a pair of parentheses or a smart pointer declares what it holds. So does every type around it: of a type
that is put into another one, nothing counts but what it declares by itself.

* `Agree`                 — computations with the same result, whatever they are refused for;
* `ArgumentPlace`, `SegmentPlace`, `PathPlace`, `BoundPlace`, `Around`
                          — one form of a type with a place for another type in it, and `Position`, any number of these;
* `Pointer`, `Pointers`   — a layer that declares what it holds, and any number of layers;
* `Position.agree`        — types that declare the same are exchangeable at every position;
* `pointers_transparent`  — the main statement.

A place among tokens that are kept as they are written is any function from types to tokens: nothing is read there.
-/

namespace QueryContract.Source

/-! ## Agreement -/

/-- The computations have the same result, or neither of them has one. -/
def Agree {α : Type} (x y : Except Fault α) : Prop := x.toOption = y.toOption

namespace Agree

variable {α β : Type} {x y : Except Fault α}

theorem refl (x : Except Fault α) : Agree x x := rfl

theorem ofEq (h : x = y) : Agree x y := congrArg Except.toOption h

theorem eq_ok (h : Agree x y) {a : α} (hx : x = .ok a) : y = .ok a := by
  subst hx
  cases y with
  | error e => cases h
  | ok b => exact congrArg Except.ok (Option.some.inj h).symm

/-- What is refused agrees with all that is refused. -/
theorem unsupported (t u : TypeExpr) : Agree (unsupported t : Except Fault α) (Source.unsupported u) := rfl

theorem bind {f g : α → Except Fault β} (hxy : Agree x y) (hfg : ∀ a, Agree (f a) (g a)) :
    Agree (x >>= f) (y >>= g) := by
  cases x with
  | error e =>
      cases y with
      | error e' => rfl
      | ok b => cases hxy
  | ok a =>
      cases y with
      | error e' => cases hxy
      | ok b =>
          obtain rfl : a = b := Option.some.inj hxy
          exact hfg a

/-- With the same first step, what follows has to agree. -/
theorem bindSame (x : Except Fault α) {f g : α → Except Fault β} (hfg : ∀ a, Agree (f a) (g a)) :
    Agree (x >>= f) (x >>= g) := bind (refl x) hfg

/-- Types agree by declaring the same, or by being refused as unsupported both. -/
theorem cases_declared {t u : TypeExpr} (h : Agree t.declared u.declared) :
    (∃ d, t.declared = .ok d ∧ u.declared = .ok d) ∨
    ∃ w w', t.declared = .error (.unsupportedType w) ∧ u.declared = .error (.unsupportedType w') := by
  have ht := t.refuses
  have hu := u.refuses
  generalize t.declared = x at h ht ⊢
  generalize u.declared = y at h hu ⊢
  cases x with
  | ok d =>
      cases y with
      | ok d' =>
          obtain rfl : d = d' := Option.some.inj h
          exact .inl ⟨d, rfl, rfl⟩
      | error e => cases h
  | error e =>
      cases y with
      | ok d => cases h
      | error e' =>
          obtain ⟨w, rfl⟩ := ht e rfl
          obtain ⟨w', rfl⟩ := hu e' rfl
          exact .inr ⟨w, w', rfl, rfl⟩

end Agree

/-! ## Positions -/

/-- A generic argument with a place for a type: the argument itself, the value of an associated type, its own
    arguments, or a constant or condition. -/
inductive ArgumentPlace : (TypeExpr → Argument) → Prop where
  | type : ArgumentPlace .type
  | associated (front : Tokens) : ArgumentPlace (.associated front)
  | front (front : TypeExpr → Tokens) (value : TypeExpr) : ArgumentPlace fun x => .associated (front x) value
  | other (written : TypeExpr → Tokens) : ArgumentPlace fun x => .other (written x)

/-- A segment with a place for a type among its arguments. -/
inductive SegmentPlace : (TypeExpr → Segment) → Prop where
  | angle (name : String) (turbofish : Bool) (before after : List Argument) (trailing : Bool)
      {a : TypeExpr → Argument} (ha : ArgumentPlace a) :
      SegmentPlace fun x => .mk name (.angle turbofish (before ++ a x :: after) trailing)
  | parenthesized (name : String) (written : TypeExpr → Tokens) (bare : TypeExpr → Bool) :
      SegmentPlace fun x => .mk name (.parenthesized (written x) (bare x))

/-- The segments of a path with a place for a type in one of them. -/
inductive PathPlace : (TypeExpr → List Segment) → Prop where
  | segment (before after : List Segment) {s : TypeExpr → Segment} (hs : SegmentPlace s) :
      PathPlace fun x => before ++ s x :: after

/-- A bound with a place for a type: in its path, before it, or in one of the special bounds. -/
inductive BoundPlace : (TypeExpr → Bound) → Prop where
  | path (parenthesized : Bool) (front : Tokens) (leading : Bool) {p : TypeExpr → List Segment} (hp : PathPlace p) :
      BoundPlace fun x => .trait parenthesized front leading (p x)
  | front (parenthesized : Bool) (front : TypeExpr → Tokens) (leading : Bool) (segments : List Segment) :
      BoundPlace fun x => .trait parenthesized (front x) leading segments
  | capture (written : TypeExpr → Tokens) : BoundPlace fun x => .capture (written x)
  | constant (written : TypeExpr → Tokens) : BoundPlace fun x => .constant (written x)

/-- A type with a place for another type directly in it. -/
inductive Around : (TypeExpr → TypeExpr) → Prop where
  | path (leading : Bool) {p : TypeExpr → List Segment} (hp : PathPlace p) : Around fun x => .path leading (p x)
  | self (leading : Bool) (base rest : List Segment) : Around fun x => .member x leading base rest
  | base (self : TypeExpr) (leading : Bool) {p : TypeExpr → List Segment} (hp : PathPlace p) (rest : List Segment) :
      Around fun x => .member self leading (p x) rest
  | rest (self : TypeExpr) (leading : Bool) (base : List Segment) {p : TypeExpr → List Segment} (hp : PathPlace p) :
      Around fun x => .member self leading base (p x)
  | reference (life : Option String) (mutable : Bool) : Around (.reference life mutable)
  | paren : Around .paren
  | slice : Around .slice
  | element (length : Tokens) : Around fun x => .array x length
  | length (element : TypeExpr) (length : TypeExpr → Tokens) : Around fun x => .array element (length x)
  | tuple (before after : List TypeExpr) (trailing : Bool) : Around fun x => .tuple (before ++ x :: after) trailing
  | bounded (keyword : Option String) (before after : List Bound) (trailing : Bool) {b : TypeExpr → Bound}
      (hb : BoundPlace b) : Around fun x => .bounded keyword (before ++ b x :: after) trailing
  | other (written : TypeExpr → Tokens) (bare : TypeExpr → Bool) : Around fun x => .other (written x) (bare x)

/-- A type with a place for another type in it, at any depth. -/
inductive Position : (TypeExpr → TypeExpr) → Prop where
  | here : Position fun x => x
  | inside {f c : TypeExpr → TypeExpr} (hf : Around f) (hc : Position c) : Position fun x => f (c x)

/-! ## Pointers -/

/-- The names of the smart pointers. -/
def smartPointers : List String := ["Box", "Arc", "Rc", "Pin", "Cow"]

/-- A layer that declares what it holds: a reference, parentheses, or a smart pointer under any path, perhaps with
    lifetimes. -/
inductive Pointer : (TypeExpr → TypeExpr) → Prop where
  | reference (life : Option String) (mutable : Bool) : Pointer (.reference life mutable)
  | paren : Pointer .paren
  | smart (leading : Bool) (front : List Segment) {name : String} (hname : name ∈ smartPointers) (turbofish : Bool)
      (lifetimes : List String) (trailing : Bool) :
      Pointer fun x => .path leading
        (front ++ [.mk name (.angle turbofish (lifetimes.map .lifetime ++ [.type x]) trailing)])

/-- Any number of such layers. -/
inductive Pointers : (TypeExpr → TypeExpr) → Prop where
  | none : Pointers fun x => x
  | more {f p : TypeExpr → TypeExpr} (hf : Pointer f) (hp : Pointers p) : Pointers fun x => f (p x)

/-- Lifetimes before an argument leave no trace. -/
theorem allDeclared_lifetimes (lifetimes : List String) (args : List Argument) :
    allDeclared (lifetimes.map .lifetime ++ args) = allDeclared args := by
  induction lifetimes with
  | nil => rfl
  | cons l ls ih => rw [List.map_cons, List.cons_append, allDeclared, ih]

/-- **A pointer declares what it holds,** or is refused for it. -/
theorem Pointer.declared_eq {f : TypeExpr → TypeExpr} (hf : Pointer f) (t : TypeExpr) : (f t).declared = t.declared := by
  cases hf with
  | reference life mutable => rw [TypeExpr.declared]
  | paren => rw [TypeExpr.declared]
  | @smart leading front name hname turbofish lifetimes trailing =>
      have htransparent : transparent.contains name = true := by
        have hall : ∀ n ∈ smartPointers, transparent.contains n = true := by decide
        exact hall name hname
      have hpath : ∀ whole d, declaredPath whole
          (front ++ [.mk name (.angle turbofish (lifetimes.map .lifetime ++ [.type t]) trailing)]) [d] = .ok d := by
        intro whole d
        rw [declaredPath, List.getLast?_concat]
        simp only [Segment.name, htransparent, if_true]
      rw [TypeExpr.declared]
      simp only [lastDeclared_concat, Segment.declared, Arguments.declared, allDeclared_lifetimes, allDeclared]
      cases t.declared with
      | error fault => rfl
      | ok d => exact hpath _ d

theorem Pointers.declared_eq {p : TypeExpr → TypeExpr} (hp : Pointers p) (t : TypeExpr) : (p t).declared = t.declared := by
  induction hp with
  | none => rfl
  | more hf _ ih => rw [hf.declared_eq, ih]

/-! ## What a type is refused for -/

/-- Of a path, the names count and the arguments that are declared. -/
theorem declaredPath_agree (whole whole' : TypeExpr) {segments segments' : List Segment}
    (hnames : segments.map Segment.name = segments'.map Segment.name) (args : List DeclaredType) :
    Agree (declaredPath whole segments args) (declaredPath whole' segments' args) := by
  have hlast : segments.getLast?.map Segment.name = segments'.getLast?.map Segment.name := by
    rw [← List.getLast?_map, ← List.getLast?_map, hnames]
  have hjoined : joined segments = joined segments' := by rw [joined, joined, hnames]
  unfold declaredPath
  cases hs : segments.getLast? with
  | none =>
      cases hs' : segments'.getLast? with
      | none => exact .unsupported whole whole'
      | some last' => simp [hs, hs'] at hlast
  | some last =>
      cases hs' : segments'.getLast? with
      | none => simp [hs, hs'] at hlast
      | some last' =>
          have hname : last.name = last'.name := by simpa [hs, hs'] using hlast
          simp only [hname, hjoined]
          split
          · cases args with
            | nil => exact .unsupported whole whole'
            | cons first more => exact .refl _
          · exact .refl _

theorem Segment.declared_agree (whole whole' : TypeExpr) (s : Segment) :
    Agree (s.declared whole) (s.declared whole') := by
  obtain ⟨name, arguments⟩ := s
  rw [Segment.declared, Segment.declared]
  cases arguments with
  | none =>
      rw [Arguments.declared, Arguments.declared]
      exact .refl _
  | angle turbofish args trailing =>
      rw [Arguments.declared, Arguments.declared]
      exact .refl _
  | parenthesized written bare =>
      rw [Arguments.declared, Arguments.declared]
      exact .unsupported whole whole'

theorem lastDeclared_agree (whole whole' : TypeExpr) (segments : List Segment) :
    Agree (lastDeclared whole segments) (lastDeclared whole' segments) := by
  rcases List.eq_nil_or_concat segments with rfl | ⟨front, s, rfl⟩
  · rw [lastDeclared, lastDeclared]
    exact .refl _
  · rw [List.concat_eq_append, lastDeclared_concat, lastDeclared_concat]
    exact s.declared_agree whole whole'

/-- The segments whose last one has its arguments read: those of the member, if there are any. -/
def argued (base rest : List Segment) : List Segment := if rest = [] then base else rest

theorem argued_of_ne_nil (base : List Segment) {rest : List Segment} (h : rest ≠ []) : argued base rest = rest := if_neg h

theorem declared_member (self : TypeExpr) (leading : Bool) (base rest : List Segment) :
    (TypeExpr.member self leading base rest).declared =
      (do
        let whole := TypeExpr.member self leading base rest
        declaredPath whole (base ++ rest) (← lastDeclared whole (argued base rest))) := by
  cases rest <;> rw [TypeExpr.declared] <;> rfl

/-- A tuple with an element is refused, whatever the element is. -/
theorem declared_tuple {elements : List TypeExpr} (h : elements ≠ []) (trailing : Bool) :
    (TypeExpr.tuple elements trailing).declared = unsupported (.tuple elements trailing) := by
  cases elements with
  | nil => exact absurd rfl h
  | cons x xs => rw [TypeExpr.declared]

theorem names_append {base base' rest rest' : List Segment} (hbase : base.map Segment.name = base'.map Segment.name)
    (hrest : rest.map Segment.name = rest'.map Segment.name) :
    (base ++ rest).map Segment.name = (base' ++ rest').map Segment.name := by
  rw [List.map_append, List.map_append, hbase, hrest]

/-! ## Congruence -/

section

variable {t u : TypeExpr}

/-- Generic arguments agree if one of them does and the others are the same. -/
theorem allDeclared_append {args args' : List Argument} (h : Agree (allDeclared args) (allDeclared args'))
    (before : List Argument) : Agree (allDeclared (before ++ args)) (allDeclared (before ++ args')) := by
  induction before with
  | nil => exact h
  | cons a before ih =>
      cases a with
      | lifetime name =>
          rw [List.cons_append, List.cons_append, allDeclared, allDeclared]
          exact ih
      | other written =>
          rw [List.cons_append, List.cons_append, allDeclared, allDeclared]
          exact ih
      | type x =>
          rw [List.cons_append, List.cons_append, allDeclared, allDeclared]
          exact .bindSame _ fun first => ih.bind fun more => .refl _
      | associated front x =>
          rw [List.cons_append, List.cons_append, allDeclared, allDeclared]
          exact .bindSame _ fun first => ih.bind fun more => .refl _

variable (h : Agree t.declared u.declared)

include h

theorem ArgumentPlace.agree {a : TypeExpr → Argument} (ha : ArgumentPlace a) (after : List Argument) :
    Agree (allDeclared (a t :: after)) (allDeclared (a u :: after)) := by
  cases ha with
  | type =>
      rw [allDeclared, allDeclared]
      exact h.bind fun first => .refl _
  | associated front =>
      rw [allDeclared, allDeclared]
      exact h.bind fun first => .refl _
  | front front value =>
      rw [allDeclared, allDeclared]
      exact .refl _
  | other written =>
      rw [allDeclared, allDeclared]
      exact .refl _

theorem SegmentPlace.agree {s : TypeExpr → Segment} (hs : SegmentPlace s) (whole whole' : TypeExpr) :
    Agree ((s t).declared whole) ((s u).declared whole') := by
  cases hs with
  | angle name turbofish before after trailing ha =>
      rw [Segment.declared, Segment.declared, Arguments.declared, Arguments.declared]
      exact allDeclared_append (ha.agree h after) before
  | parenthesized name written bare =>
      rw [Segment.declared, Segment.declared, Arguments.declared, Arguments.declared]
      exact .unsupported whole whole'

omit h in
theorem SegmentPlace.name_eq {s : TypeExpr → Segment} (hs : SegmentPlace s) (t u : TypeExpr) :
    (s t).name = (s u).name := by
  cases hs <;> rfl

omit h in
theorem PathPlace.names_eq {p : TypeExpr → List Segment} (hp : PathPlace p) (t u : TypeExpr) :
    (p t).map Segment.name = (p u).map Segment.name := by
  obtain ⟨before, after, hs⟩ := hp
  simp only [List.map_append, List.map_cons, hs.name_eq t u]

omit h in
/-- A path with a place in it is not empty. -/
theorem PathPlace.ne_nil {p : TypeExpr → List Segment} (hp : PathPlace p) (t : TypeExpr) : p t ≠ [] := by
  obtain ⟨before, after, hs⟩ := hp
  simp

theorem PathPlace.agree {p : TypeExpr → List Segment} (hp : PathPlace p) (whole whole' : TypeExpr) :
    Agree (lastDeclared whole (p t)) (lastDeclared whole' (p u)) := by
  obtain ⟨before, after, hs⟩ := hp
  rcases List.eq_nil_or_concat after with rfl | ⟨front, last, rfl⟩
  · -- the place is in the last segment, which is the one whose arguments are read
    rw [lastDeclared_concat, lastDeclared_concat]
    exact hs.agree h whole whole'
  · -- the place is in a segment before the last one
    have hconcat : ∀ (w x : TypeExpr) {s : TypeExpr → Segment},
        lastDeclared w (before ++ s x :: (front ++ [last])) = last.declared w := by
      intro w x s
      rw [← List.cons_append, ← List.append_assoc, lastDeclared_concat]
    rw [List.concat_eq_append, hconcat, hconcat]
    exact last.declared_agree whole whole'

omit h in
/-- The first trait among bounds decides. -/
theorem boundsDeclared_append (whole whole' : TypeExpr) {bounds bounds' : List Bound}
    (h : Agree (boundsDeclared whole bounds) (boundsDeclared whole' bounds')) (before : List Bound) :
    Agree (boundsDeclared whole (before ++ bounds)) (boundsDeclared whole' (before ++ bounds')) := by
  induction before with
  | nil => exact h
  | cons b before ih =>
      cases b with
      | lifetime name =>
          rw [List.cons_append, List.cons_append, boundsDeclared, boundsDeclared]
          exact ih
      | capture written =>
          rw [List.cons_append, List.cons_append, boundsDeclared, boundsDeclared]
          exact ih
      | constant written =>
          rw [List.cons_append, List.cons_append, boundsDeclared, boundsDeclared]
          exact ih
      | trait parenthesized front leading segments =>
          rw [List.cons_append, List.cons_append, boundsDeclared, boundsDeclared]
          exact (lastDeclared_agree whole whole' segments).bind fun args => declaredPath_agree whole whole' rfl args

omit h in
theorem boundsDeclared_agree (whole whole' : TypeExpr) (bounds : List Bound) :
    Agree (boundsDeclared whole bounds) (boundsDeclared whole' bounds) := by
  have hnil : Agree (boundsDeclared whole []) (boundsDeclared whole' []) := by
    rw [boundsDeclared, boundsDeclared]
    exact .unsupported whole whole'
  simpa only [List.append_nil] using boundsDeclared_append whole whole' hnil bounds

theorem BoundPlace.agree {b : TypeExpr → Bound} (hb : BoundPlace b) (whole whole' : TypeExpr) (after : List Bound) :
    Agree (boundsDeclared whole (b t :: after)) (boundsDeclared whole' (b u :: after)) := by
  cases hb with
  | path parenthesized front leading hp =>
      rw [boundsDeclared, boundsDeclared]
      exact (hp.agree h whole whole').bind fun args => declaredPath_agree whole whole' (hp.names_eq t u) args
  | front parenthesized front leading segments =>
      rw [boundsDeclared, boundsDeclared]
      exact (lastDeclared_agree whole whole' segments).bind fun args => declaredPath_agree whole whole' rfl args
  | capture written =>
      rw [boundsDeclared, boundsDeclared]
      exact boundsDeclared_agree whole whole' after
  | constant written =>
      rw [boundsDeclared, boundsDeclared]
      exact boundsDeclared_agree whole whole' after

/-- **One form around a type:** what it declares depends on what the type declares. -/
theorem Around.agree {f : TypeExpr → TypeExpr} (hf : Around f) : Agree (f t).declared (f u).declared := by
  cases hf with
  | path leading hp =>
      rw [TypeExpr.declared, TypeExpr.declared]
      exact (hp.agree h _ _).bind fun args => declaredPath_agree _ _ (hp.names_eq t u) args
  | self leading base rest =>
      rw [declared_member, declared_member]
      exact (lastDeclared_agree _ _ _).bind fun args => declaredPath_agree _ _ rfl args
  | base self leading hp rest =>
      have hnames := names_append (hp.names_eq t u) (rfl : rest.map Segment.name = _)
      rw [declared_member, declared_member]
      refine .bind ?_ fun args => declaredPath_agree _ _ hnames args
      cases rest with
      | nil => exact hp.agree h _ _
      | cons s ss => exact lastDeclared_agree _ _ _
  | @rest self leading base p hp =>
      have hnames := names_append (rfl : base.map Segment.name = _) (hp.names_eq t u)
      rw [declared_member, declared_member, argued_of_ne_nil base (hp.ne_nil t), argued_of_ne_nil base (hp.ne_nil u)]
      exact (hp.agree h _ _).bind fun args => declaredPath_agree _ _ hnames args
  | reference life mutable =>
      rw [TypeExpr.declared, TypeExpr.declared]
      exact h
  | paren =>
      rw [TypeExpr.declared, TypeExpr.declared]
      exact h
  | slice =>
      rw [TypeExpr.declared, TypeExpr.declared]
      exact h.bind fun element => .refl _
  | element length =>
      rw [TypeExpr.declared, TypeExpr.declared]
      exact h.bind fun element => .refl _
  | length element length =>
      rw [TypeExpr.declared, TypeExpr.declared]
      exact .refl _
  | tuple before after trailing =>
      rw [declared_tuple (by simp), declared_tuple (by simp)]
      exact .unsupported _ _
  | bounded keyword before after trailing hb =>
      rw [TypeExpr.declared, TypeExpr.declared]
      exact boundsDeclared_append _ _ (hb.agree h _ _ after) before
  | other written bare =>
      rw [TypeExpr.declared, TypeExpr.declared]
      exact .unsupported _ _

/-- **Types that declare the same are exchangeable,** at every position of every type. -/
theorem Position.agree {c : TypeExpr → TypeExpr} (hc : Position c) : Agree (c t).declared (c u).declared := by
  induction hc with
  | here => exact h
  | inside hf _ ih => exact hf.agree ih

end

/-- **References and smart pointers are transparent at every depth.** Wherever a type stands in another one, any number
    of layers around it leaves what is declared as it is: with them and without them the same type is declared, or both
    types are refused as unsupported. -/
theorem pointers_transparent {c p : TypeExpr → TypeExpr} (hc : Position c) (hp : Pointers p) (t : TypeExpr) :
    (∃ d, (c t).declared = .ok d ∧ (c (p t)).declared = .ok d) ∨
    ∃ w w', (c t).declared = .error (.unsupportedType w) ∧ (c (p t)).declared = .error (.unsupportedType w') := by
  have hsame : Agree t.declared (p t).declared := .ofEq (hp.declared_eq t).symm
  exact (hc.agree hsame).cases_declared

/-- A future of an iterator: `Future<Output = dyn Iterator<Item = _> + Send>`, -/
def itemsLater (item : TypeExpr) : TypeExpr :=
  .path false
    [.mk "Future" (.angle false
      [.associated (.ofWord "Output")
        (.bounded (some "dyn")
          [.trait false .nil false [.mk "Iterator" (.angle false [.associated (.ofWord "Item") item] false)],
            .trait false .nil false [.mk "Send" .none]] false)] false)]

/-- and what its items may be borrowed as: `&Cow<'a, std::boxed::Box<_>>`. -/
def borrowed (item : TypeExpr) : TypeExpr :=
  .reference none false
    (.path false
      [.mk "Cow" (.angle false
        [.lifetime "a",
          .type (.path false
            [.mk "std" .none, .mk "boxed" .none, .mk "Box" (.angle false [.type item] false)])] false)])

/-- Borrowed or not, the items are users. -/
theorem pointers_transparent_items :
    Position itemsLater ∧ Pointers borrowed ∧
    (itemsLater user).declared = .ok (.mk ["Future"] [.mk ["Iterator"] [.mk ["User"] []]]) ∧
    (itemsLater (borrowed user)).declared = .ok (.mk ["Future"] [.mk ["Iterator"] [.mk ["User"] []]]) := by
  have hitem : ∀ front, SegmentPlace fun x => .mk "Iterator" (.angle false [.associated front x] false) :=
    fun front => .angle "Iterator" false [] [] false (.associated front)
  have hiterator : Around fun x => .bounded (some "dyn")
      [.trait false .nil false [.mk "Iterator" (.angle false [.associated (.ofWord "Item") x] false)],
        .trait false .nil false [.mk "Send" .none]] false :=
    .bounded _ [] [.trait false .nil false [.mk "Send" .none]] false (.path false .nil false (.segment [] [] (hitem _)))
  have hfuture : Around fun x => .path false [.mk "Future" (.angle false [.associated (.ofWord "Output") x] false)] :=
    .path false (.segment [] [] (.angle "Future" false [] [] false (.associated _)))
  have hinside := Position.inside hfuture (.inside hiterator .here)
  have hposition : Position itemsLater := hinside
  have hbox : Pointer fun x => .path false
      [.mk "std" .none, .mk "boxed" .none, .mk "Box" (.angle false [.type x] false)] :=
    .smart false [.mk "std" .none, .mk "boxed" .none] (by decide) false [] false
  have hcow : Pointer fun x => .path false [.mk "Cow" (.angle false [.lifetime "a", .type x] false)] :=
    .smart false [] (by decide) false ["a"] false
  have hlayers := Pointers.more (.reference none false) (.more hcow (.more hbox .none))
  have hpointers : Pointers borrowed := hlayers
  have hplain : (itemsLater user).declared = .ok (.mk ["Future"] [.mk ["Iterator"] [.mk ["User"] []]]) := by
    decide +kernel
  refine ⟨hposition, hpointers, hplain, ?_⟩
  rcases pointers_transparent hposition hpointers user with ⟨d, hd, hborrowed⟩ | ⟨w, w', hrefused, -⟩
  · rw [hplain] at hd
    rw [hborrowed, ← hd]
  · rw [hplain] at hrefused
    cases hrefused

end QueryContract.Source

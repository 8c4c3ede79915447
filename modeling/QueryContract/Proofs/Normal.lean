import QueryContract.Proofs.Names
import QueryContract.Proofs.Outcomes
import QueryContract.Proofs.Overloads

/-!
# `Proofs.Normal` — declared types in normal form

The path of a declared type is put together as a text and cut again, and the layers around a type can be nested in any
order. Still, at every node of what comes out the path consists of words of the source, or is one of the two
pseudo-names alone.

* `IsWordToken`, `within_ofText?`     — the words among the tokens of a text are identifiers or keywords;
* `Throughout`, `Tidy`, `Normal`      — what holds at every node of a type;
* `TypeExpr.normal`                   — a written type with names of a kind declares a type in normal form.
-/

namespace QueryContract.Source

open QueryContract.Parser Text

/-! ## Words of a text -/

namespace Lexeme

/-- An identifier or a keyword, perhaps with the mark of raw identifiers. -/
def IsWordToken (w : String) : Prop := ∃ n, isWord n = true ∧ (w.toList = n ∨ w.toList = 'r' :: '#' :: n)

theorem isPlain_of_isWordToken {w : String} (h : IsWordToken w) : DeclaredType.isPlain w = true := by
  obtain ⟨n, hn, hw⟩ := h
  have hdelimiters : ∀ c ∈ DeclaredType.delimiters, isContinue c = false := by decide
  have hword : ∀ c ∈ n, c ∉ DeclaredType.delimiters ∧ isBlank c = false := by
    intro c hc
    have hcontinue := isContinue_of_mem_isWord hn c hc
    refine ⟨fun hmem => ?_, DeclaredType.isBlank_of_isContinue hcontinue⟩
    rw [hdelimiters c hmem] at hcontinue
    exact Bool.false_ne_true hcontinue
  have hne : n ≠ [] := by
    rintro rfl
    exact absurd hn nofun
  have hchars : w.toList ≠ [] ∧ ∀ c ∈ w.toList, c ∉ DeclaredType.delimiters ∧ isBlank c = false := by
    rcases hw with hw | hw
    · rw [hw]
      exact ⟨hne, hword⟩
    · rw [hw]
      exact ⟨nofun, List.forall_mem_cons.2 ⟨by decide, List.forall_mem_cons.2 ⟨by decide, hword⟩⟩⟩
  simpa [DeclaredType.isPlain] using hchars

/-- The token is no word other than an identifier or a keyword. -/
def ProperToken (t : Token) : Prop := ∀ w, t = .word w → IsWordToken w

/-- The same of all tokens among lexemes. -/
def ProperLexemes (ls : List Lexeme) : Prop := ∀ t, .token t ∈ ls → ProperToken t

theorem gives_plainWord : Gives (fun w => isWord w = true) plainWord := by
  have hfirst : Gives (fun c => isStart c = true) (satisfy isStart) := by
    intro s c r h
    cases s with
    | nil => cases h
    | cons d s =>
        rw [satisfy] at h
        split at h
        · rename_i hd
          cases h
          exact hd
        · cases h
  have hmore : Gives (fun cs => cs.all isContinue = true) (takeWhile isContinue) := by
    intro s cs r h
    cases h
    exact List.all_takeWhile
  exact .bind hfirst fun c hc => .bind hmore fun cs hcs => .pure (by simp [isWord, hc, hcs])

theorem gives_anyWord : Gives IsWordToken anyWord := by
  have hplain : Gives IsWordToken (String.ofList <$> plainWord) :=
    .map gives_plainWord fun w hw => ⟨w, hw, .inl String.toList_ofList⟩
  have hmarked : Gives (fun w => ∃ n, isWord n = true ∧ w = 'r' :: '#' :: n) rawWord :=
    .skip fun _ => .bind gives_plainWord fun n hn => .ite .failure (.pure ⟨n, hn, rfl⟩)
  have hraw : Gives IsWordToken (String.ofList <$> rawWord) := by
    refine .map hmarked ?_
    rintro w ⟨n, hn, rfl⟩
    exact ⟨n, hn, .inr String.toList_ofList⟩
  intro s w r h
  rw [anyWord] at h
  split at h
  · exact hraw h
  · exact hplain h

theorem gives_plainToken : Gives ProperToken plainToken := by
  refine .orElse (.skip fun l => .pure nofun) (.orElse ?_ (.orElse ?_ (.orElse ?_ (.skip fun _ => .pure nofun))))
  · exact .skip fun _ => .skip fun isQuote => .ite (.pure nofun) (.skip fun _ => .skip fun l => .pure nofun)
  · exact .skip fun _ => .skip fun c => .skip fun joint => .pure nofun
  · refine .skip fun _ => .bind gives_anyWord fun n hn => .pure fun w hw => ?_
    cases hw
    exact hn

theorem gives_documentation : Gives ProperLexemes documentation := by
  have hdoc : IsWordToken "doc" := ⟨['d', 'o', 'c'], by decide, .inl rfl⟩
  refine .skip fun y => .ite .failure (.pure fun t ht w hw => ?_)
  subst hw
  obtain rfl : w = "doc" := by
    cases hinner : y.1 <;> simpa [documenting, hinner] using ht
  exact hdoc

theorem gives_lexeme : Gives ProperLexemes lexeme := by
  have hplain : Gives ProperLexemes (do pure [token (← plainToken)]) := by
    refine .bind gives_plainToken fun t ht => .pure fun u hu => ?_
    obtain rfl : u = t := by simpa using hu
    exact ht
  have hbracket : ∀ {c b}, bracket? c = some b → ∀ t, b ≠ token t := by
    rintro c b hb t rfl
    unfold bracket? at hb
    repeat' split at hb
    all_goals cases hb
  intro s ls r h
  rw [lexeme.eq_def] at h
  split at h
  · cases h
  · split at h
    · exact Gives.orElse gives_documentation hplain h
    · split at h
      · exact hplain h
      · split at h
        · rename_i b hb
          cases h
          intro t ht
          exact absurd (List.mem_singleton.1 ht).symm (hbracket hb t)
        · exact hplain h

/-- All words of a text are identifiers or keywords. -/
theorem gives_all : Gives ProperLexemes all := by
  have hitem : Gives ProperLexemes (do let l ← lexeme; gap; pure l) :=
    .bind gives_lexeme fun l hl => .skip fun _ => .pure hl
  refine .skip fun _ => .bind (.many hitem) fun parts hparts => .pure fun t ht => ?_
  obtain ⟨ls, hls, ht⟩ := List.mem_flatten.1 ht
  exact hparts ls hls t ht

end Lexeme

/-- The words among tokens are those among their lexemes. -/
theorem Tokens.mem_words {w : String} {ts : Tokens} : w ∈ ts.words ↔ .token (.word w) ∈ ts.flatten := by
  induction ts with
  | nil => simp [words, flatten]
  | leaf t r ih => cases t <;> simp [words, flatten, ih]
  | group d body r ihBody ihRest => simp [words, flatten, ihBody, ihRest]

/-- **The words among the tokens of a text are identifiers or keywords.** -/
theorem within_ofText? {s : List Char} {ts : Tokens} (h : Tokens.ofText? s = some ts) :
    ts.Within Lexeme.IsWordToken := by
  obtain ⟨⟨ls, e⟩, hall, hpair⟩ := Option.bind_eq_some_iff.1 h
  intro w hw
  rw [Tokens.mem_words, ← Lexeme.pair_eq_some_iff.1 hpair] at hw
  exact Lexeme.gives_all hall _ hw w rfl

end QueryContract.Source

namespace QueryContract

open Source Text

namespace DeclaredType

/-! ## Normal form -/

/-- The property holds of the type and, in turn, of its arguments. -/
inductive Throughout (P : DeclaredType → Prop) : DeclaredType → Prop where
  | mk {path : List String} {args : List DeclaredType} (here : P (.mk path args))
      (below : ∀ a ∈ args, Throughout P a) : Throughout P (.mk path args)

/-- A plain name that has the property. -/
def PlainName (W : String → Prop) (n : String) : Prop := W n ∧ isPlain n = true

/-- What a node is like in normal form. The segments of its path have the property and are plain, or it is one of the two
    pseudo-names alone. It is none of the types that count as their argument. An array has one argument, and the unit type
    has none. -/
structure Tidy (W : String → Prop) (t : DeclaredType) : Prop where
  nonempty : t.path ≠ []
  segments : (∀ n ∈ t.path, PlainName W n) ∨ t.path = [arrayName] ∨ t.path = [unitName]
  kept : t.simpleName ∉ transparent
  array : t.simpleName = arrayName → ∃ element, t.args = [element]
  unit : t.simpleName = unitName → t.args = []

/-- A type in normal form, with names of a kind. -/
def Normal (W : String → Prop) (t : DeclaredType) : Prop := t.Throughout (Tidy W)

namespace Normal

variable {V W : String → Prop}

theorem array {element : DeclaredType} (h : element.Normal W) : (DeclaredType.array element).Normal W := by
  have hname : simpleNameOf [arrayName] ∉ transparent ∧ simpleNameOf [arrayName] ≠ unitName := by decide
  refine .mk ⟨nofun, .inr (.inl rfl), hname.1, fun _ => ⟨element, rfl⟩, fun hunit => absurd hunit hname.2⟩ ?_
  exact List.forall_mem_singleton.2 h

theorem unit : DeclaredType.unit.Normal W :=
  .mk ⟨nofun, .inr (.inr rfl), by decide, fun harray => absurd harray (by decide), fun _ => rfl⟩ nofun

theorem path {names : List String} {args : List DeclaredType} (hne : names ≠ []) (hnames : ∀ n ∈ names, PlainName W n)
    (hkept : simpleNameOf names ∉ transparent) (hargs : ∀ a ∈ args, a.Normal W) : (DeclaredType.mk names args).Normal W := by
  obtain ⟨-, hlast⟩ := hnames _ (simpleNameOf_mem hne)
  -- the pseudo-names are not plain
  have hpseudo : ∀ n, isPlain n = false → simpleNameOf names ≠ n := by
    rintro n hn rfl
    exact Bool.false_ne_true (hn.symm.trans hlast)
  refine .mk ⟨hne, .inl hnames, hkept, fun h => ?_, fun h => ?_⟩ hargs
  · exact absurd h (hpseudo _ (by decide))
  · exact absurd h (hpseudo _ (by decide))

theorem mono {t : DeclaredType} (h : t.Normal W) (hWV : ∀ n, W n → V n) : t.Normal V := by
  induction h with
  | mk here below ih =>
      refine .mk ⟨here.nonempty, here.segments.imp_left fun hnames n hn => ?_, here.kept, here.array, here.unit⟩ ih
      exact ⟨hWV n (hnames n hn).1, (hnames n hn).2⟩

end Normal

/-! ## Paths -/

/-- Plain names are found again in the text of a path. -/
theorem pathOf_plain {names : List String} (hne : names ≠ []) (hplain : ∀ n ∈ names, isPlain n = true) :
    pathOf ("::".intercalate names) = names := by
  have hchars : ∀ n ∈ names, n.toList ≠ [] ∧ ∀ c ∈ n.toList, c ∉ delimiters ∧ isBlank c = false := by
    intro n hn
    have h := hplain n hn
    simpa [isPlain] using h
  obtain ⟨c, r, hjoin, hc⟩ := exists_join_cons_plain hne hplain
  -- the two pseudo-names start with delimiters
  have hpseudo : ∀ d s, d ∈ delimiters → join (names.map String.toList) ≠ d :: s := by
    rintro d s hd heq
    rw [hjoin] at heq
    exact hc ((List.cons.inj heq).1 ▸ hd)
  refine pathOf_join hne (fun n hn => (hchars n hn).1) (fun n hn c hc => ((hchars n hn).2 c hc).2) ?_
    (hpseudo _ _ (by decide)) (hpseudo _ _ (by decide))
  exact fun n hn hcolon => ((hchars n hn).2 ':' hcolon).1 (by decide)

end DeclaredType

/-! ## Written types -/

namespace Source

open DeclaredType

/-- What the computation comes to has the property, unless it fails. -/
def Settles {α : Type} (Q : α → Prop) (x : Except Fault α) : Prop := ∀ a, x = .ok a → Q a

namespace Settles

variable {α β : Type} {P Q : α → Prop} {R : β → Prop}

theorem ok {a : α} (h : Q a) : Settles Q (.ok a) := by
  rintro b ⟨⟩
  exact h

theorem error {fault : Fault} : Settles Q (.error fault) := nofun

theorem bind {x : Except Fault α} {f : α → Except Fault β} (hx : Settles P x) (hf : ∀ a, P a → Settles R (f a)) :
    Settles R (x >>= f) := by
  cases x with
  | error fault => exact error
  | ok a => exact hf a (hx a rfl)

theorem mapM {f : α → Except Fault β} {as : List α} (h : ∀ a ∈ as, Settles R (f a)) :
    Settles (fun bs => ∀ b ∈ bs, R b) (as.mapM f) := by
  induction as with
  | nil => exact ok nofun
  | cons a as ih =>
      obtain ⟨ha, has⟩ := List.forall_mem_cons.1 h
      rw [List.mapM_cons]
      exact .bind ha fun b hb => .bind (ih has) fun bs hbs => ok (List.forall_mem_cons.2 ⟨hb, hbs⟩)

end Settles

section

variable {W : String → Prop}

theorem Segment.Named.name {s : Segment} (h : s.Named W) : W s.name := by
  cases h with
  | mk hn _ => exact hn

/-- **A path whose names are plain declares a type in normal form:** its text is cut where it was put together. -/
theorem declaredPath_settles (whole : TypeExpr) {segments : List Segment}
    (hss : ∀ s ∈ segments, s.Named (PlainName W)) {args : List DeclaredType} (hargs : ∀ a ∈ args, a.Normal W) :
    Settles (Normal W) (declaredPath whole segments args) := by
  have hnames : ∀ n ∈ segments.map Segment.name, PlainName W n := by
    intro n hn
    obtain ⟨s, hs, rfl⟩ := List.mem_map.1 hn
    exact (hss s hs).name
  unfold declaredPath
  cases hlast : segments.getLast? with
  | none => exact .error
  | some last =>
      have hne : segments.map Segment.name ≠ [] := by
        rw [Ne, List.map_eq_nil_iff]
        rintro rfl
        cases hlast
      have hsimple : simpleNameOf (segments.map Segment.name) = last.name := by
        rw [simpleNameOf, List.getLast?_map, hlast]
        rfl
      by_cases hcounts : transparent.contains last.name = true
      · simp only [hcounts, if_true]
        cases args with
        | nil => exact .error
        | cons a more => exact .ok (hargs a List.mem_cons_self)
      · simp only [hcounts, Bool.false_eq_true, if_false]
        rw [DeclaredType.generic, joined, DeclaredType.pathOf_plain hne fun n hn => (hnames n hn).2]
        refine .ok (.path hne hnames ?_ hargs)
        rw [hsimple]
        exact fun hmem => hcounts (List.contains_iff_mem.2 hmem)

mutual

/-- **A written type with plain names declares a type in normal form.** -/
theorem TypeExpr.normal : ∀ t : TypeExpr, t.Named (PlainName W) → Settles (Normal W) t.declared
  | .path leading segments, h => by
      rw [TypeExpr.declared]
      cases h with
      | path _ _ hss =>
          exact (lastDeclared_normal _ segments hss).bind fun args hargs => declaredPath_settles _ hss hargs
  | .member self leading base [], h => by
      cases h with
      | member _ _ hne _ _ => exact absurd rfl hne
  | .member self leading base (s :: ss), h => by
      rw [TypeExpr.declared]
      cases h with
      | member _ _ _ hbase hrest =>
          exact (lastDeclared_normal _ (s :: ss) hrest).bind fun args hargs =>
            declaredPath_settles _ (List.forall_mem_append.2 ⟨hbase, hrest⟩) hargs
  | .reference _ _ target, h => by
      rw [TypeExpr.declared]
      cases h with
      | reference _ _ htarget => exact target.normal htarget
  | .paren inner, h => by
      rw [TypeExpr.declared]
      cases h with
      | paren hinner => exact inner.normal hinner
  | .slice element, h => by
      rw [TypeExpr.declared]
      cases h with
      | slice helement => exact (element.normal helement).bind fun t ht => .ok ht.array
  | .array element _, h => by
      rw [TypeExpr.declared]
      cases h with
      | array _ helement => exact (element.normal helement).bind fun t ht => .ok ht.array
  | .tuple [] _, _ => by
      rw [TypeExpr.declared]
      exact .ok .unit
  | .tuple (t :: ts) trailing, _ => by
      rw [TypeExpr.declared]
      exact .error
  | .bounded keyword bounds trailing, h => by
      rw [TypeExpr.declared]
      cases h with
      | bounded _ _ hbounds => exact boundsDeclared_normal _ bounds hbounds
  | .other written bare, _ => by
      rw [TypeExpr.declared]
      exact .error

theorem lastDeclared_normal (whole : TypeExpr) :
    ∀ segments : List Segment, (∀ s ∈ segments, s.Named (PlainName W)) →
      Settles (fun args => ∀ a ∈ args, a.Normal W) (lastDeclared whole segments)
  | [], _ => by
      rw [lastDeclared]
      exact .ok nofun
  | [s], h => by
      rw [lastDeclared]
      exact s.normal whole (List.forall_mem_singleton.1 h)
  | _ :: s :: ss, h => by
      rw [lastDeclared]
      exact lastDeclared_normal whole (s :: ss) (List.forall_mem_cons.1 h).2

theorem Segment.normal (whole : TypeExpr) :
    ∀ s : Segment, s.Named (PlainName W) → Settles (fun args => ∀ a ∈ args, a.Normal W) (s.declared whole)
  | .mk _ arguments, h => by
      rw [Segment.declared]
      cases h with
      | mk _ harguments => exact arguments.normal whole harguments

theorem Arguments.normal (whole : TypeExpr) :
    ∀ arguments : Arguments, arguments.Named (PlainName W) →
      Settles (fun args => ∀ a ∈ args, a.Normal W) (arguments.declared whole)
  | .none, _ => by
      rw [Arguments.declared]
      exact .ok nofun
  | .angle _ args _, h => by
      rw [Arguments.declared]
      cases h with
      | angle _ _ hargs => exact allDeclared_normal args hargs
  | .parenthesized _ _, _ => by
      rw [Arguments.declared]
      exact .error

theorem allDeclared_normal : ∀ args : List Argument, (∀ a ∈ args, a.Named (PlainName W)) →
    Settles (fun args => ∀ a ∈ args, a.Normal W) (allDeclared args)
  | [], _ => by
      rw [allDeclared]
      exact .ok nofun
  | .type t :: as, h => by
      obtain ⟨ht, has⟩ := List.forall_mem_cons.1 h
      rw [allDeclared]
      cases ht with
      | type ht =>
          exact (t.normal ht).bind fun first hfirst => (allDeclared_normal as has).bind fun rest hrest =>
            .ok (List.forall_mem_cons.2 ⟨hfirst, hrest⟩)
  | .associated _ t :: as, h => by
      obtain ⟨ht, has⟩ := List.forall_mem_cons.1 h
      rw [allDeclared]
      cases ht with
      | associated _ ht =>
          exact (t.normal ht).bind fun first hfirst => (allDeclared_normal as has).bind fun rest hrest =>
            .ok (List.forall_mem_cons.2 ⟨hfirst, hrest⟩)
  | .lifetime _ :: as, h => by
      rw [allDeclared]
      exact allDeclared_normal as (List.forall_mem_cons.1 h).2
  | .other _ :: as, h => by
      rw [allDeclared]
      exact allDeclared_normal as (List.forall_mem_cons.1 h).2

theorem boundsDeclared_normal (whole : TypeExpr) :
    ∀ bounds : List Bound, (∀ b ∈ bounds, b.Named (PlainName W)) →
      Settles (Normal W) (boundsDeclared whole bounds)
  | [], _ => by
      rw [boundsDeclared]
      exact .error
  | .trait _ _ _ segments :: _, h => by
      rw [boundsDeclared]
      cases (List.forall_mem_cons.1 h).1 with
      | trait _ _ _ _ hss =>
          exact (lastDeclared_normal _ segments hss).bind fun args hargs => declaredPath_settles _ hss hargs
  | .lifetime _ :: bounds, h => by
      rw [boundsDeclared]
      exact boundsDeclared_normal whole bounds (List.forall_mem_cons.1 h).2
  | .capture _ :: bounds, h => by
      rw [boundsDeclared]
      exact boundsDeclared_normal whole bounds (List.forall_mem_cons.1 h).2
  | .constant _ :: bounds, h => by
      rw [boundsDeclared]
      exact boundsDeclared_normal whole bounds (List.forall_mem_cons.1 h).2

end

end

end Source

end QueryContract

import Mathlib.Control.Monad.Basic
import QueryContract.Proofs.LineBreaks
import QueryContract.Proofs.RoundTrip
import QueryContract.Proofs.TraitItems

/-!
# `Proofs.TraitMethods` — the methods of a trait and methods on their own

A trait whose items are given as texts, each on lines of its own, has the methods that these texts declare on their own,
in the same order, each declared in the trait. Where one of them declares a type or a parameter that is not supported,
the trait is rejected with the fault of the first one.

* `traitText`            — the text of such a trait;
* `Complete`             — what a text has to be like to be an item as it stands;
* `ofSource_traitText`   — the main statement;
* `ofSource_traitText_marked` — why no text may start with a mark of the byte order.
-/

namespace QueryContract

open Source Source.Lexeme Text

/-! ## Texts of items -/

/-- A text that is accepted as a method, and is one as it stands: it ends in a semicolon or in a brace, or else in a comment
    behind them that the added semicolon is a part of. -/
structure Complete (source : String) : Prop where
  ended : (trim source.toList).getLast? = some ';' ∨ (trim source.toList).getLast? = some '\x7d' ∨
    Tokens.ofText? (terminated source.toList) = Tokens.ofText? (trim source.toList)
  accepted : Method.ofSource source ≠ .error .malformed

instance (source : String) : Decidable (Complete source) :=
  decidable_of_iff (((trim source.toList).getLast? = some ';' ∨ (trim source.toList).getLast? = some '\x7d' ∨
    Tokens.ofText? (terminated source.toList) = Tokens.ofText? (trim source.toList)) ∧
      Method.ofSource source ≠ .error .malformed) ⟨fun h => ⟨h.1, h.2⟩, fun h => ⟨h.ended, h.accepted⟩⟩

/-- To a complete text no token is added. -/
theorem Complete.ofText?_terminated {source : String} (h : Complete source) :
    Tokens.ofText? (terminated source.toList) = Tokens.ofText? (trim source.toList) := by
  rcases h.ended with hend | hend | hsame
  · rw [terminated, if_pos (.inl hend)]
  · rw [terminated, if_pos (.inr hend)]
  · exact hsame

/-- A complete text is a declaration that its own signature stands for. -/
theorem Complete.declares {source : String} (h : Complete source)
    (hmark : (trim source.toList).head? ≠ some '\ufeff') :
    ∃ ts m, Declares ts m ∧ Reads (trim source.toList) ts.flatten ∧ Method.ofSource source = m.declared := by
  have hsource : Method.ofSource source =
      (orMalformed (methodOf? (terminated source.toList))).bind Signature.declared := rfl
  cases hmethod : methodOf? (terminated source.toList) with
  | none =>
      rw [hmethod] at hsource
      exact absurd hsource h.accepted
  | some m =>
      rw [hmethod] at hsource
      obtain ⟨ts, htokens, hdeclares⟩ := parse?_eq_some hmethod
      rw [h.ofText?_terminated] at htokens
      exact ⟨ts, m, hdeclares, reads_of_ofText? htokens hmark, hsource⟩

/-- The characters of several texts, each on lines of its own. -/
def linesOf (sources : List String) : List Char := sources.flatMap fun s => s.toList ++ ['\n']

/-- The text of a trait with the given texts as its items, each on lines of its own. -/
def traitText (name : String) (sources : List String) : String :=
  "trait " ++ name ++ " \x7b\n" ++ String.join (sources.map (· ++ "\n")) ++ "\x7d"

theorem toList_traitText (name : String) (sources : List String) : (traitText name sources).toList =
    "trait".toList ++ ' ' :: (name.toList ++ ' ' :: '\x7b' :: '\n' :: (linesOf sources ++ ['\x7d'])) := by
  simp [traitText, linesOf, String.toList_join, List.flatMap_map]

theorem head?_traitText (name : String) (sources : List String) :
    (traitText name sources).toList.head? ≠ some '\ufeff' := by
  rw [toList_traitText]
  exact nofun

/-- The items of a trait, from their texts. -/
theorem exists_items {sources : List String} (h : ∀ s ∈ sources, Complete s)
    (hmark : ∀ s ∈ sources, (trim s.toList).head? ≠ some '\ufeff') :
    ∃ items : List (Tokens × Signature), (∀ i ∈ items, Declares i.1 i.2) ∧
      sources.map Method.ofSource = items.map (fun i => i.2.declared) ∧
      ∀ w, all (linesOf sources ++ w) =
        (all w).map fun y => ((Tokens.concat (items.map (·.1))).flatten ++ y.1, y.2) := by
  induction sources with
  | nil => exact ⟨[], nofun, rfl, fun w => by simp [linesOf, Tokens.concat, Tokens.flatten]⟩
  | cons s sources ih =>
      obtain ⟨items, hitems, hmethods, hlines⟩ := ih (fun t ht => h t (List.mem_cons_of_mem _ ht))
        fun t ht => hmark t (List.mem_cons_of_mem _ ht)
      obtain ⟨ts, m, hdeclares, hreads, hsource⟩ :=
        (h s List.mem_cons_self).declares (hmark s List.mem_cons_self)
      refine ⟨(ts, m) :: items, ?_, ?_, ?_⟩
      · intro i hi
        rcases List.mem_cons.1 hi with rfl | hi
        · exact hdeclares
        · exact hitems i hi
      · rw [List.map_cons, List.map_cons, hsource, hmethods]
      · intro w
        have hcons : linesOf (s :: sources) ++ w = s.toList ++ '\n' :: (linesOf sources ++ w) := by
          simp [linesOf]
        rw [hcons, all_line hreads hdeclares.closed.getLast?_flatten, hlines w, Option.map_map]
        show _ = (all w).map fun y => ((ts ++ Tokens.concat (items.map (·.1))).flatten ++ y.1, y.2)
        rw [Tokens.flatten_append]
        simp [Function.comp_def]

/-! ## The main statement -/

namespace RepositoryDeclaration

/-- The lexemes of the text of a trait are those of its items, in their order. -/
theorem reads_traitText {n : String} (hn : isIdentifier n = true) {sources : List String} {body : Tokens}
    (h : ∀ w, all (linesOf sources ++ w) = (all w).map fun y => (body.flatten ++ y.1, y.2)) :
    Reads (traitText n sources).toList
      (Tokens.leaf (.word "trait") (.leaf (.word n) (.group .brace body .nil))).flatten := by
  have hclose : Reads ['\x7d'] [closing .brace] := Reads.nil.closeBrace
  have hlines : Reads (linesOf sources ++ ['\x7d']) (body.flatten ++ [closing .brace]) := by
    have hall : all ['\x7d'] = some ([closing .brace], []) := hclose
    rw [Reads, h, hall]
    rfl
  have hbody : Reads ('\x7b' :: '\n' :: (linesOf sources ++ ['\x7d']))
      (opening .brace :: (body.flatten ++ [closing .brace])) := (hlines.space (by decide)).openBrace
  have hname := (hbody.space (c := ' ') (by decide)).word (isWord_of_isIdentifier hn) (endsWord_cons (by decide))
  have htrait := (hname.space (c := ' ') (by decide)).word (w := "trait".toList) (by decide) (endsWord_cons (by decide))
  rw [toList_traitText]
  rw [String.ofList_toList, String.ofList_toList] at htrait
  exact htrait

/-- The declaration of a trait is read from the texts of its items alone. -/
theorem ofSource_items {n : String} (hn : isIdentifier n = true) {sources : List String}
    (h : ∀ s ∈ sources, Complete s) (hmark : ∀ s ∈ sources, (trim s.toList).head? ≠ some '\ufeff') :
    ofSource (traitText n sources) = (sources.mapM Method.ofSource).map fun methods =>
      { name := n, generics := [], supertraits := [], methods := methods.map (·.declaredIn n) } := by
  obtain ⟨items, hitems, hmethods, hlines⟩ := exists_items h hmark
  have htrait : traitOf? (traitText n sources).toList = some ⟨n, [], [], items.map (·.2)⟩ :=
    parse?_of_reads (reads_traitText hn hlines) (head?_traitText n sources) (traitDeclaration_items hn hitems)
  have hsame : (items.map (·.2)).mapM Signature.declared = sources.mapM Method.ofSource := by
    refine mapM_congr ?_
    rw [hmethods, List.map_map]
    rfl
  rw [ofSource, htrait, ← hsame]
  rfl

/-- **A trait has the methods that its items declare on their own,** in their order, or the fault of the first item that
    is rejected. -/
theorem ofSource_traitText {n : String} (hn : isIdentifier n = true) {sources : List String}
    (h : ∀ s ∈ sources, Complete s) (hmark : ∀ s ∈ sources, (trim s.toList).head? ≠ some '\ufeff') :
    (∀ methods : List Method, sources.map Method.ofSource = methods.map .ok →
      ofSource (traitText n sources) =
        .ok { name := n, generics := [], supertraits := [], methods := methods.map (·.declaredIn n) }) ∧
    ∀ front s back fault, sources = front ++ s :: back → (∀ t ∈ front, ∃ m, Method.ofSource t = .ok m) →
      Method.ofSource s = .error fault → fault ≠ .malformed ∧ ofSource (traitText n sources) = .error fault := by
  have hsource := ofSource_items hn h hmark
  constructor
  · intro methods hmethods
    rw [hsource, mapM_of_ok hmethods]
    rfl
  · rintro front s back fault rfl hfront hfault
    constructor
    · rintro rfl
      exact (h s (by simp)).accepted hfault
    · rw [hsource, mapM_of_error hfront hfault]
      rfl

/-- A documented asynchronous method, and one with a body and a comment behind it. -/
def userItems : List String :=
  ["/// All of them.\nasync fn find_all(&self, page: Pageable) -> Page<User>;",
    "fn count<T>(&self, _: T) -> u64 \x7b 0 \x7d // by default"]

/-- What the items declare on their own. -/
def userMethods : List Method :=
  [{ name := "find_all"
     parameters := [⟨some "page", .mk ["Pageable"] []⟩]
     result := .mk ["Future"] [.mk ["Page"] [.mk ["User"] []]] },
    { name := "count", parameters := [⟨none, .mk ["T"] []⟩], result := .mk ["u64"] [] }]

/-- Two items that are accepted, and the same items before one whose result type is not supported. -/
theorem ofSource_traitText_userItems :
    ofSource (traitText "UserRepository" userItems) = .ok
        { name := "UserRepository"
          generics := []
          supertraits := []
          methods := userMethods.map (·.declaredIn "UserRepository") } ∧
      ofSource (traitText "UserRepository" (userItems ++ ["fn halt() -> !;"])) = .error (.unsupportedType "!") := by
  have hname : isIdentifier "UserRepository" = true := by decide
  have haccepted : userItems.map Method.ofSource = userMethods.map .ok := by decide +kernel
  have hrejected : Method.ofSource "fn halt() -> !;" = .error (.unsupportedType "!") := by decide +kernel
  have hcomplete : ∀ s ∈ userItems ++ ["fn halt() -> !;"], Complete s := by decide +kernel
  have hmark : ∀ s ∈ userItems ++ ["fn halt() -> !;"], (trim s.toList).head? ≠ some '\ufeff' := by decide +kernel
  have hfront : ∀ s ∈ userItems, s ∈ userItems ++ ["fn halt() -> !;"] := fun s hs => List.mem_append_left _ hs
  refine ⟨?_, ?_⟩
  · have hitems := ofSource_traitText hname (fun s hs => hcomplete s (hfront s hs)) fun s hs => hmark s (hfront s hs)
    exact hitems.1 userMethods haccepted
  · have hitems := ofSource_traitText hname hcomplete hmark
    refine (hitems.2 userItems "fn halt() -> !;" [] _ rfl (fun s hs => ?_) hrejected).2
    have hmem : Method.ofSource s ∈ userMethods.map .ok := haccepted ▸ List.mem_map_of_mem hs
    obtain ⟨m, -, hm⟩ := List.mem_map.1 hmem
    exact ⟨m, hm.symm⟩

/-! ## Marks of the byte order -/

/-- A mark of the byte order is dropped at the start of a whole text only, so an item that starts with one is accepted on
    its own, but the trait is malformed. -/
theorem ofSource_traitText_marked {n : String} (hn : isIdentifier n = true) {front : List String}
    (h : ∀ s ∈ front, Complete s) (hmark : ∀ s ∈ front, (trim s.toList).head? ≠ some '\ufeff') {s : String}
    (hs : (trim s.toList).head? = some '\ufeff') (back : List String) :
    ofSource (traitText n (front ++ s :: back)) = .error .malformed := by
  obtain ⟨items, -, -, hlines⟩ := exists_items h hmark
  obtain ⟨r, hr⟩ : ∃ r, trim s.toList = '\ufeff' :: r := by
    cases htrim : trim s.toList with
    | nil => simp [htrim] at hs
    | cons c r => exact ⟨r, by simpa [htrim] using hs⟩
  obtain ⟨a, b, hsplit, ha, -⟩ := exists_trim s.toList
  -- the mark is where a lexeme has to start
  have hsource : ∀ w, all (s.toList ++ w) = none := by
    intro w
    rw [hsplit, hr, List.append_assoc, List.append_assoc, all_spaces fun c hc => isSpace_of_isBlank (ha c hc)]
    exact all_mark _
  have hbody : all ('\n' :: (linesOf (front ++ s :: back) ++ ['\x7d'])) = none := by
    have happend : linesOf (front ++ s :: back) ++ ['\x7d'] =
        linesOf front ++ (s.toList ++ '\n' :: (linesOf back ++ ['\x7d'])) := by simp [linesOf]
    rw [all_space (by decide), happend, hlines, hsource]
    rfl
  have hall : all (traitText n (front ++ s :: back)).toList = none := by
    rw [toList_traitText, all_word (by decide) (endsWord_cons (by decide)), all_space (by decide),
      all_word (isWord_of_isIdentifier hn) (endsWord_cons (by decide)), all_space (by decide),
      all_bracket (b := opening .brace) rfl (absurd · (by decide)), hbody]
    rfl
  have htrait : traitOf? (traitText n (front ++ s :: back)).toList = none := by
    rw [traitOf?, parse?, Tokens.ofText?_unmarked (head?_traitText n _), hall]
    rfl
  rw [ofSource, htrait]
  rfl

/-- An item that is accepted on its own and lost in a trait. -/
theorem ofSource_markedItem : Complete "\ufefffn f();" ∧ Method.ofSource "\ufefffn f();" = .ok { name := "f" } ∧
    ofSource (traitText "N" ["\ufefffn f();"]) = .error .malformed := by
  decide +kernel

end RepositoryDeclaration

end QueryContract

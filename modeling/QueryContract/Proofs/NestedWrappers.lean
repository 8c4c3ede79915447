import QueryContract.Proofs.Unwrapping

/-!
# `Proofs.NestedWrappers` — search hits inside two wrappers

One wrapper is taken off before a type is classified. Whether the type inside holds several search hits is then asked of
the hierarchy, and of the wrapper that was taken off, but not of a wrapper that is still there. So search hits in a
multi-valued wrapper are a search, and a wrapper for one value around them loses it, unless the hierarchy knows the
wrapper inside as a collection or stream.

* `HasShape`             — the shape that a declared type resolves to;
* `Chunk`, `Container`   — what the hierarchy says of the type inside;
* `KeepsSearches`        — what the built-in vocabulary fails (`builtin_loses_searches`);
* `nestedHits_shapes`    — the main statement: when both types are searches, and what is left of a lost one.
-/

namespace QueryContract.Vocabulary

variable (v : Vocabulary)

/-! ## Shapes of declared types -/

/-- The declared type is not refused and has the given shape. -/
def HasShape (declared : DeclaredType) (domain override : Option DeclaredType) (shape : Shape) : Prop :=
  (v.resolve declared domain override).toOption.map Resolution.shape = some shape

instance (declared : DeclaredType) (domain override : Option DeclaredType) (shape : Shape) :
    Decidable (v.HasShape declared domain override shape) := inferInstanceAs (Decidable (_ = _))

/-- A page, a slice or a window. -/
def Chunk (t : DeclaredType) : Prop :=
  v.hierarchy.Below t.simpleName Marker.page ∨ v.hierarchy.Below t.simpleName Marker.slice ∨
    v.hierarchy.Below t.simpleName Marker.window

/-- What holds its elements one by one: collections, streams and search containers. -/
def Container (t : DeclaredType) : Prop :=
  v.hierarchy.CollectionLike t ∨ v.hierarchy.Below t.simpleName Marker.stream ∨
    v.hierarchy.Below t.simpleName Marker.searchResults

/-- The type is a single search hit. -/
def Hit (t : DeclaredType) : Prop := v.hierarchy.Below t.simpleName Marker.searchResult

variable {v} {declared unwrapped entity outer inner hit : DeclaredType} {domain override : Option DeclaredType}

/-- The shape is that of the type inside. -/
theorem hasShape_iff (h : v.Inside declared unwrapped) {shape : Shape} :
    v.HasShape declared domain override shape ↔ FirstCase (v.kinds declared unwrapped
      (v.effectiveDomain domain (override.getD (v.elementType unwrapped)))) shape := by
  rw [classify_iff, HasShape, resolve_of_inside h, Except.toOption, Option.map_some, Option.some.injEq]

/-- A search is no chunk, since chunks come first. -/
theorem firstCase_search_iff :
    FirstCase (v.kinds declared unwrapped entity) .search ↔ ¬v.Chunk unwrapped ∧ v.Searches declared unwrapped := by
  unfold kinds Chunk
  simp [firstCase_cons, and_assoc]

/-- What is neither a chunk nor a search nor a stream is a collection or a single value. -/
theorem firstCase_plain (hchunk : ¬v.Chunk unwrapped) (hsearch : ¬v.Searches declared unwrapped)
    (hstream : ¬v.hierarchy.Below unwrapped.simpleName Marker.stream) :
    FirstCase (v.kinds declared unwrapped entity) .collection ∨ FirstCase (v.kinds declared unwrapped entity) .single := by
  obtain ⟨hpage, hslice, hwindow⟩ : ¬_ ∧ ¬_ ∧ ¬_ := by simpa only [Chunk, not_or] using hchunk
  by_cases hbulk : v.Bulk declared unwrapped entity
  · exact .inl (.later hpage (.later hslice (.later hwindow (.later hsearch (.later hstream (.here hbulk))))))
  · refine .inr (.later hpage (.later hslice (.later hwindow (.later hsearch (.later hstream ?_)))))
    exact .later hbulk (.here trivial)

/-! ## Searches in wrappers -/

/-- Behind a wrapper for one value, hits are a search exactly in a container. -/
theorem searches_of_single (hsingle : ¬v.MultiValued outer) (hfirst : inner.firstArg? = some hit) (hhit : v.Hit hit) :
    v.Searches outer inner ↔ v.Container inner := by
  unfold Searches Container
  constructor
  · rintro (hresults | ⟨hcoll | hstream, -⟩ | ⟨-, -, hmulti, -⟩)
    · exact .inr (.inr hresults)
    · exact .inl hcoll
    · exact .inr (.inl hstream)
    · exact absurd hmulti hsingle
  · rintro (hcoll | hstream | hresults)
    · exact .inr (.inl ⟨.inl hcoll, hit, hfirst, hhit⟩)
    · exact .inr (.inl ⟨.inr hstream, hit, hfirst, hhit⟩)
    · exact .inl hresults

/-- A hit in a multi-valued wrapper is a search, unless it is itself a collection or stream of something else. -/
theorem searches_of_multi (hmulti : v.MultiValued declared) (hhit : v.Hit hit) :
    v.Searches declared hit ↔ v.hierarchy.Below hit.simpleName Marker.searchResults ∨
      (v.hierarchy.CollectionLike hit ∨ v.hierarchy.Below hit.simpleName Marker.stream →
        ∃ first, hit.firstArg? = some first ∧ v.Hit first) := by
  unfold Searches
  refine or_congr_right ?_
  by_cases hholds : v.hierarchy.CollectionLike hit ∨ v.hierarchy.Below hit.simpleName Marker.stream
  · constructor
    · rintro (⟨-, hfirst⟩ | ⟨hcoll, hstream, -⟩)
      · exact fun _ => hfirst
      · exact absurd hholds (not_or.2 ⟨hcoll, hstream⟩)
    · exact fun h => .inl ⟨hholds, h hholds⟩
  · obtain ⟨hcoll, hstream⟩ := not_or.1 hholds
    exact iff_of_true (.inr ⟨hcoll, hstream, hmulti, hhit⟩) fun h => absurd h hholds

variable (v) in
/-- **Wrappers for one value keep searches:** around a multi-valued wrapper of search hits that is a search, there is a
    search still. -/
def KeepsSearches : Prop :=
  ∀ outer inner hit : DeclaredType, v.SingleValued outer → outer.firstArg? = some inner → v.MultiValued inner →
    inner.firstArg? = some hit → v.Hit hit → ∀ domain override,
      v.HasShape inner domain override .search → v.HasShape outer domain override .search

/-- A publisher of search hits, -/
def publishedHits : DeclaredType := .generic "Flux" [.generic "SearchResult" [.named "User"]]

/-- and a future of it. -/
def futureHits : DeclaredType := .generic "Future" [publishedHits]

/-- **The built-in vocabulary loses searches:** published search hits are a search, but a future of them is a mere
    collection. -/
theorem builtin_loses_searches : ¬builtin.KeepsSearches := by
  intro h
  have hsingle : builtin.SingleValued futureHits := ⟨⟨.async, true⟩, by decide +kernel, rfl⟩
  have hmulti : builtin.MultiValued publishedHits := ⟨⟨.reactive, false⟩, by decide +kernel, rfl⟩
  have hhit : builtin.Hit (.generic "SearchResult" [.named "User"]) := Hierarchy.isBelow_iff.1 (by decide +kernel)
  have hsearch : builtin.HasShape publishedHits (some (.named "User")) none .search := by decide +kernel
  have hlost : ¬builtin.HasShape futureHits (some (.named "User")) none .search := by decide +kernel
  exact hlost (h futureHits publishedHits _ hsingle rfl hmulti rfl hhit _ none hsearch)

/-- **Which search hits in two wrappers are searches.** Let a wrapper for one value hold a multi-valued wrapper of search
    hits. The one inside is a search unless its hits are chunks, or collections or streams of something else. The whole
    is a search exactly if the hierarchy knows the wrapper inside as a container and not as a chunk. If it knows it as
    neither, the whole is a collection or a single value, whatever the vocabulary, the entity type and the known element
    type are. -/
theorem nestedHits_shapes (hsingle : v.SingleValued outer) (hinner : outer.firstArg? = some inner)
    (hmulti : v.MultiValued inner) (hfirst : inner.firstArg? = some hit) (hhit : v.Hit hit)
    (domain override : Option DeclaredType) :
    (v.HasShape inner domain override .search ↔
      ¬v.Chunk hit ∧ (v.hierarchy.Below hit.simpleName Marker.searchResults ∨
        (v.hierarchy.CollectionLike hit ∨ v.hierarchy.Below hit.simpleName Marker.stream →
          ∃ first, hit.firstArg? = some first ∧ v.Hit first))) ∧
    (v.HasShape outer domain override .search ↔ ¬v.Chunk inner ∧ v.Container inner) ∧
    (¬v.Chunk inner → ¬v.Container inner →
      v.HasShape outer domain override .collection ∨ v.HasShape outer domain override .single) := by
  have hinside : v.Inside inner hit := .inl ⟨hmulti.registered, hfirst⟩
  have houtside : v.Inside outer inner := .inl ⟨hsingle.registered, hinner⟩
  have hsearches : v.Searches outer inner ↔ v.Container inner :=
    searches_of_single hsingle.not_multiValued hfirst hhit
  refine ⟨?_, ?_, fun hchunk hcontainer => ?_⟩
  · rw [hasShape_iff hinside, firstCase_search_iff, searches_of_multi hmulti hhit]
  · rw [hasShape_iff houtside, firstCase_search_iff, hsearches]
  · rw [hasShape_iff houtside, hasShape_iff houtside]
    refine firstCase_plain hchunk (mt hsearches.1 hcontainer) fun hstream => hcontainer ?_
    exact .inr (.inl hstream)

/-- Optional streamable search hits: the hierarchy knows the wrapper inside, -/
def optionalHits : DeclaredType := .generic "Option" [.generic "Streamable" [.generic "SearchResult" [.named "User"]]]

/-- so the whole is a search, as what is inside is. -/
theorem nestedHits_shapes_streamable : ∃ inner hit : DeclaredType,
    builtin.SingleValued optionalHits ∧ optionalHits.firstArg? = some inner ∧ builtin.MultiValued inner ∧
    inner.firstArg? = some hit ∧ builtin.Hit hit ∧
    builtin.HasShape inner (some (.named "User")) none .search ∧
    builtin.HasShape optionalHits (some (.named "User")) none .search := by
  have hsingle : builtin.SingleValued optionalHits := ⟨⟨.optional, true⟩, by decide +kernel, rfl⟩
  have hmulti : builtin.MultiValued (.generic "Streamable" [.generic "SearchResult" [.named "User"]]) :=
    ⟨⟨.sequence, false⟩, by decide +kernel, rfl⟩
  have hhit : builtin.Hit (.generic "SearchResult" [.named "User"]) := Hierarchy.isBelow_iff.1 (by decide +kernel)
  obtain ⟨hinside, hwhole, -⟩ := nestedHits_shapes hsingle rfl hmulti rfl hhit (some (.named "User")) none
  refine ⟨_, _, hsingle, rfl, hmulti, rfl, hhit, hinside.2 ?_, hwhole.2 ?_⟩
  · have hchunk : ¬builtin.Chunk (.generic "SearchResult" [.named "User"]) := by unfold Chunk; decide +kernel
    refine ⟨hchunk, .inr fun hholds => absurd hholds ?_⟩
    unfold Hierarchy.CollectionLike
    decide +kernel
  · unfold Chunk Container Hierarchy.CollectionLike
    decide +kernel

end QueryContract.Vocabulary

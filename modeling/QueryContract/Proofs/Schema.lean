import Mathlib
import QueryContract.Proofs.DistinctKeys
import QueryContract.Settings

/-!
# `Proofs.Schema` — settings documents that are accepted

A settings document is accepted exactly if it has the form that is asked for: three keys at the top, each of which may
be missing, and three keys in each table that describes a wrapper, none of which may. Nothing else is let through, and
what is let through says one thing only.

* `Conforms`                     — the form that is asked for;
* `PlainWrappers`                — wrappers described by tables, their delivery not by a table of its own;
* `EntrySays`, `Describes`       — the settings that entries say;
* `foldr_insertEntry_eq_iff`     — entries have one ascending order;
* `wrapper?_table_iff`, `subtypes?_table_iff` — reading accepts exactly what is written for a wrapper, and for subtypes;
* `ofEntries?_eq_some_iff`       — reading gives exactly what the entries say;
* `exists_describes_iff`         — entries say something exactly if they have the form;
* `ofText?_conforms`             — the main statement.
-/

namespace QueryContract

/-! ## Readers of many values -/

section

variable {α β : Type} {f : α → Option β} {as : List α}

/-- Many are read as the values that each of them is read as. -/
theorem mapM_eq_some_iff {r : α → β → Prop} {bs : List β} (h : ∀ a ∈ as, ∀ b, f a = some b ↔ r a b) :
    as.mapM f = some bs ↔ List.Forall₂ r as bs := by
  induction as generalizing bs with
  | nil =>
      rw [List.mapM_nil, List.forall₂_nil_left_iff]
      exact ⟨fun h => (Option.some.inj h).symm, fun h => congrArg some h.symm⟩
  | cons a as ih =>
      obtain ⟨ha, has⟩ := List.forall_mem_cons.1 h
      rw [List.mapM_cons, List.forall₂_cons_left_iff]
      constructor
      · intro h
        obtain ⟨b, hb, h⟩ := Option.bind_eq_some_iff.1 h
        obtain ⟨rest, hrest, h⟩ := Option.bind_eq_some_iff.1 h
        exact ⟨b, rest, (ha b).1 hb, (ih has).1 hrest, (Option.some.inj h).symm⟩
      · rintro ⟨b, rest, hb, hrest, rfl⟩
        rw [(ha b).2 hb, (ih has).2 hrest]
        rfl

/-- Each has a partner in a list of partners if each has one at all. -/
theorem exists_forall₂_iff {r : α → β → Prop} : (∃ bs, List.Forall₂ r as bs) ↔ ∀ a ∈ as, ∃ b, r a b := by
  induction as with
  | nil => exact iff_of_true ⟨[], .nil⟩ nofun
  | cons a as ih =>
      rw [List.forall_mem_cons, ← ih]
      simp only [List.forall₂_cons_left_iff]
      constructor
      · rintro ⟨_, b, rest, hb, hrest, rfl⟩
        exact ⟨⟨b, hb⟩, rest, hrest⟩
      · rintro ⟨⟨b, hb⟩, rest, hrest⟩
        exact ⟨b :: rest, b, rest, hb, hrest, rfl⟩

end

theorem Delivery.ofText?_eq_some_iff {name : String} {d : Delivery} : ofText? name = some d ↔ name = d.text := by
  constructor
  · intro h
    have hname := List.find?_some h
    exact (of_decide_eq_true hname).symm
  · rintro rfl
    exact ofText?_text d

/-- The four names of kinds of delivery. -/
theorem Delivery.mem_names_iff {name : String} :
    name ∈ ["optional", "async", "reactive", "sequence"] ↔ ∃ d : Delivery, name = d.text := by
  constructor
  · intro h
    obtain ⟨d, -, hd⟩ := List.mem_map.1 (show name ∈ all.map text from h)
    exact ⟨d, hd.symm⟩
  · rintro ⟨d, rfl⟩
    exact List.mem_map_of_mem (f := text) (show d ∈ all by cases d <;> decide)

namespace Settings

/-! ## The form of a document -/

/-- A table that describes a wrapper: it has exactly the three keys, with a string, the name of a kind of delivery and a
    boolean. -/
def IsWrapperTable (v : Value) : Prop :=
  ∃ fields name kind single, v = .table fields ∧
    fields.Perm [("name", .string name), ("kind", .string kind), ("single_valued", .boolean single)] ∧
    kind ∈ ["optional", "async", "reactive", "sequence"]

/-- **The form that is asked for.** -/
structure Conforms (entries : List (String × Value)) : Prop where
  /-- There are no other keys than these three. -/
  known : ∀ entry ∈ entries, entry.1 ∈ ["include_defaults", "wrappers", "subtypes"]
  /-- Whether to start from the built-in vocabulary is a boolean. -/
  includeDefaults : ∀ v, ("include_defaults", v) ∈ entries → ∃ b, v = .boolean b
  /-- The wrappers are an array of tables that describe a wrapper each. -/
  wrappers : ∀ v, ("wrappers", v) ∈ entries → ∃ items, v = .array items ∧ ∀ item ∈ items, IsWrapperTable item
  /-- The subtypes are a table of arrays of strings. -/
  subtypes : ∀ v, ("subtypes", v) ∈ entries →
    ∃ table, v = .table table ∧ ∀ entry ∈ table, ∃ names : List String, entry.2 = .array (names.map .string)

/-- A table under whose key `kind` no other table stands. -/
def PlainTable (item : Value) : Prop := ∃ fields, item = .table fields ∧ ∀ content, ("kind", .table content) ∉ fields

/-- The wrappers, if they are an array, are described by tables, and their delivery is not described by a table. -/
def PlainWrappers (entries : List (String × Value)) : Prop :=
  ∀ items, ("wrappers", .array items) ∈ entries → ∀ item ∈ items, PlainTable item

/-! ## What a document says -/

/-- What is written for a wrapper. -/
def wrapperFields (w : String × Wrapper) : List (String × Value) :=
  [("name", .string w.1), ("kind", .string w.2.delivery.text), ("single_valued", .boolean w.2.singleValued)]

/-- What is written for the supertypes of a name. -/
def supertypesField (entry : String × List String) : String × Value := (entry.1, .array (entry.2.map .string))

/-- What the entry under a key says, or what is meant if there is none. -/
inductive EntrySays {α : Type} (key : String) (absent : α) (means : Value → α → Prop)
    (entries : List (String × Value)) : α → Prop
  | absent : (∀ v, (key, v) ∉ entries) → EntrySays key absent means entries absent
  | present {v : Value} {x : α} : (key, v) ∈ entries → means v x → EntrySays key absent means entries x

/-- The value is a table of what is written for the wrapper, in any order. -/
def SaysWrapper (item : Value) (w : String × Wrapper) : Prop :=
  ∃ fields, item = .table fields ∧ fields.Perm (wrapperFields w)

/-- The value is an array of the wrappers, one table for each and in their order. -/
def SaysWrappers (v : Value) (ws : List (String × Wrapper)) : Prop :=
  ∃ items, v = .array items ∧ List.Forall₂ SaysWrapper items ws

/-- Every key comes after those before it. -/
def Ascending {α : Type} (entries : List (String × α)) : Prop := entries.Pairwise (·.1 < ·.1)

/-- The value is a table of the subtypes, each with its supertypes in their order; the subtypes themselves are ordered
    by name. -/
def SaysSubtypes (v : Value) (subtypes : List (String × List String)) : Prop :=
  ∃ table, v = .table table ∧ table.Perm (subtypes.map supertypesField) ∧ Ascending subtypes

/-- **The entries say these settings and nothing else.** -/
structure Describes (entries : List (String × Value)) (s : Settings) : Prop where
  known : ∀ entry ∈ entries, entry.1 ∈ ["include_defaults", "wrappers", "subtypes"]
  includeDefaults : EntrySays "include_defaults" true (fun v b => v = .boolean b) entries s.includeDefaults
  wrappers : EntrySays "wrappers" [] SaysWrappers entries s.wrappers
  subtypes : EntrySays "subtypes" [] SaysSubtypes entries s.subtypes

/-! ## Entries -/

namespace Distinct

variable {α : Type} {entries entries' : List (String × α)}

theorem nodup (h : Distinct entries) : entries.Nodup := List.Nodup.of_map Prod.fst h

/-- Entries are as others are, up to their order, if they have no other keys and lack none of the others. -/
theorem perm_of_subset (h : Distinct entries) (h' : Distinct entries')
    (hkeys : entries.map Prod.fst ⊆ entries'.map Prod.fst) (hsub : entries' ⊆ entries) : entries.Perm entries' := by
  refine (List.perm_ext_iff_of_nodup h.nodup h'.nodup).2 fun entry => ⟨fun hentry => ?_, fun hentry => hsub hentry⟩
  obtain ⟨other, hother, hkey⟩ := List.mem_map.1 (hkeys (List.mem_map_of_mem hentry))
  -- The value that stands under the key on the other side stands there on this side too.
  have hsame : (entry.1, other.2) ∈ entries := hkey ▸ hsub hother
  obtain rfl : other = entry := Prod.ext hkey (h.value_unique hsame hentry)
  exact hother

end Distinct

section

variable {α : Type} {entry : String × α} {entries entries' : List (String × α)}

theorem perm_insertEntry (entry : String × α) (entries : List (String × α)) :
    (insertEntry entry entries).Perm (entry :: entries) := by
  induction entries with
  | nil => rfl
  | cons other rest ih =>
      rw [insertEntry]
      split
      · rfl
      · exact (ih.cons other).trans (.swap entry other rest)

/-- A new key is put in its place. -/
theorem ascending_insertEntry (hnew : ∀ other ∈ entries, other.1 ≠ entry.1) (h : Ascending entries) :
    Ascending (insertEntry entry entries) := by
  induction entries with
  | nil => exact List.pairwise_singleton _ entry
  | cons other rest ih =>
      obtain ⟨hother, hrest⟩ := List.pairwise_cons.1 h
      rw [insertEntry]
      split
      · next hlt => exact h.cons (List.forall_mem_cons.2 ⟨hlt, fun x hx => String.lt_trans hlt (hother x hx)⟩)
      · next hle =>
          -- The keys differ, so the one that is not less is greater.
          have hlt : other.1 < entry.1 := by
            refine Decidable.byContradiction fun hge => ?_
            exact hnew other List.mem_cons_self (String.le_antisymm (String.not_lt.1 hle) (String.not_lt.1 hge))
          refine (ih (fun x hx => hnew x (List.mem_cons_of_mem _ hx)) hrest).cons fun x hx => ?_
          obtain rfl | hx := List.mem_cons.1 ((perm_insertEntry entry rest).subset hx)
          · exact hlt
          · exact hother x hx

theorem perm_foldr_insertEntry (entries : List (String × α)) : (entries.foldr insertEntry []).Perm entries := by
  induction entries with
  | nil => rfl
  | cons entry rest ih => exact (perm_insertEntry entry _).trans (ih.cons entry)

theorem ascending_foldr_insertEntry (h : Distinct entries) : Ascending (entries.foldr insertEntry []) := by
  induction entries with
  | nil => exact .nil
  | cons entry rest ih =>
      obtain ⟨hentry, hrest⟩ := List.nodup_cons.1 h
      refine ascending_insertEntry (fun other hother hkey => hentry ?_) (ih hrest)
      exact hkey ▸ List.mem_map_of_mem ((perm_foldr_insertEntry rest).subset hother)

/-- **Entries can be put in order in one way only.** -/
theorem foldr_insertEntry_eq_iff (h : Distinct entries) :
    entries.foldr insertEntry [] = entries' ↔ entries.Perm entries' ∧ Ascending entries' := by
  constructor
  · rintro rfl
    exact ⟨(perm_foldr_insertEntry entries).symm, ascending_foldr_insertEntry h⟩
  · rintro ⟨hperm, hascending⟩
    refine List.Perm.eq_of_pairwise (fun x y _ _ hxy hyx => ?_) (ascending_foldr_insertEntry h) hascending
      ((perm_foldr_insertEntry entries).trans hperm)
    exact absurd hyx (String.lt_asymm hxy)

/-! ## Keys that may be missing -/

variable {key : String} {absent x : α} {read : Value → Option α} {fields : List (String × Value)}

/-- An entry is read as what it says. -/
theorem entryOr_eq_some_iff {means : Value → α → Prop} (hdistinct : Distinct fields)
    (hread : ∀ v, (key, v) ∈ fields → (read v = some x ↔ means v x)) :
    entryOr absent read key fields = some x ↔ EntrySays key absent means fields x := by
  unfold entryOr
  split
  · next hnone =>
      have hmissing : ∀ v, (key, v) ∉ fields := fun v hv => lookup_eq_none_iff.1 hnone (List.mem_map_of_mem hv)
      constructor
      · rintro ⟨⟩
        exact .absent hmissing
      · rintro (_ | ⟨hv, -⟩)
        · rfl
        · exact absurd hv (hmissing _)
  · next v hsome =>
      have hv := hdistinct.lookup_eq_some_iff.1 hsome
      rw [hread v hv]
      constructor
      · exact .present hv
      · rintro (hmissing | ⟨hv', hmeans⟩)
        · exact absurd hv (hmissing v)
        · obtain rfl := hdistinct.value_unique hv hv'
          exact hmeans

/-- Something is said unless an entry is there that says nothing. -/
theorem exists_entrySays_iff {means : Value → α → Prop} (hdistinct : Distinct fields) :
    (∃ x, EntrySays key absent means fields x) ↔ ∀ v, (key, v) ∈ fields → ∃ x, means v x := by
  constructor
  · rintro ⟨x, hmissing | ⟨hv, hmeans⟩⟩ v' hv'
    · exact absurd hv' (hmissing v')
    · obtain rfl := hdistinct.value_unique hv hv'
      exact ⟨x, hmeans⟩
  · intro h
    cases hlookup : fields.lookup key with
    | none => exact ⟨absent, .absent fun v hv => lookup_eq_none_iff.1 hlookup (List.mem_map_of_mem hv)⟩
    | some v =>
        have hv := hdistinct.lookup_eq_some_iff.1 hlookup
        obtain ⟨x, hx⟩ := h v hv
        exact ⟨x, .present hv hx⟩

end

/-! ## Scalars and arrays -/

theorem string?_eq_some_iff {v : Value} {s : String} : string? v = some s ↔ v = .string s := by
  cases v <;> simp [string?]

theorem boolean?_eq_some_iff {v : Value} {b : Bool} : boolean? v = some b ↔ v = .boolean b := by
  cases v <;> simp [boolean?]

/-- The delivery of a wrapper is one of the four names, if it is no table. -/
theorem delivery?_eq_some_iff {v : Value} (hplain : ∀ content, v ≠ .table content) {d : Delivery} :
    delivery? v = some d ↔ v = .string d.text := by
  cases v with
  | string name => rw [delivery?, Delivery.ofText?_eq_some_iff, Value.string.injEq]
  | table content => exact absurd rfl (hplain content)
  | _ => exact iff_of_false nofun nofun

theorem strings?_eq_some_iff {v : Value} {names : List String} :
    strings? v = some names ↔ v = .array (names.map .string) := by
  cases v with
  | array items =>
      rw [strings?, mapM_eq_some_iff fun _ _ _ => string?_eq_some_iff, Value.array.injEq, ← List.forall₂_map_right_iff,
        List.forall₂_eq_eq_eq]
  | _ => exact iff_of_false nofun nofun

theorem onlyKeys_iff {known : List String} {entries : List (String × Value)} :
    onlyKeys known entries = true ↔ ∀ entry ∈ entries, entry.1 ∈ known := by
  unfold onlyKeys
  simp only [List.all_eq_true, List.contains_iff_mem]

/-! ## Wrappers -/

section Wrappers

variable {fields : List (String × Value)} {w : String × Wrapper}

theorem distinct_wrapperFields (w : String × Wrapper) : Distinct (wrapperFields w) := by
  unfold Distinct wrapperFields
  simp only [List.map_cons, List.map_nil]
  decide

theorem wrapperFields_subset_iff : wrapperFields w ⊆ fields ↔ ("name", .string w.1) ∈ fields ∧
    ("kind", .string w.2.delivery.text) ∈ fields ∧ ("single_valued", .boolean w.2.singleValued) ∈ fields := by
  unfold wrapperFields
  rw [List.cons_subset, List.cons_subset, List.cons_subset]
  simp only [List.nil_subset, and_true]

theorem wrapperOf?_eq_some_iff {name kind single : Value} :
    wrapperOf? name kind single = some w ↔
      string? name = some w.1 ∧ delivery? kind = some w.2.delivery ∧ boolean? single = some w.2.singleValued := by
  unfold wrapperOf?
  constructor
  · intro h
    obtain ⟨n, hn, h⟩ := Option.bind_eq_some_iff.1 h
    obtain ⟨d, hd, h⟩ := Option.bind_eq_some_iff.1 h
    obtain ⟨b, hb, h⟩ := Option.bind_eq_some_iff.1 h
    obtain rfl := Option.some.inj h
    exact ⟨hn, hd, hb⟩
  · rintro ⟨hn, hd, hb⟩
    rw [hn, hd, hb]
    rfl

/-- A table is read as a wrapper if it has no other keys than the three and all that is written for the wrapper. -/
theorem wrapper?_eq_some_iff (hdistinct : Distinct fields) (hkind : ∀ content, ("kind", .table content) ∉ fields) :
    wrapper? (.table fields) = some w ↔
      (∀ field ∈ fields, field.1 ∈ ["name", "kind", "single_valued"]) ∧ wrapperFields w ⊆ fields := by
  have hdelivery : ∀ kind, ("kind", kind) ∈ fields →
      (delivery? kind = some w.2.delivery ↔ kind = .string w.2.delivery.text) := by
    intro kind hmem
    refine delivery?_eq_some_iff fun content h => ?_
    exact hkind content (h ▸ hmem)
  rw [wrapper?, wrapperFields_subset_iff, ← onlyKeys_iff]
  constructor
  · intro h
    obtain ⟨hkeys, h⟩ := Option.ite_none_right_eq_some.1 h
    obtain ⟨name, hname, h⟩ := Option.bind_eq_some_iff.1 h
    obtain ⟨kind, hkindOf, h⟩ := Option.bind_eq_some_iff.1 h
    obtain ⟨single, hsingle, h⟩ := Option.bind_eq_some_iff.1 h
    rw [hdistinct.lookup_eq_some_iff] at hname hkindOf hsingle
    obtain ⟨hn, hd, hb⟩ := wrapperOf?_eq_some_iff.1 h
    obtain rfl := string?_eq_some_iff.1 hn
    obtain rfl := (hdelivery kind hkindOf).1 hd
    obtain rfl := boolean?_eq_some_iff.1 hb
    exact ⟨hkeys, hname, hkindOf, hsingle⟩
  · rintro ⟨hkeys, hname, hkindOf, hsingle⟩
    have hw : wrapperOf? (.string w.1) (.string w.2.delivery.text) (.boolean w.2.singleValued) = some w :=
      wrapperOf?_eq_some_iff.2 ⟨rfl, (hdelivery _ hkindOf).2 rfl, rfl⟩
    rw [if_pos hkeys, hdistinct.lookup_eq_some_iff.2 hname, hdistinct.lookup_eq_some_iff.2 hkindOf,
      hdistinct.lookup_eq_some_iff.2 hsingle]
    exact hw

/-- **A table is read as a wrapper exactly if it is what is written for it,** in any order. -/
theorem wrapper?_table_iff (hdistinct : Distinct fields) (hkind : ∀ content, ("kind", .table content) ∉ fields) :
    wrapper? (.table fields) = some w ↔ fields.Perm (wrapperFields w) := by
  rw [wrapper?_eq_some_iff hdistinct hkind]
  constructor
  · rintro ⟨hkeys, hwritten⟩
    refine hdistinct.perm_of_subset (distinct_wrapperFields w) ?_ hwritten
    exact List.forall_mem_map.2 hkeys
  · intro h
    exact ⟨fun field hfield => List.mem_map_of_mem (h.subset hfield), h.symm.subset⟩

variable {item v : Value} {ws : List (String × Wrapper)}

theorem wrapper?_iff_says (hitem : item.Unambiguous) (hplain : PlainTable item) :
    wrapper? item = some w ↔ SaysWrapper item w := by
  obtain ⟨fields, rfl, hkind⟩ := hplain
  cases hitem with
  | table hdistinct _ =>
      rw [wrapper?_table_iff hdistinct hkind]
      exact ⟨fun h => ⟨fields, rfl, h⟩, fun ⟨_, rfl, h⟩ => h⟩

/-- Some wrapper is described if the form is right. -/
theorem exists_saysWrapper_iff : (∃ w, SaysWrapper item w) ↔ IsWrapperTable item := by
  constructor
  · rintro ⟨w, fields, rfl, hfields⟩
    exact ⟨fields, w.1, w.2.delivery.text, w.2.singleValued, rfl, hfields, Delivery.mem_names_iff.2 ⟨_, rfl⟩⟩
  · rintro ⟨fields, name, kind, single, rfl, hfields, hkind⟩
    obtain ⟨d, rfl⟩ := Delivery.mem_names_iff.1 hkind
    exact ⟨(name, ⟨d, single⟩), fields, rfl, hfields⟩

/-- Wrappers are read as what their tables say, in their order. -/
theorem wrappers?_iff_says (hv : v.Unambiguous) (hplain : ∀ items, v = .array items → ∀ item ∈ items, PlainTable item) :
    wrappers? v = some ws ↔ SaysWrappers v ws := by
  cases hv with
  | array hitems =>
      rw [wrappers?, mapM_eq_some_iff fun item h _ => wrapper?_iff_says (hitems item h) (hplain _ rfl item h)]
      exact ⟨fun h => ⟨_, rfl, h⟩, fun ⟨_, hitems, h⟩ => Value.array.inj hitems ▸ h⟩
  | _ => exact iff_of_false nofun nofun

theorem exists_saysWrappers_iff :
    (∃ ws, SaysWrappers v ws) ↔ ∃ items, v = .array items ∧ ∀ item ∈ items, IsWrapperTable item := by
  unfold SaysWrappers
  rw [exists_comm]
  simp only [exists_and_left, exists_forall₂_iff, exists_saysWrapper_iff]

end Wrappers

/-! ## Subtypes -/

section Subtypes

variable {v : Value} {table : List (String × Value)} {declared subtypes : List (String × List String)}

/-- A field is read as the supertypes of its key. -/
theorem supertypes_eq_some_iff {entry : String × Value} {declared : String × List String} :
    (strings? entry.2).map (fun sups => (entry.1, sups)) = some declared ↔ entry = supertypesField declared := by
  rw [Option.map_eq_some_iff]
  simp only [strings?_eq_some_iff]
  constructor
  · rintro ⟨names, hnames, rfl⟩
    exact Prod.ext rfl hnames
  · rintro rfl
    exact ⟨declared.2, rfl, rfl⟩

theorem forall₂_supertypesField :
    List.Forall₂ (fun entry declared => entry = supertypesField declared) table declared ↔
      table = declared.map supertypesField := by
  rw [← List.forall₂_map_right_iff, List.forall₂_eq_eq_eq]

/-- What is written in any order has been written in some order. -/
theorem exists_map_supertypesField (h : table.Perm (subtypes.map supertypesField)) :
    ∃ declared : List (String × List String), table = declared.map supertypesField ∧ declared.Perm subtypes := by
  obtain ⟨declared, htable, hperm⟩ := List.perm_comp_forall₂ h (forall₂_supertypesField.2 rfl)
  exact ⟨declared, forall₂_supertypesField.1 htable, hperm⟩

theorem distinct_of_map_supertypesField (h : Distinct (declared.map supertypesField)) : Distinct declared := by
  unfold Distinct at h ⊢
  rw [List.map_map] at h
  exact h

/-- **A table is read as subtypes exactly if it is what is written for them,** in any order. -/
theorem subtypes?_table_iff (hdistinct : Distinct table) :
    subtypes? (.table table) = some subtypes ↔ table.Perm (subtypes.map supertypesField) ∧ Ascending subtypes := by
  have hread : subtypes? (.table table) = some subtypes ↔
      ∃ declared : List (String × List String),
        table = declared.map supertypesField ∧ declared.foldr insertEntry [] = subtypes := by
    rw [subtypes?, bind_pure_comp, Option.map_eq_map, Option.map_eq_some_iff]
    simp only [mapM_eq_some_iff fun _ _ _ => supertypes_eq_some_iff, forall₂_supertypesField]
  rw [hread]
  -- `declared` is in the order of the document, `subtypes` in that of the names.
  constructor
  · rintro ⟨declared, rfl, hsorted⟩
    obtain ⟨hperm, hascending⟩ := (foldr_insertEntry_eq_iff (distinct_of_map_supertypesField hdistinct)).1 hsorted
    exact ⟨hperm.map supertypesField, hascending⟩
  · rintro ⟨hwritten, hascending⟩
    obtain ⟨declared, rfl, hperm⟩ := exists_map_supertypesField hwritten
    exact ⟨declared, rfl, (foldr_insertEntry_eq_iff (distinct_of_map_supertypesField hdistinct)).2 ⟨hperm, hascending⟩⟩

theorem subtypes?_iff_says (hv : v.Unambiguous) : subtypes? v = some subtypes ↔ SaysSubtypes v subtypes := by
  cases hv with
  | table hdistinct _ =>
      rw [subtypes?_table_iff hdistinct]
      exact ⟨fun h => ⟨_, rfl, h⟩, fun ⟨_, htable, h⟩ => Value.table.inj htable ▸ h⟩
  | _ => exact iff_of_false nofun nofun

/-- Some subtypes are described by a table of arrays of strings; which come first does not matter. -/
theorem exists_saysSubtypes_iff (hv : v.Unambiguous) :
    (∃ subtypes, SaysSubtypes v subtypes) ↔
      ∃ table, v = .table table ∧ ∀ entry ∈ table, ∃ names : List String, entry.2 = .array (names.map .string) := by
  constructor
  · rintro ⟨subtypes, table, rfl, hwritten, -⟩
    refine ⟨table, rfl, fun entry hentry => ?_⟩
    obtain ⟨declared, -, rfl⟩ := List.mem_map.1 (hwritten.subset hentry)
    exact ⟨declared.2, rfl⟩
  · rintro ⟨table, rfl, hnames⟩
    obtain ⟨declared, hdeclared⟩ : ∃ declared, table = List.map supertypesField declared := by
      simp only [← forall₂_supertypesField]
      refine exists_forall₂_iff.2 fun entry hentry => ?_
      obtain ⟨names, h⟩ := hnames entry hentry
      exact ⟨(entry.1, names), Prod.ext rfl h⟩
    cases hv with
    | table hdistinct _ =>
        subst hdeclared
        obtain ⟨hperm, hascending⟩ := (foldr_insertEntry_eq_iff (distinct_of_map_supertypesField hdistinct)).1 rfl
        exact ⟨_, _, rfl, hperm.map supertypesField, hascending⟩

end Subtypes

/-! ## Documents -/

section Documents

variable {entries : List (String × Value)} {s : Settings}

theorem ofEntries?_eq_some_iff_reads :
    ofEntries? entries = some s ↔
      (∀ entry ∈ entries, entry.1 ∈ ["include_defaults", "wrappers", "subtypes"]) ∧
      entryOr true boolean? "include_defaults" entries = some s.includeDefaults ∧
      entryOr [] wrappers? "wrappers" entries = some s.wrappers ∧
      entryOr [] subtypes? "subtypes" entries = some s.subtypes := by
  rw [ofEntries?, Option.ite_none_right_eq_some, onlyKeys_iff]
  refine and_congr_right fun _ => ?_
  constructor
  · intro h
    obtain ⟨includeDefaults, hincludeDefaults, h⟩ := Option.bind_eq_some_iff.1 h
    obtain ⟨wrappers, hwrappers, h⟩ := Option.bind_eq_some_iff.1 h
    obtain ⟨subtypes, hsubtypes, h⟩ := Option.bind_eq_some_iff.1 h
    obtain rfl := Option.some.inj h
    exact ⟨hincludeDefaults, hwrappers, hsubtypes⟩
  · rintro ⟨hincludeDefaults, hwrappers, hsubtypes⟩
    rw [hincludeDefaults, hwrappers, hsubtypes]
    rfl

/-- **Reading gives exactly what the entries say.** -/
theorem ofEntries?_eq_some_iff (hentries : (Value.table entries).Unambiguous) (hplain : PlainWrappers entries) :
    ofEntries? entries = some s ↔ Describes entries s := by
  cases hentries with
  | table hdistinct hvalues =>
      -- The three keys are read independently of one another.
      have hincludeDefaults : entryOr true boolean? "include_defaults" entries = some s.includeDefaults ↔
          EntrySays "include_defaults" true (fun v b => v = .boolean b) entries s.includeDefaults :=
        entryOr_eq_some_iff hdistinct fun _ _ => boolean?_eq_some_iff
      have hwrappers : entryOr [] wrappers? "wrappers" entries = some s.wrappers ↔
          EntrySays "wrappers" [] SaysWrappers entries s.wrappers :=
        entryOr_eq_some_iff hdistinct fun v hv =>
          wrappers?_iff_says (hvalues _ hv) fun items hitems => hplain items (hitems ▸ hv)
      have hsubtypes : entryOr [] subtypes? "subtypes" entries = some s.subtypes ↔
          EntrySays "subtypes" [] SaysSubtypes entries s.subtypes :=
        entryOr_eq_some_iff hdistinct fun v hv => subtypes?_iff_says (hvalues _ hv)
      rw [ofEntries?_eq_some_iff_reads, hincludeDefaults, hwrappers, hsubtypes]
      exact ⟨fun ⟨h, hb, hws, hsubs⟩ => ⟨h, hb, hws, hsubs⟩, fun ⟨h, hb, hws, hsubs⟩ => ⟨h, hb, hws, hsubs⟩⟩

/-- Entries say something exactly if they have the form that is asked for. -/
theorem exists_describes_iff (hentries : (Value.table entries).Unambiguous) :
    (∃ s, Describes entries s) ↔ Conforms entries := by
  cases hentries with
  | table hdistinct hvalues =>
      constructor
      · rintro ⟨s, hs⟩
        refine ⟨hs.known, (exists_entrySays_iff hdistinct).1 ⟨_, hs.includeDefaults⟩, fun v hv => ?_, fun v hv => ?_⟩
        · exact exists_saysWrappers_iff.1 ((exists_entrySays_iff hdistinct).1 ⟨_, hs.wrappers⟩ v hv)
        · exact (exists_saysSubtypes_iff (hvalues _ hv)).1 ((exists_entrySays_iff hdistinct).1 ⟨_, hs.subtypes⟩ v hv)
      · rintro ⟨hknown, hincludeDefaults, hwrappers, hsubtypes⟩
        obtain ⟨includeDefaults, hb⟩ := (exists_entrySays_iff hdistinct).2 hincludeDefaults
        obtain ⟨wrappers, hws⟩ := (exists_entrySays_iff hdistinct).2 fun v hv =>
          exists_saysWrappers_iff.2 (hwrappers v hv)
        obtain ⟨subtypes, hsubs⟩ := (exists_entrySays_iff hdistinct).2 fun v hv =>
          (exists_saysSubtypes_iff (hvalues _ hv)).2 (hsubtypes v hv)
        exact ⟨⟨includeDefaults, wrappers, subtypes⟩, hknown, hb, hws, hsubs⟩

/-- **A document is accepted exactly if it has the form that is asked for, and then as exactly what it says.** -/
theorem ofText?_conforms {source : String} (hentries : entriesOf? source = some entries)
    (hplain : PlainWrappers entries) :
    ((∃ s, ofText? source = some s) ↔ Conforms entries) ∧
      ∀ s, ofText? source = some s ↔ Describes entries s := by
  have hunambiguous := unambiguous_of_entriesOf? hentries
  have hreads : ∀ s, ofText? source = some s ↔ Describes entries s := fun s => by
    rw [ofText?, hentries, Option.bind_some, ofEntries?_eq_some_iff hunambiguous hplain]
  exact ⟨(exists_congr hreads).trans (exists_describes_iff hunambiguous), hreads⟩

/-- A document with one wrapper and one subtype. -/
def uniDocument : String :=
  "[[wrappers]]\nname = \"Uni\"\nkind = \"reactive\"\nsingle_valued = true\n\n[subtypes]\nGeoPage = [\"Page\"]\n"

/-- The table of its wrapper. -/
def uniTable : Value := .table [("name", .string "Uni"), ("kind", .string "reactive"), ("single_valued", .boolean true)]

/-- Its entries. -/
def uniEntries : List (String × Value) :=
  [("wrappers", .array [uniTable]), ("subtypes", .table [("GeoPage", .array [.string "Page"])])]

/-- Its settings. -/
def uniSettings : Settings := { wrappers := [("Uni", ⟨.reactive, true⟩)], subtypes := [("GeoPage", ["Page"])] }

theorem ofText?_conforms_uni :
    ofText? uniDocument = some uniSettings ∧ Conforms uniEntries ∧ Describes uniEntries uniSettings := by
  have hentries : entriesOf? uniDocument = some uniEntries := by cbv
  have hplain : PlainWrappers uniEntries := by
    intro items hitems item hitem
    obtain rfl : items = [uniTable] := by simpa [uniEntries] using hitems
    obtain rfl := List.mem_singleton.1 hitem
    exact ⟨_, rfl, by simp⟩
  have hread : ofText? uniDocument = some uniSettings := by cbv
  obtain ⟨hconforms, hdescribes⟩ := ofText?_conforms hentries hplain
  exact ⟨hread, hconforms.1 ⟨_, hread⟩, (hdescribes _).1 hread⟩

/-- A misspelt key is refused. -/
example : ofText? "wrapper = []" = none := by cbv

end Documents

end Settings

end QueryContract

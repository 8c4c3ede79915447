import QueryContract.Proofs.Outcomes
import QueryContract.Settings.Document

/-!
# `Proofs.DistinctKeys` — documents without ambiguity

Tables of a document grow while it is read: by assignments, by dotted keys, by headers, and by headers of series. None
of these gives a key a second value. So in the end every table of the document, at any depth, has each of its keys once,
and what stands under a key can be looked up or picked out, with the same result.

* `Distinct`, `Value.Unambiguous`   — every key of a table stands there once, and so inside its values;
* `Node.Unambiguous`, `Unambiguous` — the same of tables that may still grow;
* `unambiguous_assign`, `unambiguous_within`, `unambiguous_openTable`, `unambiguous_openSeries`
                                    — what a line does to them;
* `gives_value`                     — values that are read are unambiguous, because their inline tables are;
* `Draft.unambiguous_read`          — one line keeps it so, and
* `unambiguous_of_entriesOf?`       — so do all lines, one after the other.
-/

namespace QueryContract.Settings

open QueryContract.Parser

/-! ## Values -/

/-- No key stands in the entries twice. -/
def Distinct {α : Type} (entries : List (String × α)) : Prop := (entries.map Prod.fst).Nodup

/-- No table in the value has a key twice. -/
inductive Value.Unambiguous : Value → Prop
  | string (s : String) : (Value.string s).Unambiguous
  | boolean (b : Bool) : (Value.boolean b).Unambiguous
  | number (written : String) : (Value.number written).Unambiguous
  | moment (written : String) : (Value.moment written).Unambiguous
  | array {items : List Value} : (∀ v ∈ items, v.Unambiguous) → (Value.array items).Unambiguous
  | table {entries : List (String × Value)} :
      Distinct entries → (∀ entry ∈ entries, entry.2.Unambiguous) → (Value.table entries).Unambiguous

/-- No table of the node has a key twice, whether it may still grow or not. -/
inductive Node.Unambiguous : Node → Prop
  | final {v : Value} : v.Unambiguous → (Node.final v).Unambiguous
  | branch {origin : Origin} {entries : Entries} :
      Distinct entries → (∀ entry ∈ entries, entry.2.Unambiguous) → (Node.branch origin entries).Unambiguous
  | series {earlier : List Value} {last : Entries} :
      (∀ v ∈ earlier, v.Unambiguous) → Distinct last → (∀ entry ∈ last, entry.2.Unambiguous) →
      (Node.series earlier last).Unambiguous

/-- So it is with the entries of a growing table. -/
structure Unambiguous (es : Entries) : Prop where
  distinct : Distinct es
  nodes : ∀ entry ∈ es, entry.2.Unambiguous

/-! ## Entries -/

namespace Distinct

variable {α : Type} {entries : List (String × α)} {key : String} {x : α}

/-- Looking a key up finds the one value that stands under it. -/
theorem lookup_eq_some_iff (h : Distinct entries) : entries.lookup key = some x ↔ (key, x) ∈ entries := by
  rw [List.lookup_eq_some_iff]
  constructor
  · rintro ⟨before, after, rfl, -⟩
    exact List.mem_append_right _ List.mem_cons_self
  · intro hmem
    obtain ⟨before, after, rfl⟩ := List.append_of_mem hmem
    refine ⟨before, after, rfl, fun entry hentry => bne_iff_ne.2 fun hkey => ?_⟩
    unfold Distinct at h
    rw [List.map_append, List.map_cons, List.nodup_append] at h
    exact h.2.2 entry.1 (List.mem_map_of_mem hentry) key List.mem_cons_self hkey.symm

/-- Two values that stand under one key are the same. -/
theorem value_unique {y : α} (h : Distinct entries) (hx : (key, x) ∈ entries) (hy : (key, y) ∈ entries) : x = y :=
  Option.some.inj ((h.lookup_eq_some_iff.2 hx).symm.trans (h.lookup_eq_some_iff.2 hy))

end Distinct

theorem lookup_eq_none_iff {α : Type} {entries : List (String × α)} {key : String} :
    entries.lookup key = none ↔ key ∉ entries.map Prod.fst := by
  rw [List.lookup_eq_none_iff, List.mem_map]
  constructor
  · rintro h ⟨entry, hentry, rfl⟩
    exact absurd rfl (bne_iff_ne.1 (h entry hentry))
  · intro h entry hentry
    exact bne_iff_ne.2 fun hkey => h ⟨entry, hentry, hkey.symm⟩

variable {es es' : Entries} {key : String} {node : Node}

theorem unambiguous_nil : Unambiguous [] := ⟨List.nodup_nil, nofun⟩

namespace Node

theorem unambiguous_branch_iff {origin : Origin} : (branch origin es).Unambiguous ↔ Settings.Unambiguous es :=
  ⟨fun | .branch hdistinct hnodes => ⟨hdistinct, hnodes⟩, fun h => .branch h.distinct h.nodes⟩

theorem unambiguous_series_iff {earlier : List Value} :
    (series earlier es).Unambiguous ↔ (∀ v ∈ earlier, v.Unambiguous) ∧ Settings.Unambiguous es :=
  ⟨fun | .series hearlier hdistinct hnodes => ⟨hearlier, hdistinct, hnodes⟩, fun h => .series h.1 h.2.distinct h.2.nodes⟩

end Node

namespace Unambiguous

theorem lookup (h : Unambiguous es) (hlookup : es.lookup key = some node) : node.Unambiguous :=
  h.nodes (key, node) (h.distinct.lookup_eq_some_iff.1 hlookup)

/-- A new key. -/
theorem append (h : Unambiguous es) (hnew : es.lookup key = none) (hnode : node.Unambiguous) :
    Unambiguous (es ++ [(key, node)]) where
  distinct := by
    unfold Distinct
    rw [List.map_append, List.nodup_append]
    refine ⟨h.distinct, List.pairwise_singleton _ key, ?_⟩
    rintro x hx y hy rfl
    obtain rfl : x = key := List.mem_singleton.1 hy
    exact lookup_eq_none_iff.1 hnew hx
  nodes := List.forall_mem_append.2 ⟨h.nodes, List.forall_mem_singleton.2 hnode⟩

/-- Another value for a key. -/
theorem replace (h : Unambiguous es) (hnode : node.Unambiguous) : Unambiguous (replace key node es) where
  distinct := by
    have hkeys : (Settings.replace key node es).map Prod.fst = es.map Prod.fst := by
      rw [Settings.replace, List.map_map]
      refine List.map_congr_left fun entry _ => ?_
      show (if entry.1 = key then (key, node) else entry).1 = entry.1
      split
      · next hkey => exact hkey.symm
      · rfl
    unfold Distinct
    rw [hkeys]
    exact h.distinct
  nodes entry hentry := by
    obtain ⟨old, hold, rfl⟩ := List.mem_map.1 hentry
    split
    · exact hnode
    · exact h.nodes old hold

end Unambiguous

/-! ## Closing -/

theorem closeAll_eq_map (es : Entries) : closeAll es = es.map fun entry => (entry.1, entry.2.close) := by
  induction es with
  | nil => rfl
  | cons entry es ih =>
      obtain ⟨key, node⟩ := entry
      rw [closeAll, ih, List.map_cons]

theorem distinct_closeAll (h : Distinct es) : Distinct (closeAll es) := by
  unfold Distinct
  rw [closeAll_eq_map, List.map_map]
  exact h

/-- The values of entries, if each of them closes to one without ambiguity. -/
theorem table_closeAll (hdistinct : Distinct es) (h : ∀ entry ∈ es, entry.2.close.Unambiguous) :
    (Value.table (closeAll es)).Unambiguous := by
  refine .table (distinct_closeAll hdistinct) ?_
  rw [closeAll_eq_map]
  exact List.forall_mem_map.2 h

theorem Node.Unambiguous.close (h : node.Unambiguous) : node.close.Unambiguous := by
  induction h with
  | final hv =>
      rw [Node.close]
      exact hv
  | branch hdistinct _ ih =>
      rw [Node.close]
      exact table_closeAll hdistinct ih
  | series hearlier hdistinct _ ih =>
      rw [Node.close]
      exact .array (List.forall_mem_append.2 ⟨hearlier, List.forall_mem_singleton.2 (table_closeAll hdistinct ih)⟩)

theorem Unambiguous.table (h : Unambiguous es) : (Value.table (closeAll es)).Unambiguous :=
  table_closeAll h.distinct fun entry hentry => (h.nodes entry hentry).close

/-! ## What a line does -/

theorem unambiguous_assign {v : Value} {path : List String} (hv : v.Unambiguous) (hes : Unambiguous es)
    (h : assign v path es = some es') : Unambiguous es' := by
  -- on the keys of the path, each of which is new or that of a table made by a dotted key
  fun_induction assign v path es generalizing es' with
  | case1 es => cases h
  | case2 es key hnew =>
      cases h
      exact hes.append hnew (.final hv)
  | case3 es key node hknown => cases h
  | case4 es key more hmore hnew ih =>
      obtain ⟨sub, hsub, rfl⟩ := Option.map_eq_some_iff.1 h
      exact hes.append hnew (Node.unambiguous_branch_iff.2 (ih unambiguous_nil hsub))
  | case5 es key more hmore old hold ih =>
      obtain ⟨sub, hsub, rfl⟩ := Option.map_eq_some_iff.1 h
      have hinner := Node.unambiguous_branch_iff.1 (hes.lookup hold)
      exact hes.replace (Node.unambiguous_branch_iff.2 (ih hinner hsub))
  | case6 es key more hmore node hknown hother => cases h

/-- A change that makes nothing ambiguous makes nothing ambiguous inside a table. -/
theorem unambiguous_within {change : Entries → Option Entries} {path : List String}
    (hchange : ∀ {es es'}, Unambiguous es → change es = some es' → Unambiguous es') (hes : Unambiguous es)
    (h : within change path es = some es') : Unambiguous es' := by
  fun_induction within change path es generalizing es' with
  | case1 es => exact hchange hes h
  | case2 es key more hnew ih =>
      obtain ⟨sub, hsub, rfl⟩ := Option.map_eq_some_iff.1 h
      exact hes.append hnew (Node.unambiguous_branch_iff.2 (ih unambiguous_nil hsub))
  | case3 es key more origin old hold ih =>
      obtain ⟨sub, hsub, rfl⟩ := Option.map_eq_some_iff.1 h
      have hinner := Node.unambiguous_branch_iff.1 (hes.lookup hold)
      exact hes.replace (Node.unambiguous_branch_iff.2 (ih hinner hsub))
  | case4 es key more earlier old hold ih =>
      obtain ⟨last, hlast, rfl⟩ := Option.map_eq_some_iff.1 h
      obtain ⟨hearlier, hinner⟩ := Node.unambiguous_series_iff.1 (hes.lookup hold)
      exact hes.replace (Node.unambiguous_series_iff.2 ⟨hearlier, ih hinner hlast⟩)
  | case5 es key more v hfinal => cases h

theorem unambiguous_openTable (hes : Unambiguous es) (h : openTable key es = some es') : Unambiguous es' := by
  unfold openTable at h
  split at h
  · next hnew =>
      cases h
      exact hes.append hnew (Node.unambiguous_branch_iff.2 unambiguous_nil)
  · next sub hold =>
      cases h
      have hinner := Node.unambiguous_branch_iff.1 (hes.lookup hold)
      exact hes.replace (Node.unambiguous_branch_iff.2 hinner)
  · cases h

/-- The last table of a series is closed before the next one is started. -/
theorem unambiguous_openSeries (hes : Unambiguous es) (h : openSeries key es = some es') : Unambiguous es' := by
  unfold openSeries at h
  split at h
  · next hnew =>
      cases h
      exact hes.append hnew (Node.unambiguous_series_iff.2 ⟨nofun, unambiguous_nil⟩)
  · next earlier last hold =>
      cases h
      obtain ⟨hearlier, hlast⟩ := Node.unambiguous_series_iff.1 (hes.lookup hold)
      have hclosed : ∀ v ∈ earlier ++ [.table (closeAll last)], v.Unambiguous :=
        List.forall_mem_append.2 ⟨hearlier, List.forall_mem_singleton.2 hlast.table⟩
      exact hes.replace (Node.unambiguous_series_iff.2 ⟨hclosed, unambiguous_nil⟩)
  · cases h

/-! ## Values that are read -/

theorem gives_plain : Gives Value.Unambiguous plain :=
  .skip fun _ => .ite (.pure (.boolean true)) (.ite (.pure (.boolean false)) (.ite (.pure (.number _))
    (.ite (.pure (.moment _)) .failure)))

theorem gives_stringValue : Gives Value.Unambiguous stringValue := .skip fun _ => .pure (.string _)

section

variable {item : Parser (List Char) Value}

theorem gives_arrayOf (hitem : Gives Value.Unambiguous item) : Gives Value.Unambiguous (arrayOf item) := by
  have hinner : Gives Value.Unambiguous (do let v ← item; gap; pure v) :=
    .bind hitem fun _ hv => .skip fun _ => .pure hv
  exact .skip fun _ => .skip fun _ => .bind (.separated hinner) fun _ hitems => .skip fun _ => .pure (.array hitems)

theorem gives_field (hitem : Gives Value.Unambiguous item) : Gives (fun x => x.2.Unambiguous) (field item) :=
  .skip fun _ => .skip fun _ => .skip fun _ => .skip fun _ => .bind hitem fun _ hv => .skip fun _ => .pure hv

/-- The fields of an inline table are assigned one after the other. -/
theorem unambiguous_fields {fields : List (List String × Value)} (hfields : ∀ x ∈ fields, x.2.Unambiguous)
    (hes : Unambiguous es) (h : fields.foldlM (fun es (path, v) => assign v path es) es = some es') :
    Unambiguous es' := by
  induction fields generalizing es with
  | nil =>
      cases h
      exact hes
  | cons x fields ih =>
      obtain ⟨hx, hrest⟩ := List.forall_mem_cons.1 hfields
      rw [List.foldlM_cons] at h
      obtain ⟨next, hnext, h⟩ := Option.bind_eq_some_iff.1 h
      exact ih hrest (unambiguous_assign hx hes hnext) h

theorem gives_inlineTable (hitem : Gives Value.Unambiguous item) : Gives Value.Unambiguous (inlineTable item) := by
  refine .skip fun _ => .skip fun _ => .bind (.separated (gives_field hitem)) fun x hfields => .skip fun _ => ?_
  split
  · next es hes => exact .pure (unambiguous_fields hfields unambiguous_nil hes).table
  · exact .failure

end

/-- **Values that are read are unambiguous,** however deep their arrays and inline tables are nested. -/
theorem gives_value : Gives Value.Unambiguous value := by
  -- the depth that is left plays no part: what is read inside is unambiguous at every depth
  refine Gives.fix (Q := fun _ => Value.Unambiguous) (fun self hself depth => ?_) maxDepth
  intro s v r h
  unfold valueRule at h
  split at h
  · exact gives_arrayOf (hself _) h
  · exact gives_inlineTable (hself _) h
  · cases h
  · cases h
  · exact gives_stringValue h
  · exact gives_stringValue h
  · exact gives_plain h

/-! ## Documents -/

/-- What the line assigns is unambiguous. -/
def Line.Unambiguous : Line → Prop
  | .assignment _ v => v.Unambiguous
  | _ => True

theorem gives_line : Gives Line.Unambiguous line := by
  have hassignment : Gives Line.Unambiguous assignmentLine :=
    .skip fun _ => .skip fun _ => .skip fun _ => .skip fun _ => .bind gives_value fun v hv => .pure hv
  have hseries : Gives Line.Unambiguous seriesLine :=
    .skip fun path => .skip fun _ => .pure (show (Line.seriesHeader path).Unambiguous from trivial)
  have htable : Gives Line.Unambiguous tableLine :=
    .skip fun path => .skip fun _ => .pure (show (Line.tableHeader path).Unambiguous from trivial)
  have hstatement : Gives Line.Unambiguous statement := by
    intro s said r h
    unfold statement at h
    split at h
    -- the end of the text, a comment and the two kinds of line end, none of which says anything
    iterate 4
      · cases h
        trivial
    · exact hseries h
    · exact htable h
    · exact hassignment h
  exact .skip fun _ => .bind hstatement fun said hsaid => .skip fun _ => .skip fun _ => .skip fun _ => .pure hsaid

namespace Draft

variable {d d' : Draft}

/-- **A line that is read makes nothing ambiguous.** -/
theorem unambiguous_read {said : Line} (hsaid : said.Unambiguous) (hd : Unambiguous d.entries)
    (h : d.read said = some d') : Unambiguous d'.entries := by
  cases said with
  | nothing =>
      cases h
      exact hd
  | assignment path v =>
      obtain ⟨es, hes, rfl⟩ := Option.map_eq_some_iff.1 h
      exact unambiguous_within (fun hsub => unambiguous_assign hsaid hsub) hd hes
  | tableHeader path =>
      rw [read] at h
      split at h
      · obtain ⟨es, hes, rfl⟩ := Option.map_eq_some_iff.1 h
        exact unambiguous_within unambiguous_openTable hd hes
      · cases h
  | seriesHeader path =>
      rw [read] at h
      split at h
      · obtain ⟨es, hes, rfl⟩ := Option.map_eq_some_iff.1 h
        exact unambiguous_within unambiguous_openSeries hd hes
      · cases h

/-- Nor do several lines. -/
theorem unambiguous_foldlM {said : List Line} (hsaid : ∀ l ∈ said, l.Unambiguous) (hd : Unambiguous d.entries)
    (h : said.foldlM read d = some d') : Unambiguous d'.entries := by
  induction said generalizing d with
  | nil =>
      cases h
      exact hd
  | cons l said ih =>
      obtain ⟨hl, hrest⟩ := List.forall_mem_cons.1 hsaid
      rw [List.foldlM_cons] at h
      obtain ⟨next, hnext, h⟩ := Option.bind_eq_some_iff.1 h
      exact ih hrest (unambiguous_read hl hd hnext) h

end Draft

/-- **In a document no key is given twice,** neither at the top level nor in any table of it. -/
theorem unambiguous_of_entriesOf? {source : String} {entries : List (String × Value)}
    (h : entriesOf? source = some entries) : (Value.table entries).Unambiguous := by
  unfold entriesOf? at h
  split at h
  · next said _ hlines =>
      obtain ⟨d, hd, rfl⟩ := Option.map_eq_some_iff.1 h
      have hsaid : ∀ l ∈ said, l.Unambiguous := Gives.many gives_line hlines
      exact (Draft.unambiguous_foldlM hsaid unambiguous_nil hd).table
  · cases h

end QueryContract.Settings

import PlotGrammar.Proofs.Stat.Grouping
import PlotGrammar.Proofs.Stat.Storage

/-!
# A column of one text

A column that holds one text on all rows puts them all into one group, if it is bound to the group
channel. `Table.Marked` says that a table has such a column and else looks like another one.

* Where nothing divided the rows before, the column is the only one that does
  (`Stat.groupColumns_marked`), and a summary reduces what it reduced
  (`Stat.reducedColumns_marked`).
* There is one sample, that of all rows, under the text (`Stat.divide_marked`).
* A computed table gets one more column, in front of the others (`Table.LedBy`). The rules for the
  other columns do not look at the key of a row (`Stat.assemble_marked`).
-/

namespace PlotGrammar

/-! ### Tables with one more column -/

namespace Table

/-- A column of one text. -/
def markField (g : String) (kind : ColumnKind) (type : ColumnType) (mark : String) (height : Nat) :
    Field :=
  ⟨.text g, kind, ⟨type, List.replicate height (.text mark)⟩⟩

/-- A table has a column of one text, stored as a text or an object. Apart from it the table looks
like another one, whether this has the column or not. -/
structure Marked (t t' : Table) (g : String) (kind : ColumnKind) (type : ColumnType)
    (mark : String) : Prop where
  height : t'.height = t.height
  computedBy : t'.computedBy = t.computedBy
  stored : type = .text ∨ type = .object
  kindAt : t'.kind? g = some kind
  columnAt : t'.column? g = some (markField g kind type mark t.height).column
  kinds : ∀ name, name ≠ g → t'.kind? name = t.kind? name
  columns : ∀ name, name ≠ g → t'.column? name = t.column? name

/-- A table is another one with a column in front. -/
structure LedBy (t t' : Table) (f : Field) : Prop where
  fields : t'.fields = f :: t.fields
  height : t'.height = t.height
  computedBy : t'.computedBy = t.computedBy

variable {t t' : Table} {g : String} {kind : ColumnKind} {type : ColumnType} {mark : String}

/-- All rows hold the text. -/
theorem getD_markField {i height : Nat} (hi : i < height) :
    (markField g kind type mark height).column.cells.getD i .missing = .text mark := by
  unfold markField
  dsimp only
  rw [List.getD_eq_getElem?_getD, List.getElem?_replicate_of_lt hi]
  rfl

namespace Marked

variable (h : t.Marked t' g kind type mark)

include h

theorem series_of_ne {name : String} (hname : name ≠ g) : t'.series name = t.series name := by
  unfold series
  rw [h.columns name hname]

theorem allSeries_eq :
    Stat.allSeries t' [g] = .ok [(markField g kind type mark t.height).column] := by
  have hseries : t'.series g = .ok (markField g kind type mark t.height).column := by
    unfold series
    rw [h.columnAt]
  unfold Stat.allSeries
  rw [List.mapM_cons, hseries]
  rfl

theorem mapM_kind_eq : [g].mapM t'.kind = .ok [kind] := by
  rw [List.mapM_cons, kind_eq_ok.2 h.kindAt]
  rfl

end Marked

/-- A column that is inserted anywhere marks a table. -/
theorem marked_of_insert {before after : List Field} (hfields : t.fields = before ++ after)
    (hmarked : t'.fields = before ++ markField g kind type mark t.height :: after)
    (hheight : t'.height = t.height) (hcomputed : t'.computedBy = t.computedBy)
    (hstored : type = .text ∨ type = .object) : t.Marked t' g kind type mark := by
  -- the names of a table differ, so the look-up of the name does not stop ahead of the column
  have hbefore : ∀ f ∈ before, f.name ≠ g := by
    intro f hf hname
    have hdistinct := t'.distinct
    rw [hmarked, List.map_append, List.map_cons] at hdistinct
    refine (List.disjoint_of_nodup_append hdistinct) (List.mem_map_of_mem hf) ?_
    rw [hname]
    exact List.mem_cons_self
  have hlabel : ∀ f ∈ before, f.label ≠ .text g := by
    intro f hf hlabel
    refine hbefore f hf ?_
    unfold Field.name
    rw [hlabel]
    rfl
  refine ⟨hheight, hcomputed, hstored, ?_, ?_, fun name hname => ?_, fun name hname => ?_⟩
  -- the first two look-ups reach the new column, the others pass it by
  · unfold kind?
    have hnone : before.find? (fun f => f.name == g) = none :=
      List.find?_eq_none.2 fun f hf => by simpa using hbefore f hf
    rw [hmarked, List.find?_append, hnone, Option.none_or,
      List.find?_cons_of_pos (by exact beq_self_eq_true g)]
    rfl
  · unfold column?
    have hnone : before.find? (fun f => f.label == .text g) = none :=
      List.find?_eq_none.2 fun f hf => by simpa using hlabel f hf
    rw [hmarked, List.find?_append, hnone, Option.none_or,
      List.find?_cons_of_pos (by exact beq_self_eq_true (Label.text g))]
    rfl
  · unfold kind?
    have hother : ¬ (((markField g kind type mark t.height).name == name) = true) := by
      rw [beq_iff_eq]
      exact hname.symm
    rw [hmarked, hfields, List.find?_append, List.find?_append,
      List.find?_cons_of_neg (p := fun f : Field => f.name == name) hother]
  · unfold column?
    have hother : ¬ (((markField g kind type mark t.height).label == .text name) = true) := by
      rw [beq_iff_eq]
      exact fun h => hname (Label.text.inj h).symm
    rw [hmarked, hfields, List.find?_append, List.find?_append,
      List.find?_cons_of_neg (p := fun f : Field => f.label == .text name) hother]

/-- A table can be led by a column of its height, if it has none of the same name. -/
theorem exists_ledBy {f : Field} (hlength : f.column.cells.length = t.height)
    (hfresh : f.name ∉ t.names) : ∃ t', t.LedBy t' f := by
  refine ⟨⟨f :: t.fields, t.height, t.computedBy, fun e he => ?_, ?_⟩, rfl, rfl, rfl⟩
  · rcases List.mem_cons.1 he with rfl | he
    · exact hlength
    · exact t.uniform e he
  · rw [List.map_cons]
    exact List.nodup_cons.2 ⟨hfresh, t.distinct⟩

/-- The column in front has a name of its own. -/
theorem LedBy.fresh {f : Field} (h : t.LedBy t' f) : f.name ∉ t.names := by
  have hdistinct := t'.distinct
  rw [h.fields, List.map_cons] at hdistinct
  exact (List.nodup_cons.1 hdistinct).1

/-- One more rule computes one more column in front. The other columns do not change if the rows
change only in what their rules do not look at. -/
theorem ofRows_cons_eq_ok_iff {ρ : Type} {rule : Rule ρ} {rules : List (Rule ρ)} {f : ρ → ρ}
    {rows : List ρ} {computedBy : String} (h : ∀ r ∈ rules, ∀ row, r.cell (f row) = r.cell row) :
    ofRows (rule :: rules) (rows.map f) computedBy = .ok t' ↔
      ∃ t, ofRows rules rows computedBy = .ok t ∧ t.LedBy t' (rule.field (rows.map f)) := by
  -- the other rules do not look at what `f` changes
  have hfields : rules.map (Rule.field (rows.map f)) = rules.map (Rule.field rows) := by
    refine List.map_congr_left fun r hr => ?_
    have hcells : (rows.map f).map r.cell = rows.map r.cell := by
      rw [List.map_map]
      exact List.map_congr_left fun row _ => h r hr row
    unfold Rule.field
    rw [hcells]
  rw [ofRows_eq_ok_iff, List.map_cons, List.map_cons, hfields, List.length_map]
  constructor
  -- the first field in front of the rest is the table led by it
  · rintro ⟨hnames, hfields, hheight, hcomputed⟩
    obtain ⟨t, ht⟩ := exists_ofRows_iff.2 (List.nodup_cons.1 hnames).2
    obtain ⟨-, hfields', hheight', hcomputed'⟩ := ofRows_eq_ok_iff.1 ht
    exact ⟨t, ht, hfields.trans (congrArg _ hfields'.symm), hheight.trans hheight'.symm,
      hcomputed.trans hcomputed'.symm⟩
  -- conversely the led table has the fields and the names that are asked for
  · rintro ⟨t, ht, hled⟩
    obtain ⟨-, hfields', hheight', hcomputed'⟩ := ofRows_eq_ok_iff.1 ht
    have hall : t'.fields = rule.field (rows.map f) :: rules.map (Rule.field rows) :=
      hled.fields.trans (congrArg _ hfields')
    refine ⟨?_, hall, hled.height.trans hheight', hled.computedBy.trans hcomputed'⟩
    have hdistinct := t'.distinct
    rw [hall, List.map_cons, List.map_map] at hdistinct
    exact hdistinct

end Table

/-! ### Mappings but for the group channel -/

namespace Mapping

/-- The mapping without what is bound to the group channel. -/
def unmarked (m : Mapping) : Mapping :=
  m.filter fun c _ => c != .group

theorem column?_unmarked (m : Mapping) {c : Channel} (h : c ≠ .group) :
    m.unmarked.column? c = m.column? c := by
  have hkept : (c != .group) = true := bne_iff_ne.2 h
  unfold unmarked filter column?
  dsimp only
  rw [hkept]
  cases m.binding c <;> rfl

theorem column?_unmarked_group (m : Mapping) : m.unmarked.column? .group = none := by
  unfold unmarked filter column?
  dsimp only
  cases m.binding .group <;> rfl

/-- The group channel is listed last. -/
theorem columns_eq (m : Mapping) :
    m.columns =
      m.unmarked.columns ++ ((m.column? .group).map fun n => (Channel.group, n)).toList := by
  -- `group` is the last channel, so its column stands at the end
  have hall : Channel.all = Channel.all.dropLast ++ [.group] := rfl
  have hahead : ∀ n : Mapping, Channel.all.dropLast.filterMap
      (fun c => (n.column? c).map fun name => (c, name)) ++
        ((n.column? .group).map fun name => (Channel.group, name)).toList = n.columns := by
    intro n
    unfold columns
    conv_rhs => rw [hall, List.filterMap_append]
    refine congrArg (Channel.all.dropLast.filterMap _ ++ ·) ?_
    unfold List.filterMap List.filterMap
    cases n.column? .group <;> rfl
  rw [← hahead m, ← hahead m.unmarked, column?_unmarked_group, Option.map_none, Option.toList_none,
    List.append_nil]
  congr 1
  refine List.filterMap_congr fun c hc => ?_
  have hne : c ≠ .group := by
    rintro rfl
    exact absurd hc (by decide)
  rw [m.column?_unmarked hne]

theorem unmarked_set_group (m : Mapping) (b : Binding) :
    (m.set .group b).unmarked = m.unmarked := by
  refine Mapping.ext (funext fun c => ?_)
  by_cases hc : c = .group
  · subst hc
    unfold unmarked filter
    dsimp only
    rw [set_binding, if_pos rfl]
    cases m.binding .group <;> rfl
  · unfold unmarked filter
    dsimp only
    rw [set_binding, if_neg hc]

theorem column?_set_group (m : Mapping) (b : Binding) {c : Channel} (h : c ≠ .group) :
    (m.set .group b).column? c = m.column? c := by
  unfold column?
  rw [set_binding, if_neg h]

end Mapping

namespace Stat

/-! ### Listings -/

/-- The group channel divides rows last. -/
theorem groupColumns_eq_bind (table : Table) (m : Mapping) (other : String) :
    groupColumns table m other = groupColumns table m.unmarked other >>= fun keys =>
      pure (match m.column? .group with
        | none => keys
        | some n => if n == other || keys.contains n then keys else keys ++ [n]) := by
  unfold groupColumns
  conv_lhs => rw [m.columns_eq, List.foldlM_append]
  refine bind_congr fun keys => ?_
  cases m.column? .group with
  | none => rfl
  | some n =>
    rw [Option.map_some, Option.toList_some, List.foldlM_cons]
    dsimp only
    rw [show Channel.group.isPositional = false from rfl, Bool.false_or]
    split <;> rfl

/-- A summary reduces the column of the group channel last, unless it is known. -/
theorem reducedColumns_eq_unmarked {counting : Bool} {table : Table} {m : Mapping}
    {keys : List String} {layer : Option Int}
    (h : ∀ n, m.column? .group = some n → n ∈ keys ∨ ∃ c ≠ .group, m.column? c = some n) :
    reducedColumns counting table m keys layer =
      reducedColumns counting table m.unmarked keys layer := by
  unfold reducedColumns
  conv_lhs => rw [m.columns_eq, List.foldlM_append]
  conv_rhs => rw [← bind_pure (List.foldlM _ [] m.unmarked.columns)]
  refine bind_congr_ok fun reduced hreduced => ?_
  cases hn : m.column? .group with
  | none => rfl
  | some n =>
    -- a column of another channel has been added, since the group channel is last
    have hknown : n ∈ keys ∨ n ∈ reduced := by
      rcases h n hn with hkey | ⟨c, hc, hcolumn⟩
      · exact Or.inl hkey
      · rw [← m.column?_unmarked hc] at hcolumn
        exact mem_of_reducedColumns hreduced hcolumn
    have htest : (keys.contains n || reduced.contains n) = true := by
      rw [Bool.or_eq_true, List.contains_iff_mem, List.contains_iff_mem]
      exact hknown
    rw [Option.map_some, Option.toList_some, List.foldlM_cons]
    dsimp only
    rw [htest, if_pos rfl]
    rfl

section Marked

variable {table table' : Table} {mapping : Mapping} {g : String} {kind : ColumnKind}
  {type : ColumnType} {mark : String} {member : Option Member} {layer : Option Int}
  (h : table.Marked table' g kind type mark) (hfresh : ∀ c, mapping.column? c ≠ some g)

include h hfresh

theorem sameAxes_marked :
    SameAxes table table' mapping (mapping.set .group (.column g member)) where
  columns a := mapping.column?_set_group _ (by cases a <;> decide)
  kinds _ name hname := h.kinds name fun hsame => hfresh _ (hsame ▸ hname)

omit h in
theorem ne_of_mem_unmarked {e : Channel × String} (he : e ∈ mapping.unmarked.columns) :
    e.2 ≠ g := by
  intro hsame
  have hcolumn := Mapping.mem_columns.1 he
  by_cases hc : e.1 = .group
  · rw [hc, mapping.column?_unmarked_group] at hcolumn
    cases hcolumn
  · rw [mapping.column?_unmarked hc] at hcolumn
    exact hfresh e.1 (hsame ▸ hcolumn)

/-- Where nothing divided the rows, the column of one text is the only one that does. -/
theorem groupColumns_marked {other : String} (hother : other ≠ g)
    (hnone : ∀ keys, groupColumns table mapping other = .ok keys → keys = []) {keys : List String} :
    groupColumns table' (mapping.set .group (.column g member)) other = .ok keys ↔
      groupColumns table mapping other = .ok [] ∧ keys = [g] := by
  -- the columns ahead of the group channel have the same kinds in both tables
  have hrest : ∀ keys, groupColumns table' mapping.unmarked other = .ok keys ↔
      groupColumns table mapping.unmarked other = .ok keys := by
    intro keys
    unfold groupColumns
    refine foldlM_eq_ok_congr fun ks e he ks' => ?_
    split
    · exact Iff.rfl
    · split
      · exact Iff.rfl
      · rw [bind_eq_ok, bind_eq_ok]
        refine exists_congr fun k => and_congr_left fun _ => ?_
        rw [Table.kind_eq_ok, Table.kind_eq_ok, h.kinds _ (ne_of_mem_unmarked hfresh he)]
  -- nothing else divides the rows
  have hempty : ∀ keys, groupColumns table mapping.unmarked other = .ok keys →
      keys = [] ∧ groupColumns table mapping other = .ok [] := by
    intro keys hkeys
    have hall := groupColumns_eq_bind table mapping other
    rw [hkeys] at hall
    have hlast := hnone _ hall
    refine ⟨?_, hall.trans (congrArg Except.ok hlast)⟩
    split at hlast
    · exact hlast
    · split at hlast
      · exact hlast
      · exact absurd hlast (List.append_ne_nil_of_right_ne_nil _ (List.cons_ne_nil _ _))
  -- the mark is the last key that is asked for, and no key before it
  have hgroup : (mapping.set .group (.column g member)).column? .group = some g := rfl
  have htest : (g == other || ([] : List String).contains g) = false := by
    rw [Bool.or_eq_false_iff]
    exact ⟨beq_eq_false_iff_ne.2 hother.symm, rfl⟩
  rw [groupColumns_eq_bind table', mapping.unmarked_set_group, hgroup, bind_eq_ok]
  dsimp only
  constructor
  · rintro ⟨ks, hks, hlast⟩
    obtain ⟨rfl, hbase⟩ := hempty ks ((hrest ks).1 hks)
    rw [htest] at hlast
    cases hlast
    exact ⟨hbase, rfl⟩
  · rintro ⟨hbase, rfl⟩
    rw [groupColumns_eq_bind] at hbase
    obtain ⟨ks, hks, -⟩ := bind_eq_ok.1 hbase
    obtain ⟨rfl, -⟩ := hempty ks hks
    refine ⟨[], (hrest []).2 hks, ?_⟩
    rw [htest]
    rfl

/-- A summary reduces what it reduced, if the group channel was bound to no column of its own. -/
theorem reducedColumns_marked {counting : Bool} {reduced : List String}
    (hgroup : ∀ n, mapping.column? .group = some n → ∃ c ≠ .group, mapping.column? c = some n) :
    reducedColumns counting table' (mapping.set .group (.column g member)) [g] layer =
        .ok reduced ↔ reducedColumns counting table mapping [] layer = .ok reduced := by
  -- the mark is a key already, so binding it adds nothing to be reduced
  have hmark : reducedColumns counting table' (mapping.set .group (.column g member)) [g] layer =
      reducedColumns counting table' mapping.unmarked [g] layer := by
    refine (reducedColumns_eq_unmarked fun n hn => Or.inl ?_).trans ?_
    · have hsame : g = n := Option.some.inj hn
      exact hsame ▸ List.mem_cons_self
    · rw [mapping.unmarked_set_group]
  rw [hmark, reducedColumns_eq_unmarked fun n hn => Or.inr (hgroup n hn)]
  unfold reducedColumns
  refine foldlM_eq_ok_congr fun found e he found' => ?_
  -- the names that are looked at are not the mark
  have hne := ne_of_mem_unmarked hfresh he
  have hnot : [g].contains e.2 = ([] : List String).contains e.2 := by
    rw [List.contains_cons, beq_eq_false_iff_ne.2 hne, Bool.false_or]
  rw [hnot]
  split
  · exact Iff.rfl
  · split
    · exact Iff.rfl
    · rw [bind_eq_ok, bind_eq_ok]
      refine exists_congr fun k => and_congr_left fun _ => ?_
      rw [Table.kind_eq_ok, Table.kind_eq_ok, h.kinds _ hne]

end Marked

/-! ### One sample of all rows -/

/-- Rows under one key make one sample. -/
theorem samples_of_forall {key : List Cell} {rows : List Observation}
    (h : ∀ r ∈ rows, r.key = key) (hrows : rows ≠ []) :
    samples true rows = [⟨key, rows.map Observation.value⟩] := by
  have hgroup : Group.of (fun r : Observation => keyOf r.key) rows = [(keyOf key, rows)] :=
    Group.of_eq_singleton (fun r hr => congrArg keyOf (h r hr)) hrows
  obtain ⟨first, rest, rfl⟩ := List.exists_cons_of_ne_nil hrows
  unfold samples
  rw [if_pos rfl, hgroup, ← h first List.mem_cons_self]
  rfl

section Divide

variable {table table' : Table} {g : String} {kind : ColumnKind} {type : ColumnType} {mark : String}

/-- Without group columns there is one sample of all values. -/
theorem divide_undivided {found : Input} (hcolumn : table.series found.name = .ok found.column)
    (hkeys : found.keys = []) :
    found.divide table = .ok ⟨[], [], [⟨[], found.values⟩]⟩ := by
  rw [divide_of_isEmpty hkeys]
  unfold Input.observed Input.values
  rw [map_value_observations (Table.length_of_series hcolumn)]

/-- Divided by a column of one text, all values are in the sample of this text. -/
theorem divide_marked (h : table.Marked table' g kind type mark) (found : Input)
    (hcolumn : table.series found.name = .ok found.column) (hkeys : found.keys = [g])
    (hvalues : found.values ≠ []) :
    found.divide table' = .ok ⟨[(Table.markField g kind type mark table.height).column], [kind],
      [⟨[.text mark], found.values⟩]⟩ := by
  let column := (Table.markField g kind type mark table.height).column
  have hlength := Table.length_of_series hcolumn
  -- every row has the mark in the key column
  have hobserved : ∀ r ∈ found.observed table' [column], r.key = [.text mark] := by
    intro r hr
    obtain ⟨e, he, hr⟩ := List.mem_filterMap.1 hr
    obtain ⟨v, -, rfl⟩ := Option.map_eq_some_iff.1 hr
    obtain ⟨i, hi, hkey⟩ := List.mem_map.1 (List.of_mem_zip he).1
    rw [h.height] at hi
    rw [← hkey, List.map_map, List.map_singleton]
    exact congrArg (fun c => [c]) (Table.getD_markField (List.mem_range.1 hi))
  have hmap : (found.observed table' [column]).map Observation.value = found.values :=
    map_value_observations (hlength.trans h.height.symm)
  refine divide_eq_ok_iff.2
    ⟨hkeys.symm ▸ h.allSeries_eq, hkeys.symm ▸ h.mapM_kind_eq, ?_, ?_⟩
  · intro r hr c hc
    rw [hobserved r hr, List.mem_singleton] at hc
    rw [hc]
    rfl
  -- there are values, so there are rows to be grouped
  · have hrows : found.observed table' [column] ≠ [] := by
      intro hnil
      rw [hnil] at hmap
      exact hvalues hmap.symm
    rw [hkeys]
    exact (samples_of_forall hobserved hrows).symm ▸ congrArg (fun vs => [Sample.mk _ vs]) hmap.symm

end Divide

/-! ### Assembling with one more column -/

section Assemble

variable {ρ : Type} {g : String} {kind : ColumnKind} {type : ColumnType} {mark : String}
  {key : ρ → List Cell}

/-- Copies of a text are stored as they are. -/
theorem storedKeys_replicate_text {choose : List Cell → KeyStore}
    (hchoose : choose = KeyStore.ofAmounts ∨ choose = KeyStore.ofNumbers) (column : Column)
    (n : Nat) (mark : String) :
    storedKeys choose column (List.replicate n (.text mark)) =
      ⟨keyType column (List.replicate n (.text mark)), List.replicate n (.text mark)⟩ := by
  rcases hchoose with rfl | rfl
  · exact storedKeys_of_unmixed fun _ => KeyStore.unmixed_replicate n _
  · have hkept : KeyStore.ofNumbers (List.replicate n (.text mark)) = .kept := by
      refine KeyStore.ofNumbers_eq_kept ?_
      cases n with
      | zero => exact Or.inr (Or.inl fun c hc => absurd hc List.not_mem_nil)
      | succ n => exact Or.inl ⟨.text mark, List.mem_cons_self, rfl⟩
    unfold storedKeys KeyStore.ofColumn
    rw [hkept, ite_self]
    dsimp only
    rw [show KeyStore.kept.cell = id from rfl, List.map_id]

/-- A single group column has a rule that stores the keys in the way that is chosen. -/
theorem exists_keyRules_singleton (g : String) (kind : ColumnKind) (choose : List Cell → KeyStore)
    (column : Column) (key : ρ → List Cell) (keys : List (List Cell)) :
    ∃ rule, keyRules [g] [column] [kind] (keyStores choose [column] keys) key = [rule] ∧
      ∀ rows : List ρ, rows.map key = keys → rule.field rows =
        ⟨.text g, kind, storedKeys choose column (keys.map fun k => k.getD 0 .missing)⟩ := by
  refine ⟨_, List.mapIdx_singleton, fun rows hrows => ?_⟩
  subst hrows
  unfold Table.Rule.field storedKeys keyStores
  dsimp only
  rw [List.mapIdx_singleton, List.map_map, List.map_map]
  rfl

/-- Copies of a text are stored as a text. -/
theorem keyType_replicate_text {column : Column} (h : column.type = .text ∨ column.type = .object)
    (n : Nat) (mark : String) :
    keyType column (List.replicate n (.text mark)) = if n = 0 then column.type else .text := by
  have hcells : ColumnType.ofCells (List.replicate n (.text mark)) =
      if n = 0 then .object else .text := by
    cases n with
    | zero => rfl
    | succ n =>
      have hpresent : (List.replicate (n + 1) (Cell.text mark)).filter (fun c => !c.isMissing) =
          List.replicate (n + 1) (.text mark) := List.filter_replicate_of_pos rfl
      unfold ColumnType.ofCells
      rw [hpresent, if_neg (Nat.succ_ne_zero n)]
      simp [Cell.isBool, Cell.isNumber, Cell.isText]
  unfold keyType
  rw [hcells]
  rcases h with h | h
  · rw [h, if_neg (by decide), ite_self]
  · rw [h, if_pos rfl]

/-- The column of one text as a result holds it. Objects are stored as what they are, texts, as soon
as there is a row. -/
def ledField (g : String) (kind : ColumnKind) (type : ColumnType) (mark : String) (height : Nat) :
    Field :=
  Table.markField g kind (if height = 0 then type else .text) mark height

/-- The rule of a single group column computes the column of one text. -/
theorem exists_ledRule (g : String) (kind : ColumnKind) (height : Nat)
    {choose : List Cell → KeyStore}
    (hchoose : choose = KeyStore.ofAmounts ∨ choose = KeyStore.ofNumbers)
    (hstored : type = .text ∨ type = .object) {rows : List ρ}
    (hkey : ∀ r ∈ rows, key r = [.text mark]) :
    ∃ rule, keyRules [g] [(Table.markField g kind type mark height).column] [kind]
        (keyStores choose [(Table.markField g kind type mark height).column] (rows.map key)) key =
          [rule] ∧
      ∀ rows' : List ρ, rows'.map key = rows.map key →
        rule.field rows' = ledField g kind type mark rows.length := by
  obtain ⟨rule, hrule, hfield⟩ := exists_keyRules_singleton g kind choose
    (Table.markField g kind type mark height).column key (rows.map key)
  -- all rows have the same key, so one cell is repeated
  have hcells : (rows.map key).map (fun k => k.getD 0 .missing) =
      List.replicate rows.length (.text mark) := by
    rw [List.map_map]
    refine List.eq_replicate_iff.2 ⟨List.length_map _, fun c hc => ?_⟩
    obtain ⟨r, hr, rfl⟩ := List.mem_map.1 hc
    rw [Function.comp_apply, hkey r hr]
    rfl
  refine ⟨rule, hrule, fun rows' hrows => ?_⟩
  rw [hfield rows' hrows, hcells, storedKeys_replicate_text hchoose,
    keyType_replicate_text hstored]
  rfl

/-- **Rows under one text make a table with one more column.** -/
theorem assemble_marked {stat : StatKind} {computed : List (Table.Rule ρ)} {f : ρ → ρ}
    {samples samples' : List Sample} {height : Nat} {blocks : List (List ρ)} {t' : Table}
    (hkey : ∀ r, key (f r) = [.text mark])
    (hcell : ∀ rule ∈ computed, ∀ r, rule.cell (f r) = rule.cell r)
    (hstored : type = .text ∨ type = .object) :
    assemble stat [g] ⟨[(Table.markField g kind type mark height).column], [kind], samples'⟩
        computed key (blocks.map (List.map f)) = .ok t' ↔
      ∃ t, assemble stat [] ⟨[], [], samples⟩ computed key blocks = .ok t ∧
        t.LedBy t' (ledField g kind type mark t.height) := by
  -- `f` puts the text into the key of a row, at which no computed column looks
  have hrows : (blocks.map (List.map f)).flatten = blocks.flatten.map f := List.map_flatten.symm
  have hunder : ∀ r ∈ blocks.flatten.map f, key r = [.text mark] := by
    intro r hr
    obtain ⟨r', -, rfl⟩ := List.mem_map.1 hr
    exact hkey r'
  obtain ⟨rule, hrule, hfield⟩ := exists_ledRule g kind height
    (Or.inl rfl : KeyStore.ofAmounts = KeyStore.ofAmounts ∨ _) hstored hunder
  have hrules : assembledRules [g] ⟨[(Table.markField g kind type mark height).column], [kind],
      samples'⟩ computed key (blocks.flatten.map f) = rule :: computed :=
    congrArg (· ++ computed) hrule
  have hnone : assembledRules [] ⟨[], [], samples⟩ computed key blocks.flatten = computed := rfl
  rw [assemble_eq_ok_iff, hrows, hrules, Table.ofRows_cons_eq_ok_iff hcell, hfield _ rfl,
    List.length_map]
  constructor
  · rintro ⟨-, t, ht, hled⟩
    refine ⟨t, assemble_eq_ok_iff.2 ⟨fun _ k hk => absurd hk List.not_mem_nil, ht⟩, ?_⟩
    rwa [(Table.fields_of_ofRows ht).2]
  · rintro ⟨t, h, hled⟩
    have ht := (assemble_eq_ok_iff.1 h).2
    rw [hnone] at ht
    refine ⟨fun _ k hk hcomputed => ?_, t, ht, (Table.fields_of_ofRows ht).2 ▸ hled⟩
    -- the table has the column in front, whose name is not that of a computed one
    refine hled.fresh ?_
    obtain rfl := List.mem_singleton.1 hk
    unfold Table.names
    rw [(Table.fields_of_ofRows ht).1, List.map_map]
    exact hcomputed

end Assemble

end Stat

end PlotGrammar

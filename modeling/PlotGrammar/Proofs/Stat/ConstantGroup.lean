import PlotGrammar.Proofs.Stat.Concatenation
import PlotGrammar.Proofs.Stat.Marking

/-!
# Grouping by a constant

Where nothing divides the rows of a table, a statistic takes a path of its own: it computes from all
rows at once. Binding the group channel to a column of one text leads it to the path along groups,
of which there is one. Both paths agree, except that the result has the column of the text in front.

* `Stat.bin_marked`, `Stat.density_marked` and `Stat.summary_marked` compare the two runs of each
  statistic, step by step. Rows come out as before under another key (`Stat.curveBlock_key`,
  `Stat.reduceGroup_key`).
* `Stat.constant_group_leads` puts them together.
-/

namespace PlotGrammar

namespace Stat

/-- A summary has no key: no column is bound to the axis across, and none divides the rows. -/
def Unkeyed (settings : Settings) (table : Table) (mapping : Mapping) (geometry : Value) : Prop :=
  ∀ along value keys, valueAxis settings.axis table mapping geometry = .ok along →
    mapping.column? along.channel = some value → groupColumns table mapping value = .ok keys →
      mapping.column? along.other.channel = none ∧ keys = []

section Marked

variable {table table' t' : Table} {mapping : Mapping} {g : String} {kind : ColumnKind}
  {type : ColumnType} {mark : String} {member : Option Member} {geometry : Value}
  {layer : Option Int} {settings : Settings} {defaults : Defaults}
  (h : table.Marked table' g kind type mark) (hfresh : ∀ c, mapping.column? c ≠ some g)

include h hfresh

/-! ### Bins and curves -/

/-- The input is as before, but divided by the column of one text. -/
theorem input_marked {stat : StatKind} {along : Axis} {found' : Input}
    (hbound : (mapping.column? along.channel).isSome = true)
    (hundivided : ∀ found, (input stat table mapping along layer).outcome = .ok found →
      found.keys = []) :
    (input stat table' (mapping.set .group (.column g member)) along layer).outcome = .ok found' ↔
      ∃ found, (input stat table mapping along layer).outcome = .ok found ∧
        found' = { found with keys := [g] } := by
  have haxes : SameAxes table table' mapping (mapping.set .group (.column g member)) :=
    sameAxes_marked h hfresh
  -- the column that is binned is bound to a channel, so it is not the column of the text
  have hother : ∀ name, continuousColumn stat table mapping along layer = .ok name → name ≠ g := by
    intro name hname hsame
    exact hfresh along.channel (hsame ▸ name_of_continuousColumn hbound hname)
  rw [input_eq_ok_iff, haxes.continuousColumn_eq_ok_iff hbound]
  constructor
  · rintro ⟨hname, hcolumn, hkeys⟩
    have hne := hother _ hname
    rw [h.series_of_ne hne] at hcolumn
    have hnone : ∀ keys, groupColumns table mapping found'.name = .ok keys → keys = [] :=
      fun keys hkeys => hundivided ⟨found'.name, found'.column, keys⟩
        (input_eq_ok_iff.2 ⟨hname, hcolumn, hkeys⟩)
    obtain ⟨hbase, hkeys⟩ := (groupColumns_marked h hfresh hne hnone).1 hkeys
    refine ⟨⟨found'.name, found'.column, []⟩, input_eq_ok_iff.2 ⟨hname, hcolumn, hbase⟩, ?_⟩
    rw [← hkeys]
  · rintro ⟨found, hfound, rfl⟩
    have hkeys := hundivided found hfound
    obtain ⟨hname, hcolumn, hbase⟩ := input_eq_ok_iff.1 hfound
    have hne := hother _ hname
    have hnone : ∀ keys, groupColumns table mapping found.name = .ok keys → keys = [] := by
      intro keys hsame
      rw [hbase] at hsame
      exact (Except.ok.inj hsame).symm.trans hkeys
    rw [hkeys] at hbase
    exact ⟨hname, (h.series_of_ne hne).trans hcolumn,
      (groupColumns_marked h hfresh hne hnone).2 ⟨hbase, rfl⟩⟩

/-- Up to the division of the rows, the runs along an axis are the same steps. Without the column of
one text there is one sample of all values, and with it there is the same one under the text. -/
theorem along_marked {stat : StatKind} {asked : Option Axis}
    (hundivided : ∀ along found, axis stat asked table mapping geometry layer = .ok along →
      (input stat table mapping along layer).outcome = .ok found →
        found.keys = [] ∧ found.values ≠ [])
    {along : Axis} {found' : Input} {division' : Division} :
    (axis stat asked table' (mapping.set .group (.column g member)) geometry layer = .ok along ∧
        (input stat table' (mapping.set .group (.column g member)) along layer).outcome =
          .ok found' ∧ found'.divide table' = .ok division') ↔
      ∃ found, axis stat asked table mapping geometry layer = .ok along ∧
        (input stat table mapping along layer).outcome = .ok found ∧ found.keys = [] ∧
        found.divide table = .ok ⟨[], [], [⟨[], found.values⟩]⟩ ∧
        found' = { found with keys := [g] } ∧
        division' = ⟨[(Table.markField g kind type mark table.height).column], [kind],
          [⟨[.text mark], found.values⟩]⟩ := by
  have haxes : SameAxes table table' mapping (mapping.set .group (.column g member)) :=
    sameAxes_marked h hfresh
  rw [haxes.axis_eq_ok_iff]
  constructor
  -- the axis is the same, the input has the mark for its only key
  · rintro ⟨halong, hfound', hdivision'⟩
    have hfinds := fun found => hundivided along found halong
    obtain ⟨found, hfound, rfl⟩ := (input_marked h hfresh (isSome_of_axis halong)
      fun found hfound => (hfinds found hfound).1).1 hfound'
    obtain ⟨hkeys, hvalues⟩ := hfinds found hfound
    have hcolumn := (input_eq_ok_iff.1 hfound).2.1
    have hmarked := divide_marked h { found with keys := [g] } hcolumn rfl hvalues
    exact ⟨found, halong, hfound, hkeys, divide_undivided hcolumn hkeys, rfl,
      Except.ok.inj (hdivision'.symm.trans hmarked)⟩
  -- conversely the input of the undivided table is found with the mark added to its keys
  · rintro ⟨found, halong, hfound, hkeys, -, rfl, rfl⟩
    have hfinds := fun found => hundivided along found halong
    refine ⟨halong, (input_marked h hfresh (isSome_of_axis halong)
      fun found hfound => (hfinds found hfound).1).2 ⟨found, hfound, rfl⟩, ?_⟩
    exact divide_marked h { found with keys := [g] } (input_eq_ok_iff.1 hfound).2.1 rfl
      (hfinds found hfound).2

/-- **Bins of one group** are the bins of all rows, with the text in front. -/
theorem bin_marked (hundivided : ∀ found, Finds .bin settings table mapping geometry layer found →
      found.keys = [] ∧ found.values ≠ []) :
    (bin settings defaults table' (mapping.set .group (.column g member)) geometry layer).outcome =
        .ok t' ↔
      ∃ t, (bin settings defaults table mapping geometry layer).outcome = .ok t ∧
        t.LedBy t' (ledField g kind type mark t.height) := by
  let under (r : BinRow) : BinRow := { r with key := [.text mark] }
  -- the rows come out as before, under a key that holds nothing but the mark
  have hassemble : ∀ (name : String) edges values, assemble .bin [g]
      ⟨[(Table.markField g kind type mark table.height).column], [kind],
        [⟨[.text mark], values⟩]⟩ (binRules name) BinRow.key
          [binBlock edges ⟨[.text mark], values⟩] = .ok t' ↔
      ∃ t, assemble .bin [] ⟨[], [], [⟨[], values⟩]⟩ (binRules name) BinRow.key
          [binBlock edges ⟨[], values⟩] = .ok t ∧
        t.LedBy t' (ledField g kind type mark t.height) := by
    intro name edges values
    have hblock : [binBlock edges ⟨[.text mark], values⟩] =
        [binBlock edges ⟨[], values⟩].map (List.map under) := by
      unfold binBlock
      rw [List.map_singleton, List.map_map]
      rfl
    rw [hblock]
    refine assemble_marked (fun _ => rfl) (fun rule hrule r => ?_) h.stored
    simp only [binRules, List.mem_cons, List.not_mem_nil, or_false] at hrule
    rcases hrule with rfl | rfl | rfl | rfl | rfl <;> rfl
  rw [bin_eq_ok_iff, h.computedBy]
  constructor
  -- step by step the marked run is the other one with the mark for its key
  · rintro ⟨hnew, along, found', edges, division', halong, hfound', hedges, hdivision', ht'⟩
    obtain ⟨found, halong, hfound, hkeys, hdivision, rfl, rfl⟩ := (along_marked h hfresh
      fun along found halong hfound => hundivided found ⟨fun _ => hnew, along, halong, hfound⟩).1
        ⟨halong, hfound', hdivision'⟩
    obtain ⟨t, ht, hled⟩ := (hassemble found.name edges found.values).1 ht'
    rw [← hkeys] at ht
    exact ⟨t, bin_eq_ok_iff.2 ⟨hnew, along, found, edges, _, halong, hfound, hedges, hdivision, ht⟩,
      hled⟩
  · rintro ⟨t, ht, hled⟩
    obtain ⟨hnew, along, found, edges, division, halong, hfound, hedges, hdivision, ht⟩ :=
      bin_eq_ok_iff.1 ht
    have hfinds := fun along found halong hfound =>
      hundivided found ⟨fun _ => hnew, along, halong, hfound⟩
    have hkeys := (hfinds along found halong hfound).1
    -- without keys there is one sample, of all values
    have hall := divide_undivided (input_eq_ok_iff.1 hfound).2.1 hkeys
    obtain ⟨halong', hfound', hdivision'⟩ := (along_marked h hfresh hfinds).2
      ⟨found, halong, hfound, hkeys, hall, rfl, rfl⟩
    cases hdivision.symm.trans hall
    rw [hkeys] at ht
    exact ⟨hnew, along, _, edges, _, halong', hfound', hedges, hdivision',
      (hassemble found.name edges found.values).2 ⟨t, ht, hled⟩⟩

omit h hfresh in
/-- The curve of a sample does not depend on what the sample stands under. -/
theorem curveBlock_key (weighing : Weighing) (settings : Settings) (defaults : Defaults)
    (key key' : List Cell) (values : List Float) :
    curveBlock weighing settings defaults ⟨key', values⟩ =
      (curveBlock weighing settings defaults ⟨key, values⟩).map
        (Option.map (List.map fun r => { r with key := key' })) := by
  have hbind : ∀ {α β γ : Type} (x : Except Failure α) (f : α → Except Failure β) (k : β → γ),
      (x >>= f).map k = x >>= fun a => (f a).map k := by
    intro α β γ x f k
    cases x <;> rfl
  cases values with
  | nil => rfl
  | cons v vs =>
    -- the grid, the bandwidth and the kernel are found from the values; the key is added last
    unfold curveBlock
    dsimp only
    simp only [hbind]
    refine bind_congr fun base => bind_congr fun points => bind_congr fun width =>
      bind_congr fun kernel => bind_congr fun mass => ?_
    split
    · rfl
    · refine congrArg (fun rows => Except.ok (some rows)) ?_
      rw [List.map_map]
      rfl

omit h hfresh in
/-- Curves under a text are those under no key. -/
theorem curveBlocks_key {weighing : Weighing} {values : List Float} (hvalues : values ≠ [])
    {key : List Cell} {blocks' : List (List CurveRow)} :
    (curveBlocks weighing settings defaults [⟨key, values⟩]).outcome = .ok blocks' ↔
      ∃ blocks, (curveBlocks weighing settings defaults [⟨[], values⟩]).outcome = .ok blocks ∧
        blocks' = blocks.map (List.map fun r => { r with key }) := by
  let under (r : CurveRow) : CurveRow := { r with key }
  -- there are values, so the only sample has a curve
  have hone : ∀ key : List Cell, ∀ s ∈ [Sample.mk key values], s.values ≠ [] := by
    intro key s hs
    rw [List.mem_singleton.1 hs]
    exact hvalues
  -- one sample is one block
  have hsingle : ∀ (key : List Cell) blocks,
      (curveBlocks weighing settings defaults [⟨key, values⟩]).outcome = .ok blocks ↔
        ∃ rows, curveBlock weighing settings defaults ⟨key, values⟩ = .ok (some rows) ∧
          blocks = [rows] := by
    intro key blocks
    rw [curveBlocks_eq_ok_iff (hone key), List.forall_mem_singleton, List.map_singleton]
    constructor
    · rintro ⟨hok, rfl⟩
      exact ⟨_, hok, rfl⟩
    · rintro ⟨rows, hrows, rfl⟩
      have hsame : curveRows weighing settings defaults ⟨key, values⟩ = rows := by
        unfold curveRows
        rw [hrows]
      exact ⟨hsame.symm ▸ hrows, hsame.symm ▸ rfl⟩
  -- the key is put on the rows after the curve has been computed
  have hmap : ∀ (x : Except Failure (Option (List CurveRow))) rows',
      x.map (Option.map (List.map under)) = .ok (some rows') ↔
        ∃ rows, x = .ok (some rows) ∧ rows' = rows.map under := by
    intro x rows'
    constructor
    · intro hx
      rcases x with e | ⟨_ | rows⟩
      · cases hx
      · cases hx
      · cases hx
        exact ⟨rows, rfl, rfl⟩
    · rintro ⟨rows, rfl, rfl⟩
      rfl
  rw [hsingle, curveBlock_key weighing settings defaults [] key values]
  constructor
  · rintro ⟨rows', hrows', rfl⟩
    obtain ⟨rows, hrows, rfl⟩ := (hmap _ _).1 hrows'
    exact ⟨[rows], (hsingle [] _).2 ⟨rows, hrows, rfl⟩, rfl⟩
  · rintro ⟨blocks, hblocks, rfl⟩
    obtain ⟨rows, hrows, rfl⟩ := (hsingle [] _).1 hblocks
    exact ⟨_, (hmap _ _).2 ⟨rows, hrows, rfl⟩, rfl⟩

/-- **The curve of one group** is the curve of all rows, with the text in front. -/
theorem density_marked {kit : Toolkit} {kernel : Value}
    (hundivided : ∀ found, Finds .density settings table mapping geometry layer found →
      found.keys = [] ∧ found.values ≠ []) :
    (density kit kernel settings defaults table' (mapping.set .group (.column g member)) geometry
        layer).outcome = .ok t' ↔
      ∃ t, (density kit kernel settings defaults table mapping geometry layer).outcome = .ok t ∧
        t.LedBy t' (ledField g kind type mark t.height) := by
  let under (r : CurveRow) : CurveRow := { r with key := [.text mark] }
  -- the rows come out as before, under a key that holds nothing but the mark
  have hassemble : ∀ (name : String) values blocks, assemble .density [g]
      ⟨[(Table.markField g kind type mark table.height).column], [kind],
        [⟨[.text mark], values⟩]⟩ (curveRules name) CurveRow.key (blocks.map (List.map under)) =
          .ok t' ↔
      ∃ t, assemble .density [] ⟨[], [], [⟨[], values⟩]⟩ (curveRules name) CurveRow.key blocks =
          .ok t ∧ t.LedBy t' (ledField g kind type mark t.height) := by
    intro name values blocks
    refine assemble_marked (fun _ => rfl) (fun rule hrule r => ?_) h.stored
    simp only [curveRules, List.mem_cons, List.not_mem_nil, or_false] at hrule
    rcases hrule with rfl | rfl | rfl | rfl <;> rfl
  have hfinds := fun along found halong hfound =>
    hundivided found ⟨fun hbin => absurd hbin (by decide), along, halong, hfound⟩
  rw [density_eq_ok_iff]
  constructor
  -- step by step, as for the bins, and with the key put on the curves
  · rintro ⟨along, found', weighing, division', blocks', halong, hfound', hweighing, hdivision',
      hblocks', ht'⟩
    obtain ⟨found, halong, hfound, hkeys, hdivision, rfl, rfl⟩ := (along_marked h hfresh hfinds).1
      ⟨halong, hfound', hdivision'⟩
    obtain ⟨blocks, hblocks, rfl⟩ :=
      (curveBlocks_key (hfinds along found halong hfound).2).1 hblocks'
    obtain ⟨t, ht, hled⟩ := (hassemble found.name found.values blocks).1 ht'
    rw [← hkeys] at ht
    exact ⟨t, density_eq_ok_iff.2 ⟨along, found, weighing, _, blocks, halong, hfound, hweighing,
      hdivision, hblocks, ht⟩, hled⟩
  · rintro ⟨t, ht, hled⟩
    obtain ⟨along, found, weighing, division, blocks, halong, hfound, hweighing, hdivision, hblocks,
      ht⟩ := density_eq_ok_iff.1 ht
    obtain ⟨hkeys, hvalues⟩ := hfinds along found halong hfound
    -- without keys there is one sample, of all values
    have hall := divide_undivided (input_eq_ok_iff.1 hfound).2.1 hkeys
    obtain ⟨halong', hfound', hdivision'⟩ := (along_marked h hfresh hfinds).2
      ⟨found, halong, hfound, hkeys, hall, rfl, rfl⟩
    cases hdivision.symm.trans hall
    rw [hkeys] at ht
    exact ⟨along, _, weighing, _, _, halong', hfound', hweighing, hdivision',
      (curveBlocks_key hvalues).2 ⟨blocks, hblocks, rfl⟩,
      (hassemble found.name found.values blocks).2 ⟨t, ht, hled⟩⟩

/-! ### Summaries -/

omit h hfresh in
/-- Where nothing divides the rows, the group channel is bound to no column of its own. -/
theorem eq_of_groupColumns_nil {other n : String}
    (hnone : groupColumns table mapping other = .ok []) (hn : mapping.column? .group = some n) :
    n = other := by
  rw [groupColumns_eq_bind, hn] at hnone
  obtain ⟨keys, -, hlast⟩ := bind_eq_ok.1 hnone
  have hlast := Except.ok.inj hlast
  dsimp only at hlast
  split at hlast
  · next hknown =>
    rw [hlast, Bool.or_eq_true, beq_iff_eq] at hknown
    exact hknown.resolve_right Bool.false_ne_true
  · exact absurd hlast (List.append_ne_nil_of_right_ne_nil _ (List.cons_ne_nil _ _))

/-- What there is to summarize is as before, under one key. -/
theorem of_marked {kit : Toolkit} {stat : StatConfig}
    (hundivided : Unkeyed settings table mapping geometry) {s' : Grouping} :
    s'.Of kit stat settings table' (mapping.set .group (.column g member)) geometry layer ↔
      ∃ s : Grouping, s.Of kit stat settings table mapping geometry layer ∧ s.names = [] ∧
        s' = { s with
          names := [g], keys := [(Table.markField g kind type mark table.height).column],
          kinds := [kind] } := by
  have haxes : SameAxes table table' mapping (mapping.set .group (.column g member)) :=
    sameAxes_marked h hfresh
  have hcolumn : ∀ a : Axis,
      (mapping.set .group (.column g member)).column? a.channel = mapping.column? a.channel :=
    fun a => haxes.columns a
  -- the group channel may have been bound to the column that is summarized
  have hgroup : ∀ along value, mapping.column? (Axis.channel along) = some value →
      groupColumns table mapping value = .ok [] →
        ∀ n, mapping.column? .group = some n → ∃ c ≠ .group, mapping.column? c = some n := by
    intro along value hvalue hnone n hn
    refine ⟨along.channel, by cases along <;> decide, ?_⟩
    rw [eq_of_groupColumns_nil hnone hn]
    exact hvalue
  -- each column that is reduced is bound to a channel, so it is not the column of the text
  have hseries : ∀ {counting : Bool} {reduced : List String},
      reducedColumns counting table mapping [] layer = .ok reduced →
        allSeries table' reduced = allSeries table reduced := by
    intro counting reduced hreduced
    refine mapM_congr fun name hname => ?_
    obtain ⟨c, hc⟩ := exists_channel_of_reducedColumns hreduced name hname
    exact h.series_of_ne fun hsame => hfresh c (hsame ▸ hc)
  -- the marked run is the other one with the mark for its key, field by field
  constructor
  · rintro ⟨hheight, ⟨along, value, others, halong, hvalue, hothers, hnames⟩, hkeys', hkinds',
      hreducedNames, hreduced, hreduce⟩
    rw [haxes.valueAxis_eq_ok_iff] at halong
    rw [hcolumn] at hvalue hnames
    have hnone := fun others => hundivided along value others halong hvalue
    obtain ⟨hbase, rfl⟩ := (groupColumns_marked h hfresh (fun hsame => hfresh _ (hsame ▸ hvalue))
      fun keys hkeys => (hnone keys hkeys).2).1 hothers
    have hacross := (hnone [] hbase).1
    rw [hacross] at hnames
    obtain ⟨height, names, keys, kinds, reducedNames, reduced, reduce⟩ := s'
    dsimp only at hheight hnames hkeys' hkinds' hreducedNames hreduced hreduce
    obtain rfl : names = [g] := hnames
    cases hkeys'.symm.trans h.allSeries_eq
    cases hkinds'.symm.trans h.mapM_kind_eq
    rw [reducedColumns_marked h hfresh (hgroup along value hvalue hbase)] at hreducedNames
    rw [hseries hreducedNames] at hreduced
    refine ⟨⟨height, [], [], [], reducedNames, reduced, reduce⟩, ⟨hheight.trans h.height,
      ⟨along, value, [], halong, hvalue, hbase, ?_⟩, rfl, rfl, hreducedNames, hreduced, hreduce⟩,
      rfl, rfl⟩
    rw [hacross]
    rfl
  · rintro ⟨s, ⟨hheight, ⟨along, value, others, halong, hvalue, hothers, -⟩, -, -,
      hreducedNames, hreduced, hreduce⟩, hnames, rfl⟩
    obtain ⟨hacross, rfl⟩ := hundivided along value others halong hvalue hothers
    rw [hnames] at hreducedNames
    refine ⟨hheight.trans h.height.symm, ⟨along, value, [g], haxes.valueAxis_eq_ok_iff.2 halong,
      (hcolumn along).trans hvalue, ?_, ?_⟩, h.allSeries_eq, h.mapM_kind_eq, ?_, ?_, hreduce⟩
    · refine (groupColumns_marked h hfresh (fun hsame => hfresh _ (hsame ▸ hvalue))
        fun keys hkeys => ?_).2 ⟨hothers, rfl⟩
      exact (hundivided along value keys halong hvalue hkeys).2
    · rw [hcolumn, hacross]
      rfl
    · exact (reducedColumns_marked h hfresh (hgroup along value hvalue hothers)).2 hreducedNames
    · rw [hseries hreducedNames]
      exact hreduced

end Marked

/-- Rows under one key make one group. -/
theorem rowGroups_of_forall {key : List Cell} {rows : List KeyedRow} (h : ∀ r ∈ rows, r.key = key)
    (hrows : rows ≠ []) : rowGroups true rows = [(key, rows)] := by
  have hgroup : Group.of (fun r : KeyedRow => keyOf r.key) rows = [(keyOf key, rows)] :=
    Group.of_eq_singleton (fun r hr => congrArg keyOf (h r hr)) hrows
  obtain ⟨first, rest, rfl⟩ := List.exists_cons_of_ne_nil hrows
  unfold rowGroups
  rw [if_pos rfl, hgroup, ← h first List.mem_cons_self]
  rfl

/-- What a group is reduced to does not depend on what the group stands under. -/
theorem reduceGroup_key {reduce : Aggregator} {types : List ColumnType} {key key' : List Cell}
    {rows rows' : List KeyedRow} (h : rows'.map KeyedRow.cells = rows.map KeyedRow.cells) :
    reduceGroup reduce types (key', rows') =
      (reduceGroup reduce types (key, rows)).map fun r => { r with key := key' } := by
  have hcells : ∀ i, rows'.map (fun r => r.cells.getD i .missing) =
      rows.map fun r => r.cells.getD i .missing := by
    intro i
    have hmap := congrArg (List.map fun cells : List Cell => cells.getD i .missing) h
    rw [List.map_map, List.map_map] at hmap
    exact hmap
  unfold reduceGroup
  dsimp only
  simp only [hcells]
  cases types.mapIdxM fun i type => reduce ⟨type, rows.map fun r => r.cells.getD i .missing⟩ with
  | error e => rfl
  | ok values => rfl

theorem settle_key (types : List ColumnType) (key : List Cell) (results : List SummaryRow) :
    settle types (results.map fun r => { r with key }) =
      (settle types results).map fun r => { r with key } := by
  unfold settle
  simp only [List.map_map]
  rfl

section Summary

variable {table table' t' : Table} {mapping : Mapping} {g : String} {kind : ColumnKind}
  {type : ColumnType} {mark : String} {member : Option Member} {geometry : Value}
  {layer : Option Int} {settings : Settings}

/-- All rows are one group under the text, which is reduced as all rows are without it. -/
theorem reduced_marked {height : Nat} {reducedNames : List String} {reduced : List Column}
    {reduce : Aggregator} (hrows : 0 < height) {results' : List SummaryRow} :
    Grouping.Reduced ⟨height, [g], [(Table.markField g kind type mark height).column], [kind],
        reducedNames, reduced, reduce⟩ results' ↔
      ∃ results, Grouping.Reduced ⟨height, [], [], [], reducedNames, reduced, reduce⟩ results ∧
        results' = results.map fun r => { r with key := [.text mark] } := by
  let column := (Table.markField g kind type mark height).column
  -- one group is one row
  have hsingle : ∀ {e : List Cell × List KeyedRow} {results : List SummaryRow},
      [e].mapM (reduceGroup reduce (reduced.map Column.type)) = .ok results ↔
        ∃ r, reduceGroup reduce (reduced.map Column.type) e = .ok r ∧ results = [r] := by
    intro e results
    rw [List.mapM_cons, bind_eq_ok]
    refine exists_congr fun r => and_congr_right fun _ => ?_
    exact ⟨fun h => (Except.ok.inj h).symm, fun h => congrArg Except.ok h.symm⟩
  -- an aggregator sees the cells of a row and not its key
  have hcells : (keyedRows height [column] reduced).map KeyedRow.cells =
      (keyedRows height [] reduced).map KeyedRow.cells := by
    rw [Grouping.keyedRows_eq ⟨height, [g], [column], [kind], reducedNames, reduced, reduce⟩,
      Grouping.keyedRows_eq ⟨height, [], [], [], reducedNames, reduced, reduce⟩, List.map_map,
      List.map_map]
    rfl
  have hgroup : rowGroups true (keyedRows height [column] reduced) =
      [([.text mark], keyedRows height [column] reduced)] := by
    rw [Grouping.keyedRows_eq ⟨height, [g], [column], [kind], reducedNames, reduced, reduce⟩]
    refine rowGroups_of_forall (fun r hr => ?_) ?_
    · obtain ⟨i, hi, rfl⟩ := List.mem_map.1 hr
      exact congrArg (fun c => [c]) (Table.getD_markField (List.mem_range.1 hi))
    · exact List.ne_nil_of_mem (List.mem_map_of_mem (List.mem_range.2 hrows))
  change (rowGroups true (keyedRows height [column] reduced)).mapM _ = _ ↔ ∃ results,
    [([], keyedRows height [] reduced)].mapM
      (reduceGroup reduce (reduced.map Column.type)) = .ok results ∧ _
  -- both sides reduce one group, and differ in its key only
  rw [hgroup, hsingle, reduceGroup_key hcells]
  constructor
  · rintro ⟨r', hr', rfl⟩
    cases hr : reduceGroup reduce (reduced.map Column.type) ([], keyedRows height [] reduced) with
    | error e =>
      rw [hr] at hr'
      cases hr'
    | ok r =>
      rw [hr] at hr'
      cases hr'
      exact ⟨[r], hsingle.2 ⟨r, hr, rfl⟩, rfl⟩
  · rintro ⟨results, hresults, rfl⟩
    obtain ⟨r, hr, rfl⟩ := hsingle.1 hresults
    rw [hr]
    exact ⟨_, rfl, rfl⟩

/-- Results under the text are stored as they are without it, beside the column of the text. -/
theorem ofRows_summary_marked {reducedNames : List String} {types : List ColumnType} {height : Nat}
    (hstored : type = .text ∨ type = .object) {results : List SummaryRow} {computedBy : String} :
    Table.ofRows (summaryRules [g] [(Table.markField g kind type mark height).column] [kind]
        (keyStores .ofNumbers [(Table.markField g kind type mark height).column]
          ((results.map fun r => { r with key := [.text mark] }).map SummaryRow.key))
        reducedNames types)
      (settle types (results.map fun r => { r with key := [.text mark] })) computedBy = .ok t' ↔
      ∃ t, Table.ofRows (summaryRules [] [] [] (keyStores .ofNumbers []
          (results.map SummaryRow.key)) reducedNames types) (settle types results) computedBy =
            .ok t ∧ t.LedBy t' (ledField g kind type mark t.height) := by
  have hunder : ∀ r ∈ results.map (fun r => { r with key := [.text mark] }),
      SummaryRow.key r = [.text mark] := by
    intro r hr
    obtain ⟨r', -, rfl⟩ := List.mem_map.1 hr
    rfl
  -- the key column is one more rule in front of the others
  obtain ⟨rule, hrule, hfield⟩ := exists_ledRule g kind height
    (Or.inr rfl : KeyStore.ofNumbers = KeyStore.ofAmounts ∨ _) hstored hunder
  have hrules : summaryRules [g] [(Table.markField g kind type mark height).column] [kind]
      (keyStores .ofNumbers [(Table.markField g kind type mark height).column]
        ((results.map fun r => { r with key := [.text mark] }).map SummaryRow.key))
      reducedNames types = rule :: summaryRules [] [] [] (keyStores .ofNumbers []
        (results.map SummaryRow.key)) reducedNames types :=
    congrArg (· ++ _) hrule
  have hheight : ∀ t, Table.ofRows (summaryRules [] [] [] (keyStores .ofNumbers []
      (results.map SummaryRow.key)) reducedNames types) (settle types results) computedBy =
        .ok t → t.height = results.length := by
    intro t ht
    rw [(Table.fields_of_ofRows ht).2]
    exact List.length_map _
  -- storing the results together does not touch their keys
  have hled := hfield _ (map_key_settle types _)
  rw [settle_key] at hled
  rw [hrules, settle_key, Table.ofRows_cons_eq_ok_iff ?_, hled, List.length_map]
  · refine exists_congr fun t => and_congr_right fun ht => ?_
    rw [hheight t ht]
  · -- what is reduced is read off the results, not off their key
    intro r hr row
    obtain ⟨i, hi, rfl⟩ := List.mem_mapIdx.1 hr
    rfl

/-- **The summary of one group** is the summary of all rows, with the text in front. -/
theorem summary_marked {kit : Toolkit} {stat : StatConfig}
    (h : table.Marked table' g kind type mark) (hfresh : ∀ c, mapping.column? c ≠ some g)
    (hrows : 0 < table.height)
    (hundivided : Unkeyed settings table mapping geometry) :
    summary kit stat settings table' (mapping.set .group (.column g member)) geometry layer =
        .ok t' ↔
      ∃ t, summary kit stat settings table mapping geometry layer = .ok t ∧
        t.LedBy t' (ledField g kind type mark t.height) := by
  have hkeyed : ∀ column ∈ [(Table.markField g kind type mark table.height).column],
      column.isKeyed = true := by
    intro column hcolumn
    rw [List.mem_singleton.1 hcolumn]
    exact List.all_eq_true.2 fun c hc => List.eq_of_mem_replicate hc ▸ rfl
  rw [summary_eq_ok_iff]
  constructor
  -- the grouping, the rows and the table are each the other one with the mark put in
  · rintro ⟨s', hof', -, results', hresults', ht'⟩
    obtain ⟨⟨height, names, keys, kinds, reducedNames, reduced, reduce⟩, hof, hnames, rfl⟩ :=
      (of_marked h hfresh hundivided).1 hof'
    obtain rfl : names = [] := hnames
    obtain rfl : height = table.height := hof.height
    cases hof.keys
    cases hof.kinds
    obtain ⟨results, hresults, rfl⟩ := (reduced_marked hrows).1 hresults'
    obtain ⟨t, ht, hled⟩ := (ofRows_summary_marked h.stored).1 ht'
    exact ⟨t, summary_eq_ok_iff.2 ⟨_, hof, fun column hcolumn => absurd hcolumn List.not_mem_nil,
      results, hresults, ht⟩, hled⟩
  · rintro ⟨t, ht, hled⟩
    obtain ⟨⟨height, names, keys, kinds, reducedNames, reduced, reduce⟩, hof, -, results, hresults,
      ht⟩ := summary_eq_ok_iff.1 ht
    -- nothing is a key, neither the column across nor one that divides the rows
    have hnames : names = [] := by
      obtain ⟨along, value, others, halong, hvalue, hothers, hnames⟩ := hof.names
      obtain ⟨hacross, rfl⟩ := hundivided along value others halong hvalue hothers
      rw [hacross] at hnames
      exact hnames
    subst hnames
    obtain rfl : height = table.height := hof.height
    cases hof.keys
    cases hof.kinds
    exact ⟨_, (of_marked h hfresh hundivided).2 ⟨_, hof, rfl, rfl⟩, hkeyed, _,
      (reduced_marked hrows).2 ⟨results, hresults, rfl⟩,
      (ofRows_summary_marked h.stored).2 ⟨t, ht, hled⟩⟩

end Summary

/-! ### Runs -/

/-- No column divides the rows of a table into groups for a statistic, and there is something to
compute from: rows, and a finite value in the column that is binned or smoothed. -/
structure Undivided (kit : Toolkit) (stat : StatConfig) (table : Table) (mapping : Mapping)
    (geometry : Value) (layer : Option Int) : Prop where
  rows : 0 < table.height
  along : stat.kind ≠ .summary → ∀ settings found, stat.settings kit layer = .ok settings →
    Finds stat.kind settings table mapping geometry layer found →
      found.keys = [] ∧ found.values ≠ []
  across : stat.kind = .summary → ∀ settings, stat.settings kit layer = .ok settings →
    Unkeyed settings table mapping geometry

/-- **Grouping by a constant computes the same table**, with the column of the constant in front. A
run along the group succeeds if the run without it does and has no column of this name. -/
theorem constant_group_leads {kit : Toolkit} {stat : StatConfig} {defaults : Defaults}
    {table table' : Table} {mapping : Mapping} {geometry : Value} {layer : Option Int} {g : String}
    {kind : ColumnKind} {type : ColumnType} {mark : String} {member : Option Member}
    (hstat : stat.kind ≠ .identity) (h : table.Marked table' g kind type mark)
    (hfresh : ∀ c, mapping.column? c ≠ some g)
    (hundivided : Undivided kit stat table mapping geometry layer) :
    (∀ result', (run kit stat defaults table' (mapping.set .group (.column g member)) geometry
        layer).outcome = .ok result' ↔
      ∃ result, (run kit stat defaults table mapping geometry layer).outcome = .ok result ∧
        result.LedBy result' (ledField g kind type mark result.height)) ∧
    ∀ result, (run kit stat defaults table mapping geometry layer).outcome = .ok result →
      g ∉ result.names →
        ∃ result', (run kit stat defaults table' (mapping.set .group (.column g member)) geometry
          layer).outcome = .ok result' ∧
          result.LedBy result' (ledField g kind type mark result.height) := by
  -- one case for each statistic that computes something
  have hwith : ∀ settings, stat.settings kit layer = .ok settings → ∀ result',
      (runWith kit stat settings defaults table' (mapping.set .group (.column g member)) geometry
        layer).outcome = .ok result' ↔
      ∃ result, (runWith kit stat settings defaults table mapping geometry layer).outcome =
        .ok result ∧ result.LedBy result' (ledField g kind type mark result.height) := by
    intro settings hsettings result'
    have halong := fun hkind found => hundivided.along hkind settings found hsettings
    unfold runWith
    cases hkind : stat.kind with
    | identity => exact absurd hkind hstat
    | bin =>
      rw [hkind] at halong
      exact bin_marked h hfresh (halong (by decide))
    | density =>
      rw [hkind] at halong
      exact density_marked h hfresh (halong (by decide))
    | summary =>
      exact summary_marked h hfresh hundivided.rows (hundivided.across hkind settings hsettings)
  -- both runs read the same parameters, in which the tables play no part
  have hrun : ∀ result', (run kit stat defaults table' (mapping.set .group (.column g member))
      geometry layer).outcome = .ok result' ↔
      ∃ result, (run kit stat defaults table mapping geometry layer).outcome = .ok result ∧
        result.LedBy result' (ledField g kind type mark result.height) := by
    intro result'
    rw [run_eq_ok_iff]
    constructor
    · rintro ⟨settings, hsettings, h'⟩
      obtain ⟨result, hresult, hled⟩ := (hwith settings hsettings result').1 h'
      exact ⟨result, run_eq_ok_iff.2 ⟨settings, hsettings, hresult⟩, hled⟩
    · rintro ⟨result, hresult, hled⟩
      obtain ⟨settings, hsettings, hresult⟩ := run_eq_ok_iff.1 hresult
      exact ⟨settings, hsettings, (hwith settings hsettings result').2 ⟨result, hresult, hled⟩⟩
  refine ⟨hrun, fun result hresult hnew => ?_⟩
  -- a new name can be put in front of any result
  have hlength : (ledField g kind type mark result.height).column.cells.length = result.height :=
    List.length_replicate
  obtain ⟨result', hled⟩ := Table.exists_ledBy hlength hnew
  exact ⟨result', (hrun result').2 ⟨result, hresult, hled⟩, hled⟩

/-- Two amounts, and a column of one text behind them. -/
def wholeTable : Table where
  fields := [⟨.text "m", .continuous, ⟨.int, [.int 7, .int 8]⟩⟩,
    ⟨.text "all", .discrete, ⟨.text, [.text "yes", .text "yes"]⟩⟩]
  height := 2
  computedBy := none
  uniform := by decide
  distinct := by decide

/-- Bins of the amounts, all in one group, are the bins of the amounts. -/
theorem bins_of_whole_group :
    ∃ result result', gridRun.outcome = .ok result ∧
      (run .standard gridStat {} wholeTable
        ((Mapping.empty.set .x (.column "m")).set .group (.column "all")) .null none).outcome =
          .ok result' ∧
      result.LedBy result' (ledField "all" .discrete .text "yes" result.height) := by
  have hmarked : gridTable.Marked wholeTable "all" .discrete .text "yes" :=
    Table.marked_of_insert (List.append_nil gridTable.fields).symm rfl rfl rfl (Or.inl rfl)
  have hfresh : ∀ c, (Mapping.empty.set .x (.column "m")).column? c ≠ some "all" := by
    intro c
    cases c <;> decide
  have hundivided : Undivided .standard gridStat gridTable (Mapping.empty.set .x (.column "m"))
      .null none := by
    refine ⟨by decide, fun _ settings found _ hfinds => ?_, fun hsummary => by cases hsummary⟩
    -- the only bound axis is the horizontal one, and its column is numbers without keys
    obtain ⟨along, halong, hfound⟩ := hfinds.input
    cases along with
    | x =>
      have hinput : (input .bin gridTable (Mapping.empty.set .x (.column "m")) .x none).outcome =
          .ok ⟨"m", ⟨.int, [.int 7, .int 8]⟩, []⟩ := by rfl
      cases hfound.symm.trans hinput
      exact ⟨rfl, List.isEmpty_eq_false_iff.1 (by decide +kernel)⟩
    | y => exact absurd (isSome_of_axis halong) (by decide)
  -- no column of the result is called like the mark
  have hnew : gridRun.outcome.toOption.map (fun t => t.names.contains "all") = some false := by
    decide +kernel
  cases h : gridRun.outcome with
  | error e =>
    rw [h] at hnew
    cases hnew
  | ok result =>
    rw [h] at hnew
    have hlacks : result.names.contains "all" = false := Option.some.inj hnew
    have hnot : "all" ∉ result.names := by
      rw [← List.contains_iff_mem, hlacks]
      exact Bool.false_ne_true
    -- with all conditions met the run over the marked table has a result
    obtain ⟨result', hresult', hled⟩ :=
      (constant_group_leads (by decide) hmarked hfresh hundivided).2 result h hnot
    exact ⟨result, result', rfl, hresult', hled⟩

end Stat

end PlotGrammar

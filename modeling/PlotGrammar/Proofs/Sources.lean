import PlotGrammar.Proofs.Table.Declared

/-!
# Where a source is looked up

The kinds of the columns of a source are asked for when its name is looked up. A plain listing wraps
the source with the kinds that are asked for (`Source.toTable`), and a table ignores them. A
registry wraps it with the kinds registered beside it, of which there are none here, and lays those
that are asked for over the result (`Table.redeclare`).

`Catalogue.resolve_agrees_iff` says for which sources the two end alike, both with the same table or
both with failures of one sort. `Source.Indifferent` is the condition: a table has to be restated by
what is asked for, and a frame needs texts for labels, unless it is refused both ways. A frame is
refused in three ways, and the two look for them in different orders: a kind that is asked for may
be for no column, a label may be an integer that cannot be printed, and names may repeat
(`Table.rewrap_apart_iff`, `Table.rewrap_unprinted_iff`, `Table.rewrap_repeated_iff`).
-/

namespace PlotGrammar

/-! ### Looking a source up -/

/-- The sorts of failures: a layer's problems have their category, and a fault is a sort of its
own. -/
inductive FailureSort where
  | misuse
  | layer (category : LayerCategory)
  | build
  | scalesFrozen
  | fault (f : Fault)
  deriving DecidableEq

/-- The sort of a failure. -/
def Failure.sort : Failure → FailureSort
  | problem (.misuse _) => .misuse
  | problem (.layer p) => .layer p.cause.category
  | build _ => .build
  | scalesFrozen => .scalesFrozen
  | fault f => .fault f

/-- Two look-ups end alike: both with one table, or with failures of one sort. -/
inductive LookUpsAgree : Except Failure Table → Except Failure Table → Prop
  | ok (t : Table) : LookUpsAgree (.ok t) (.ok t)
  | error {e e' : Failure} (h : e.sort = e'.sort) : LookUpsAgree (.error e) (.error e')

theorem LookUpsAgree.refl (x : Except Failure Table) : LookUpsAgree x x := by
  cases x with
  | ok t => exact .ok t
  | error e => exact .error rfl

theorem LookUpsAgree.error_iff {e e' : Failure} :
    LookUpsAgree (.error e) (.error e') ↔ e.sort = e'.sort :=
  ⟨fun h => by cases h; assumption, .error⟩

theorem LookUpsAgree.map_eq_ok {α : Type} {x y : Except Failure Table} {f : Table → α} {b : α}
    (h : LookUpsAgree x y) (hx : x.map f = .ok b) : y.map f = .ok b := by
  cases h with
  | ok t => exact hx
  | error h => cases hx

/-- Kinds that are asked for by column. No key stands twice. -/
structure Declaration where
  entries : List (Value × Value)
  distinct : entries.Pairwise fun d e => d.1.same e.1 = false

namespace Declaration

/-- The value that kinds are handed over as, where any are asked for. -/
def value : Option Declaration → Value
  | none => .null
  | some d => .dict d.entries

/-- The entries of the kinds that are asked for. -/
def asked (kinds : Option Declaration) : List (Value × Value) :=
  (kinds.map entries).getD []

theorem distinct_asked (kinds : Option Declaration) :
    (asked kinds).Pairwise fun d e => d.1.same e.1 = false := by
  cases kinds with
  | none => exact .nil
  | some d => exact d.distinct

end Declaration

/-- The kinds that are asked for are those that the table has, under labels that are texts, and no
statistic computed the table. -/
structure Table.Restated (t : Table) (declared : List (Value × Value)) : Prop where
  computedBy : t.computedBy = none
  textual : t.Textual
  known : Table.Known t.frame declared
  kinds : ∀ f ∈ t.fields, ∀ v, Table.declaredFor declared f.label = some v →
    Table.kindOf? v = some f.kind

/-- The kinds that are asked for make no difference between a listing and a registry. That is so if
none are asked for. Otherwise a table has to be restated. Of a frame that can be wrapped, some kind
is for no column, or all labels are texts. A frame whose names repeat is refused for that by a
registry, so a listing may refuse it for no fault. One with a label that cannot be printed is a
fault of a registry, so a listing must not report a kind that is for no column before it comes to
the label. -/
def Source.Indifferent (declared : List (Value × Value)) : Source → Prop
  | .table t => declared = [] ∨ t.Restated declared
  | .frame f =>
    declared = [] ∨
      (f.hasNames = true ∧ f.names.Nodup ∧
        (Table.Known f declared → ∀ c ∈ f.columns, c.1.isText = true)) ∨
      (f.hasNames = true ∧ ¬ f.names.Nodup ∧ (Table.Known f declared → Table.Readable f declared) ∧
        (¬ Table.Known f declared → Table.WritesUnknown f declared)) ∨
      (f.hasNames = false ∧ (¬ Table.Known f declared → ¬ Table.WritesUnknown f declared))
  | .other _ => True

namespace Table

variable {declared : List (Value × Value)}

/-- Kinds laid over a table give the table itself only if they restate its own. -/
theorem withKinds_eq_self {t : Table} :
    t.withKinds declared = t ↔
      t.computedBy = none ∧ ∀ f ∈ t.fields, (settled? declared f.label).getD f.kind = f.kind := by
  constructor
  · intro h
    refine ⟨(congrArg computedBy h).symm, ?_⟩
    have hfields : (t.fields.map fun f =>
        { f with kind := (settled? declared f.label).getD f.kind }) = t.fields.map id :=
      (congrArg fields h).trans (List.map_id _).symm
    intro f hf
    exact congrArg Field.kind (List.map_inj_left.1 hfields f hf)
  · rintro ⟨hcomputed, hkinds⟩
    have hfields : (t.fields.map fun f =>
        { f with kind := (settled? declared f.label).getD f.kind }) = t.fields := by
      refine (List.map_congr_left fun f hf => ?_).trans (List.map_id _)
      rw [hkinds f hf]
      rfl
    cases t
    cases hcomputed
    simp only [withKinds, hfields]

theorem redeclare_agrees_iff (h : declared.Pairwise fun d e => d.1.same e.1 = false)
    (hne : declared ≠ []) (t : Table) :
    LookUpsAgree (.ok t) (t.redeclare (.dict declared)) ↔ t.Restated declared := by
  constructor
  · intro hagree
    -- the registry answers with a table only if its own kinds and those asked for can be read
    -- together
    by_cases hlaid : t.Textual ∧ Known t.frame declared
    · obtain ⟨htext, hknown⟩ := hlaid
      by_cases hread : Readable t.frame declared
      · rw [redeclare_of_readable h hne htext hknown hread] at hagree
        have hself : t.withKinds declared = t := by
          generalize t.withKinds declared = u at hagree
          cases hagree
          rfl
        obtain ⟨hcomputed, hkinds⟩ := withKinds_eq_self.1 hself
        -- a kind that is asked for is read as the one the column has
        refine ⟨hcomputed, htext, hknown, fun f hf v hv => ?_⟩
        obtain ⟨kind, hkind⟩ := Option.isSome_iff_exists.1
          (hread.kinds _ (List.mem_map.2 ⟨f, hf, rfl⟩) v hv)
        have heq := hkinds f hf
        unfold settled? at heq
        rw [hv, Option.bind_some, hkind, Option.getD_some] at heq
        rw [hkind, heq]
      · rw [redeclare_of_unreadable h hne htext hknown hread] at hagree
        cases hagree
    · rw [redeclare_of_unknown hne hlaid] at hagree
      cases hagree
  -- and back: kinds that restate those of the table change nothing
  · intro hrestated
    have hread : Readable t.frame declared := by
      refine ⟨hrestated.textual.hasNames, fun c hc v hv => ?_⟩
      obtain ⟨f, hf, rfl⟩ := List.mem_map.1 hc
      rw [hrestated.kinds f hf v hv]
      rfl
    have hself : t.withKinds declared = t := by
      refine withKinds_eq_self.2 ⟨hrestated.computedBy, fun f hf => ?_⟩
      unfold settled?
      cases hv : declaredFor declared f.label with
      | none => rfl
      | some v =>
        rw [Option.bind_some, hrestated.kinds f hf v hv]
        rfl
    rw [redeclare_of_readable h hne hrestated.textual hrestated.known hread, hself]
    exact .ok t

/-! ### Wrapping a frame at once, or wrapping it again -/

/-- Kinds for no column are refused in words, if all of their keys can be written out. -/
theorem sort_unknownKeys {f : Frame} :
    (Failure.misuse (.kindsWithoutData (unknownKeys f declared))).sort = .misuse ↔
      WritesUnknown f declared := by
  unfold WritesUnknown Failure.misuse
  rw [← List.all_eq_true]
  change (if (unknownKeys f declared).all Value.isWritable = true then _
    else _ : Failure).sort = _ ↔ _
  split
  · next hwrites => exact iff_of_true rfl hwrites
  · next hwrites => exact iff_of_false (fun h => (nomatch h)) hwrites

theorem sort_unknownKeys_of_not {f : Frame} (h : ¬ WritesUnknown f declared) :
    (Failure.misuse (.kindsWithoutData (unknownKeys f declared))).sort = .fault .badValue := by
  have hunwritten : ¬ (unknownKeys f declared).all Value.isWritable = true :=
    fun hall => h (List.all_eq_true.1 hall)
  exact congrArg Failure.sort (if_neg hunwritten)

/-- A label that cannot be printed is a fault either way, unless kinds for no column are reported
before. -/
theorem rewrap_unprinted_iff {f : Frame} (hnames : f.hasNames = false) :
    LookUpsAgree (ofFrame f declared none)
        (ofFrame f [] none >>= fun t => t.redeclare (.dict declared)) ↔
      (¬ Known f declared → ¬ WritesUnknown f declared) := by
  -- such a label is come to whatever is asked for, but kinds for no column come before it
  have hunread : ∀ asked, ¬ Readable f asked := fun asked hread => by
    rw [hread.names] at hnames
    cases hnames
  have hregistry : (ofFrame f [] none >>= fun t => t.redeclare (.dict declared)) =
      .error (.fault .badValue) := by
    rw [ofFrame_of_unreadable (known_nil f) (hunread [])]
    rfl
  rw [hregistry]
  by_cases hknown : Known f declared
  · rw [ofFrame_of_unreadable hknown (hunread declared)]
    exact iff_of_true (.refl _) fun h => absurd hknown h
  · rw [ofFrame_of_unknown hknown, LookUpsAgree.error_iff, imp_iff_right hknown]
    by_cases hwrites : WritesUnknown f declared
    · rw [sort_unknownKeys.2 hwrites]
      exact iff_of_false (fun h => (nomatch h)) fun h => h hwrites
    · exact iff_of_true (sort_unknownKeys_of_not hwrites) hwrites

/-- Names that repeat are refused by a registry, whatever is asked for. A listing looks at what is
asked for before. -/
theorem rewrap_repeated_iff {f : Frame} (hnames : f.hasNames = true)
    (hrepeated : ¬ f.names.Nodup) :
    LookUpsAgree (ofFrame f declared none)
        (ofFrame f [] none >>= fun t => t.redeclare (.dict declared)) ↔
      (Known f declared → Readable f declared) ∧
        (¬ Known f declared → WritesUnknown f declared) := by
  have hregistry : (ofFrame f [] none >>= fun t => t.redeclare (.dict declared)) =
      .error (.misuse (.repeatedNames f.names)) := by
    rw [ofFrame_of_repeated hrepeated (known_nil f) (readable_nil.2 hnames)]
    rfl
  rw [hregistry]
  -- a listing refuses the names too, once it can read the kinds and knows their columns
  by_cases hknown : Known f declared
  · rw [imp_iff_right hknown, and_iff_left fun h => absurd hknown h]
    by_cases hread : Readable f declared
    · rw [ofFrame_of_repeated hrepeated hknown hread]
      exact iff_of_true (.refl _) hread
    · rw [ofFrame_of_unreadable hknown hread, LookUpsAgree.error_iff]
      exact iff_of_false (fun h => (nomatch h)) hread
  · rw [ofFrame_of_unknown hknown, LookUpsAgree.error_iff, imp_iff_right hknown,
      and_iff_right fun h => absurd h hknown]
    exact sort_unknownKeys

/-- A frame that can be wrapped is wrapped first by a registry, and what is asked for is then laid
over a table that names its own kinds by texts. -/
theorem rewrap_apart_iff (h : declared.Pairwise fun d e => d.1.same e.1 = false)
    (hne : declared ≠ []) {f : Frame} (hnames : f.hasNames = true) (hapart : f.names.Nodup) :
    LookUpsAgree (ofFrame f declared none)
        (ofFrame f [] none >>= fun t => t.redeclare (.dict declared)) ↔
      (Known f declared → ∀ c ∈ f.columns, c.1.isText = true) := by
  -- the registry wraps the frame as if nothing were asked for
  rw [ofFrame_nil hnames hapart]
  show LookUpsAgree _ ((wrapped f hapart).redeclare _) ↔ _
  have hframe : (wrapped f hapart).frame = f := frame_wrapped hapart
  by_cases hknown : Known f declared
  · rw [imp_iff_right hknown, ← textual_wrapped hapart]
    by_cases htext : (wrapped f hapart).Textual
    · -- both ways read the same declaration
      refine iff_of_true ?_ htext
      by_cases hread : Readable f declared
      · rw [ofFrame_eq_withKinds hapart hknown hread,
          redeclare_of_readable h hne htext (hframe.symm ▸ hknown) (hframe.symm ▸ hread)]
        exact .ok _
      · rw [ofFrame_of_unreadable hknown hread,
          redeclare_of_unreadable h hne htext (hframe.symm ▸ hknown) (hframe.symm ▸ hread)]
        exact .refl _
    · -- the registry refuses a label that is no text in words, the listing does not
      refine iff_of_false (fun hagree => ?_) htext
      have hwrites : WritesUnknown (wrapped f hapart).frame
          (Value.overlay (wrapped f hapart).ownKinds declared) := by
        refine (writesUnknown_overlay h).2 fun k hk => ?_
        obtain ⟨hdeclared, hnone⟩ := mem_unknownKeys.1 hk
        obtain ⟨d, hd, rfl⟩ := List.mem_map.1 hdeclared
        exact absurd (hframe.symm ▸ hknown d hd) hnone
      rw [redeclare_of_unknown hne fun hboth => htext hboth.1] at hagree
      by_cases hread : Readable f declared
      · rw [ofFrame_eq_withKinds hapart hknown hread] at hagree
        cases hagree
      · rw [ofFrame_of_unreadable hknown hread, LookUpsAgree.error_iff,
          sort_unknownKeys.2 hwrites] at hagree
        cases hagree
  · -- kinds for no column are refused both ways, in words or not
    refine iff_of_true ?_ fun h => absurd h hknown
    rw [ofFrame_of_unknown hknown,
      redeclare_of_unknown hne fun hboth => hknown (hframe ▸ hboth.2), LookUpsAgree.error_iff]
    have hlaid := writesUnknown_overlay (t := wrapped f hapart) h
    by_cases hwrites : WritesUnknown f declared
    · rw [sort_unknownKeys.2 hwrites, sort_unknownKeys.2 (hlaid.2 (hframe.symm ▸ hwrites))]
    · rw [sort_unknownKeys_of_not hwrites,
        sort_unknownKeys_of_not fun h => hwrites (hframe ▸ hlaid.1 h)]

theorem rewrap_agrees_iff (h : declared.Pairwise fun d e => d.1.same e.1 = false)
    (hne : declared ≠ []) (f : Frame) :
    LookUpsAgree (ofFrame f declared none)
        (ofFrame f [] none >>= fun t => t.redeclare (.dict declared)) ↔
      (Source.frame f).Indifferent declared := by
  unfold Source.Indifferent
  dsimp only
  rw [or_iff_right hne]
  -- a registry wraps the frame before it looks at what is asked for, so it depends on whether the
  -- frame can be wrapped
  cases hnames : f.hasNames with
  | false => simp [rewrap_unprinted_iff hnames]
  | true =>
    by_cases hapart : f.names.Nodup
    · simp [rewrap_apart_iff h hne hnames hapart, hapart]
    · simp [rewrap_repeated_iff hnames hapart, hapart]

end Table

namespace Declaration

theorem value_eq_dict {kinds : Option Declaration} (h : asked kinds ≠ []) :
    value kinds = .dict (asked kinds) := by
  cases kinds with
  | none => exact absurd rfl h
  | some d => rfl

theorem isTruthy_value {kinds : Option Declaration} (h : asked kinds = []) :
    (value kinds).isTruthy = false := by
  cases kinds with
  | none => rfl
  | some d =>
    have hentries : d.entries = [] := h
    show (!d.entries.isEmpty) = false
    rw [hentries]
    rfl

end Declaration

namespace Source

/-- A source of data comes with no kinds asked for as it comes with none at all. -/
theorem toTable_of_not_asked (source : Source) {v : Value} (h : v.isTruthy = false) :
    source.toTable v = source.toTable .null := by
  have hread : readKinds v = readKinds .null := by
    unfold readKinds
    rw [h]
    rfl
  unfold toTable
  rw [hread]

theorem toTable_frame (f : Frame) (declared : List (Value × Value)) :
    (frame f).toTable (.dict declared) = Table.ofFrame f declared none := by
  have hread : readKinds (.dict declared) = .ok declared := by
    cases declared <;> rfl
  unfold toTable
  rw [hread]
  rfl

end Source

namespace Catalogue

/-- **Where kinds are declared.** A listing of sources and a registry of them look every name up
alike, whatever kinds are asked for, exactly if these make no difference to the source under the
name. -/
theorem resolve_agrees_iff (sources : List (Value × Source)) (name : Value)
    (kinds : Option Declaration) :
    LookUpsAgree ((listing sources).resolve name (Declaration.value kinds))
        ((registry ⟨sources, []⟩).resolve name (Declaration.value kinds)) ↔
      ∀ source, Source.find sources name = .ok source →
        source.Indifferent (Declaration.asked kinds) := by
  unfold resolve SourceRegistry.get
  dsimp only
  -- a name without a source ends both look-ups alike
  cases Source.find sources name with
  | error e => exact iff_of_true (.refl _) fun source h => by cases h
  | ok source =>
    have hsource : (∀ s, Except.ok (ε := Failure) source = .ok s →
        s.Indifferent (Declaration.asked kinds)) ↔ source.Indifferent (Declaration.asked kinds) :=
      ⟨fun h => h source rfl, fun h s hs => by cases hs; exact h⟩
    rw [hsource]
    show LookUpsAgree (source.toTable (Declaration.value kinds))
      (source.toTable .null >>= fun t => t.redeclare (Declaration.value kinds)) ↔ _
    by_cases hasked : Declaration.asked kinds = []
    · -- nothing is laid over the table
      have hfalsy := Declaration.isTruthy_value hasked
      have hkept : (fun t : Table => t.redeclare (Declaration.value kinds)) = Except.ok := by
        funext t
        unfold Table.redeclare
        rw [hfalsy]
        rfl
      rw [source.toTable_of_not_asked hfalsy, hkept]
      refine iff_of_true ?_ ?_
      · cases source.toTable .null <;> exact .refl _
      · cases source <;> first | exact Or.inl hasked | exact trivial
    -- some kinds are asked for: a table and a frame have a lemma each, anything else is refused
    · rw [Declaration.value_eq_dict hasked]
      have hdistinct := Declaration.distinct_asked kinds
      cases source with
      | table t =>
        exact (Table.redeclare_agrees_iff hdistinct hasked t).trans
          ⟨Or.inr, fun h => h.resolve_left hasked⟩
      | frame f =>
        rw [Source.toTable_frame]
        exact Table.rewrap_agrees_iff hdistinct hasked f
      | other v => exact iff_of_true (.error rfl) trivial

/-- A source whose one column holds numbers. -/
def measuredSources : List (Value × Source) :=
  [(.text "main", .table
    { fields := [⟨.text "v", .continuous, ⟨.int, [.int 7, .int 8]⟩⟩]
      height := 2
      computedBy := none
      uniform := by decide
      distinct := by decide })]

/-- The column is asked for as one of groups. -/
def askedAsGroups : Declaration where
  entries := [(.text "v", .text "discrete")]
  distinct := List.pairwise_singleton _ _

/-- A table in a listing keeps its kinds, in a registry it gets those that are asked for. -/
theorem listing_ignores_kinds :
    ((listing measuredSources).resolve (.text "main") (Declaration.value (some askedAsGroups))).map
        (fun t => t.kind? "v") = .ok (some .continuous) ∧
      ((registry ⟨measuredSources, []⟩).resolve (.text "main")
        (Declaration.value (some askedAsGroups))).map (fun t => t.kind? "v") =
          .ok (some .discrete) ∧
      ¬ LookUpsAgree
        ((listing measuredSources).resolve (.text "main") (Declaration.value (some askedAsGroups)))
        ((registry ⟨measuredSources, []⟩).resolve (.text "main")
          (Declaration.value (some askedAsGroups))) := by
  refine ⟨rfl, rfl, fun h => ?_⟩
  have hkinds := h.map_eq_ok (f := fun t => t.kind? "v") (b := some .continuous) rfl
  cases hkinds

end Catalogue

end PlotGrammar

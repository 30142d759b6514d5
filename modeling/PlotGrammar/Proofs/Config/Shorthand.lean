import Mathlib.Logic.Relation
import PlotGrammar.Proofs.Config.Holding
import PlotGrammar.Proofs.Config.Options

/-!
# Shorthands and their long forms

Sections of a configuration may be written short: a data source by its name, a geometry by its name
or with its properties beside it, a statistic by its short form. `Layer.WritesOut` says that one
shorthand of a layer is written out, and `Config.WritesOut` that one of the whole configuration is.

Writing a shorthand out leaves a configuration without references one, does not change whether it
can be held, and what is held is read as the same plot (`Config.WritesOut.readAlike`). By induction
this holds for any number of shorthands (`Plot.ofConfig_of_writesOut`).

Properties beside a geometry need care: they become entries of the style. There a key may be
mistaken for another one, and what the style hides is no longer looked at
(`Layer.properties_kept_beside`).
-/

namespace PlotGrammar

open Value (get put)

/-! ### The short and the long form -/

namespace Layer

/-- Properties with a style laid over them. -/
def styled (properties style : List (Value × Value)) : List (Value × Value) :=
  if properties.isEmpty then style else Value.overlay properties style

/-- One shorthand of a layer is written out. -/
inductive WritesOut (own : List (Value × Value)) : List (Value × Value) → Prop
  /-- A source by its name. -/
  | data {s : Value} (hdata : get own "data" = s) (hname : s.characters?.isSome = true)
      (hgiven : s.isTruthy = true) : WritesOut own (put own "data" (.dict [(.text "source", s)]))
  /-- A geometry by its name. -/
  | geometry {g : Value} (hgeometry : get own "geometry" = g)
      (hname : g.characters?.isSome = true) :
      WritesOut own (put own "geometry" (.dict [(.text "type", g)]))
  /-- The properties beside a geometry, which are moved into the style: no key of theirs is printed
  like another key of the style, and the style hides nothing that cannot be held. -/
  | properties {parts properties style : List (Value × Value)} {g : Value}
      (hgeometry : get own "geometry" = .dict parts)
      (hparts : parts = [(.text "type", g), (.text "props", .dict properties)] ∨
        parts = [(.text "props", .dict properties), (.text "type", g)])
      (hsingle : ∀ inner, g ≠ .dict inner)
      (hstyle : get own "style" = .dict style ∨
        (get own "style").isTruthy = false ∧ style = [])
      (hapart : ∀ e ∈ properties, ∀ f ∈ style, Value.Apart e.1 f.1)
      (hheld : (Value.dict (styled properties style)).Held →
        (Value.dict properties).Held ∧ (Value.dict style).Held) :
      WritesOut own
        (put (put own "geometry" g) "style" (.dict (styled properties style)))
  /-- A statistic by its name. -/
  | stat {v : Value} {kind : StatKind} (hstat : get own "stat" = v)
      (hname : v.characters? = some kind.name) :
      WritesOut own (put own "stat" (.dict [(.text "kind", v)]))
  /-- A summary with its reduction. -/
  | summary {separator aggregator : String} (hseparator : separator ∈ ["-", "_", ":"])
      (hstat : get own "stat" = .text ("summary" ++ separator ++ aggregator))
      (hblank : Text.trim ("summary" ++ separator ++ aggregator) =
        "summary" ++ separator ++ aggregator) :
      WritesOut own (put own "stat"
        (.dict [(.text "kind", .text "summary"), (.text "aggregator", .text aggregator)]))

end Layer

/-- One shorthand of a configuration is written out: that of its data, or one of a layer. -/
inductive Config.WritesOut (own : List (Value × Value)) : List (Value × Value) → Prop
  | data {s : Value} (hdata : get own "data" = s) (hname : s.characters?.isSome = true)
      (hgiven : s.isTruthy = true) : WritesOut own (put own "data" (.dict [(.text "source", s)]))
  | layer {before after : List Value} {layer layer' : List (Value × Value)}
      (hlayers : get own "layers" = .list (before ++ .dict layer :: after))
      (hlayer : Layer.WritesOut layer layer') :
      WritesOut own (put own "layers" (.list (before ++ .dict layer' :: after)))

/-! ### Sections that are read alike -/

namespace Config

variable {s : Value}

theorem field_dict (own : List (Value × Value)) (key : String) :
    field (.dict own) key = get own key :=
  rfl

theorem table_source (catalogue : Catalogue) (hname : s.characters?.isSome = true)
    (hgiven : s.isTruthy = true) :
    table catalogue (.dict [(.text "source", s)]) = table catalogue s := by
  have hsource : field (.dict [(.text "source", s)]) "source" = s := rfl
  have hnone : ¬ (Value.dict [(.text "source", s)]).characters?.isSome = true := Bool.false_ne_true
  unfold table
  rw [if_pos hname, if_neg hnone, hsource]
  dsimp only
  rw [if_pos hgiven]
  rfl

theorem source_source (hname : s.characters?.isSome = true) :
    source (.dict [(.text "source", s)]) = source s :=
  (if_pos hname).symm

end Config

namespace StatConfig

theorem readKind_of_characters {v : Value} {kind : StatKind}
    (hname : v.characters? = some kind.name) : readKind v = .ok kind := by
  unfold readKind
  rw [hname, Option.bind_some, StatKind.ofName?_name]

theorem ofOptions_kind {v : Value} {kind : StatKind} (hname : v.characters? = some kind.name) :
    ofOptions [(.text "kind", v)] = .ok { kind := kind } := by
  have hkind := readKind_of_characters hname
  change (do pure { ({} : StatConfig) with kind := ← readKind v }) = _
  rw [hkind]
  rfl

theorem ofOptions_summary (aggregator : Value) :
    ofOptions [(.text "kind", .text "summary"), (.text "aggregator", aggregator)] =
      .ok { kind := .summary, aggregator := aggregator } :=
  rfl

theorem parse_name {v : Value} {kind : StatKind} (hname : v.characters? = some kind.name) :
    parse v = .ok { kind := kind } := by
  have htrim : Text.trim kind.name = kind.name := by cases kind <;> decide +kernel
  have hsummary : summaryName? kind.name = none := by cases kind <;> decide +kernel
  have hread : readKind (.text kind.name) = .ok kind := readKind_of_characters rfl
  -- a member of the vocabulary is written like its name
  have hplain : v.plain = kind.name := by
    cases v with
    | text t => exact Option.some.inj hname
    | member m => exact Option.some.inj hname
    | _ => exact nomatch hname
  unfold parse
  split
  · -- a member of the vocabulary is the kind itself, and is not looked at as a text
    next k =>
    obtain rfl : k = kind := by
      have hsame : k.name = kind.name := Option.some.inj hname
      have h := StatKind.ofName?_name k
      rw [hsame, StatKind.ofName?_name] at h
      exact (Option.some.inj h).symm
    rfl
  · rw [if_pos (Value.isWritable_of_characters (Option.isSome_iff_exists.2 ⟨_, hname⟩))]
    dsimp only
    rw [hplain, htrim, hsummary]
    dsimp only
    rw [hread]
    rfl

/-- What stands behind the word and a separator is the name of the reduction. -/
theorem summaryName?_append {separator : String} (hseparator : separator ∈ ["-", "_", ":"])
    (aggregator : String) :
    summaryName? ("summary" ++ separator ++ aggregator) = some aggregator := by
  simp only [List.mem_cons, List.not_mem_nil, or_false] at hseparator
  have hlist : ("summary" ++ separator ++ aggregator).toList =
      ['s', 'u', 'm', 'm', 'a', 'r', 'y'] ++ (separator.toList ++ aggregator.toList) := by
    rw [String.toList_append, String.toList_append, List.append_assoc]
    rfl
  unfold summaryName?
  rw [hlist]
  rcases hseparator with rfl | rfl | rfl <;>
    exact congrArg some (String.ofList_toList)

theorem parse_summary {separator aggregator : String} (hseparator : separator ∈ ["-", "_", ":"])
    (hblank : Text.trim ("summary" ++ separator ++ aggregator) =
      "summary" ++ separator ++ aggregator) :
    parse (.text ("summary" ++ separator ++ aggregator)) =
      .ok { kind := .summary, aggregator := .text aggregator } := by
  unfold parse
  dsimp only [Value.plain]
  rw [if_pos (Value.isWritable_of_characters rfl)]
  rw [hblank, summaryName?_append hseparator]

theorem ofConfig?_name {v : Value} (hname : v.characters?.isSome = true) :
    ofConfig? v = some <$> parse v := by
  cases v with
  | text t => exact bind_pure_comp some (parse (.text t))
  | member m => exact bind_pure_comp some (parse (.member m))
  | _ => exact nomatch hname

/-- A dictionary is read as its options. -/
theorem ofConfig?_dict {own : List (Value × Value)}
    (hknown : Config.Known (own.map (·.1)) optionNames) {v : Value} (hkind : get own "kind" = v)
    (hgiven : v ≠ .null) : ofConfig? (.dict own) = some <$> ofOptions own := by
  have hnames : Config.refuseUnknown (own.map (·.1)) optionNames .unknownStatOptions = .ok () :=
    Config.refuseUnknown_eq_ok.2 hknown
  have hlisted : (Config.optionNames (.dict own)).mapError Failure.fault =
      .ok (own.map (·.1)) := rfl
  have hread : (Source.readEntries (.dict own)).mapError Failure.fault = .ok own := rfl
  -- the names of the options are known, so what is left is reading them
  simp only [ofConfig?, Value.characters?, Option.isSome_none, Bool.false_eq_true, if_false,
    hlisted, hnames, hread, bind, Except.bind, hkind]
  cases v with
  | null => exact absurd rfl hgiven
  | _ => cases ofOptions own <;> rfl

end StatConfig

/-! ### One shorthand of a layer -/

namespace Layer

variable {own own' : List (Value × Value)}

/-- The style of a layer, where it has one, goes to what comes next. -/
theorem readStyle {β : Type} {v : Value} {style : List (Value × Value)}
    (h : v = .dict style ∨ v.isTruthy = false ∧ style = [])
    (f : List (Value × Value) → Except Failure β) :
    (if v.isTruthy = true then (Source.readEntries v).mapError Failure.fault >>= f
      else pure [] >>= f) = f style := by
  rcases h with rfl | ⟨hfalse, rfl⟩
  · cases style <;> rfl
  · rw [if_neg (Bool.eq_false_iff.1 hfalse)]
    rfl

theorem geometryOfConfig_congr (hgeometry : get own "geometry" = get own' "geometry")
    (hstyle : get own "style" = get own' "style") :
    geometryOfConfig (.dict own) = geometryOfConfig (.dict own') := by
  unfold geometryOfConfig
  dsimp only [Config.field_dict]
  rw [hgeometry, hstyle]

/-- A geometry that is no dictionary has the style of the layer. -/
theorem geometryOfConfig_of_single {g : Value} {style : List (Value × Value)}
    (hgeometry : get own "geometry" = g) (hsingle : ∀ inner, g ≠ .dict inner)
    (hstyle : get own "style" = .dict style ∨ (get own "style").isTruthy = false ∧ style = []) :
    geometryOfConfig (.dict own) = .ok (g, style) := by
  unfold geometryOfConfig
  dsimp only [Config.field_dict]
  refine (readStyle hstyle _).trans ?_
  rw [hgeometry]
  cases g with
  | dict inner => exact absurd rfl (hsingle inner)
  | _ => rfl

theorem geometryOfConfig_of_parts {parts properties style : List (Value × Value)}
    (hgeometry : get own "geometry" = .dict parts)
    (hproperties : get parts "props" = .dict properties)
    (hstyle : get own "style" = .dict style ∨ (get own "style").isTruthy = false ∧ style = []) :
    geometryOfConfig (.dict own) = .ok (get parts "type", styled properties style) := by
  unfold geometryOfConfig
  dsimp only [Config.field_dict]
  refine (readStyle hstyle _).trans ?_
  rw [hgeometry]
  change (if (get parts "props").isTruthy = true then _ else _) = _
  rw [hproperties]
  cases properties <;> rfl

/-- A geometry by its name is the same as its type alone. -/
theorem geometryOfConfig_type {g : Value} (hgeometry : get own "geometry" = g)
    (hname : g.characters?.isSome = true) :
    geometryOfConfig (.dict own) =
      geometryOfConfig (.dict (put own "geometry" (.dict [(.text "type", g)]))) := by
  unfold geometryOfConfig
  dsimp only [Config.field_dict]
  rw [hgeometry, Value.get_put_self, Value.get_put_of_ne (by decide)]
  cases g with
  | text t => rfl
  | member m => rfl
  | _ => exact nomatch hname

/-- A layer is read from five of its sections. -/
theorem ofConfig_congr {catalogue : Catalogue} {index : Nat}
    (hgeometry : geometryOfConfig (.dict own) = geometryOfConfig (.dict own'))
    (haesthetics : get own "aesthetics" = get own' "aesthetics")
    (hgiven : (get own "data").isTruthy = (get own' "data").isTruthy)
    (htable : Config.table catalogue (get own "data") = Config.table catalogue (get own' "data"))
    (hstat : StatConfig.ofConfig? (get own "stat") = StatConfig.ofConfig? (get own' "stat"))
    (hname : get own "name" = get own' "name") :
    ofConfig catalogue index (.dict own) = ofConfig catalogue index (.dict own') := by
  unfold ofConfig
  dsimp only [Config.field_dict]
  rw [hgeometry, haesthetics, hgiven, htable, hstat, hname]

/-- A layer whose data are read alike. -/
theorem ofConfig_put_data {catalogue : Catalogue} {index : Nat} {v : Value}
    (hgiven : (get own "data").isTruthy = v.isTruthy)
    (htable : Config.table catalogue (get own "data") = Config.table catalogue v) :
    ofConfig catalogue index (.dict own) =
      ofConfig catalogue index (.dict (put own "data" v)) := by
  have hother : ∀ key, "data" ≠ key → get own key = get (put own "data" v) key :=
    fun key hne => (Value.get_put_of_ne hne own v).symm
  refine ofConfig_congr (geometryOfConfig_congr (hother _ (by decide)) (hother _ (by decide)))
    (hother _ (by decide)) ?_ ?_ ?_ (hother _ (by decide))
  · rw [Value.get_put_self, hgiven]
  · rw [Value.get_put_self, htable]
  · rw [hother _ (by decide)]

/-- A layer whose statistic is read alike. -/
theorem ofConfig_put_stat {catalogue : Catalogue} {index : Nat} {v : Value}
    (h : StatConfig.ofConfig? (get own "stat") = StatConfig.ofConfig? v) :
    ofConfig catalogue index (.dict own) =
      ofConfig catalogue index (.dict (put own "stat" v)) := by
  have hother : ∀ key, "stat" ≠ key → get own key = get (put own "stat" v) key :=
    fun key hne => (Value.get_put_of_ne hne own v).symm
  refine ofConfig_congr (geometryOfConfig_congr (hother _ (by decide)) (hother _ (by decide)))
    (hother _ (by decide)) ?_ ?_ ?_ (hother _ (by decide))
  · rw [hother _ (by decide)]
  · rw [hother _ (by decide)]
  · rw [Value.get_put_self, h]

/-- A layer whose geometry is read alike, with its style. -/
theorem ofConfig_of_geometry {catalogue : Catalogue} {index : Nat}
    (h : geometryOfConfig (.dict own) = geometryOfConfig (.dict own'))
    (hother : ∀ key, "geometry" ≠ key → "style" ≠ key → get own key = get own' key) :
    ofConfig catalogue index (.dict own) = ofConfig catalogue index (.dict own') := by
  have hdata := hother "data" (by decide) (by decide)
  have hstat := hother "stat" (by decide) (by decide)
  exact ofConfig_congr h (hother _ (by decide) (by decide)) (by rw [hdata]) (by rw [hdata])
    (by rw [hstat]) (hother _ (by decide) (by decide))

section Properties

variable {parts properties style : List (Value × Value)} {g : Value}

theorem isPlain_styled (hproperties : (Value.dict properties).isPlain = true)
    (hstyle : (Value.dict style).isPlain = true) :
    (Value.dict (styled properties style)).isPlain = true := by
  unfold styled
  split
  · exact hstyle
  · exact Value.isPlain_overlay hproperties hstyle

theorem held_styled (hproperties : (Value.dict properties).Held)
    (hstyle : (Value.dict style).Held)
    (hapart : ∀ e ∈ properties, ∀ f ∈ style, Value.Apart e.1 f.1) :
    (Value.dict (styled properties style)).Held := by
  unfold styled
  split
  · exact hstyle
  · exact Value.held_overlay hproperties hstyle hapart

section Beside

variable (hgeometry : get own "geometry" = .dict parts)
  (hparts : parts = [(.text "type", g), (.text "props", .dict properties)] ∨
    parts = [(.text "props", .dict properties), (.text "type", g)])
  (hstyle : get own "style" = .dict style ∨ (get own "style").isTruthy = false ∧ style = [])

include hgeometry hparts hstyle

/-- Properties beside a geometry are read as entries of the style. -/
theorem geometryOfConfig_properties (hsingle : ∀ inner, g ≠ .dict inner) :
    geometryOfConfig (.dict own) = geometryOfConfig
      (.dict (put (put own "geometry" g) "style" (.dict (styled properties style)))) := by
  have htype : get parts "type" = g := by
    rcases hparts with rfl | rfl <;> rfl
  have hproperties : get parts "props" = .dict properties := by
    rcases hparts with rfl | rfl <;> rfl
  have hmoved : get (put (put own "geometry" g) "style" (.dict (styled properties style)))
      "geometry" = g :=
    (Value.get_put_of_ne (by decide) _ _).trans (Value.get_put_self _ _ _)
  rw [geometryOfConfig_of_parts hgeometry hproperties hstyle, htype,
    geometryOfConfig_of_single hmoved hsingle (Or.inl (Value.get_put_self _ _ _))]

/-- Properties beside a geometry can be held if they can be held as entries of the style: they and
the style are apart, and nothing that cannot be held is hidden. -/
theorem held_properties_iff (hapart : ∀ e ∈ properties, ∀ f ∈ style, Value.Apart e.1 f.1)
    (hheld : (Value.dict (styled properties style)).Held →
      (Value.dict properties).Held ∧ (Value.dict style).Held) :
    (Value.dict own).Held ↔ (Value.dict
      (put (put own "geometry" g) "style" (.dict (styled properties style)))).Held := by
  -- the section of the geometry is held exactly if its type and its properties are
  have hboth : (get own "geometry").Held ↔ g.Held ∧ (Value.dict properties).Held := by
    rw [hgeometry]
    rcases hparts with rfl | rfl
    · exact Value.held_pair (by decide)
    · exact (Value.held_pair (by decide)).trans and_comm
  -- a style that is left out, or is not a dict, counts as one without entries
  have hown : (get own "style").Held ↔ (Value.dict style).Held := by
    rcases hstyle with hstyle | ⟨hfalse, rfl⟩
    · rw [hstyle]
    · exact iff_of_true (Value.held_of_not_truthy hfalse) rfl
  -- the type is put in place of both, and then the properties join the style
  have hput : get (put own "geometry" g) "style" = get own "style" :=
    Value.get_put_of_ne (by decide) _ _
  have hfirst : (Value.dict (put own "geometry" g)).Held ∧ g.Held ∧ (Value.dict properties).Held ↔
      (Value.dict own).Held ∧ g.Held := by
    rw [← hboth]
    exact Value.held_put (by decide) g
  have hsecond : (Value.dict (put (put own "geometry" g) "style"
        (.dict (styled properties style)))).Held ∧ (Value.dict style).Held ↔
      (Value.dict (put own "geometry" g)).Held ∧ (Value.dict (styled properties style)).Held := by
    rw [← hown, ← hput]
    exact Value.held_put (by decide) _
  constructor
  · intro h
    obtain ⟨hg, hproperties⟩ := hboth.1 (Value.held_get (by decide) h)
    have hlaid := held_styled hproperties (hown.1 (Value.held_get (by decide) h)) hapart
    exact (hsecond.2 ⟨(hfirst.2 ⟨h, hg⟩).1, hlaid⟩).1
  · -- here the style is known to be held only with the properties in it
    intro h
    have hlaid := Value.held_get (by decide : Value.IsWord "style") h
    rw [Value.get_put_self] at hlaid
    obtain ⟨hproperties, hstyle⟩ := hheld hlaid
    have hmoved := (hsecond.1 ⟨h, hstyle⟩).1
    have hg := Value.held_get (by decide : Value.IsWord "geometry") hmoved
    rw [Value.get_put_self] at hg
    exact (hfirst.1 ⟨hmoved, hg, hproperties⟩).1

end Beside

end Properties

/-- **A shorthand of a layer and its long form are read as the same layer.** -/
theorem WritesOut.ofConfig_eq (h : WritesOut own own') (catalogue : Catalogue) (index : Nat) :
    ofConfig catalogue index (.dict own) = ofConfig catalogue index (.dict own') := by
  -- one case for each shorthand: what the layer reads under the key it writes out is the same
  cases h with
  | data hdata hname hgiven =>
    refine ofConfig_put_data ?_ ?_
    · rw [hdata, hgiven]
      rfl
    · rw [hdata, Config.table_source catalogue hname hgiven]
  | geometry hgeometry hname =>
    exact ofConfig_of_geometry (geometryOfConfig_type hgeometry hname)
      fun key hne _ => (Value.get_put_of_ne hne _ _).symm
  | properties hgeometry hparts hsingle hstyle =>
    exact ofConfig_of_geometry (geometryOfConfig_properties hgeometry hparts hstyle hsingle)
      fun key hne hne' =>
        ((Value.get_put_of_ne hne' _ _).trans (Value.get_put_of_ne hne _ _)).symm
  -- the short form is the name of the kind
  | @stat v kind hstat hname =>
    refine ofConfig_put_stat ?_
    have hgiven : v ≠ .null := by
      rintro rfl
      exact nomatch hname
    -- the section that is written out has known keys only, and names its kind
    have hknown : Config.Known [.text "kind"] StatConfig.optionNames := by decide
    have hlong : StatConfig.ofConfig? (.dict [(.text "kind", v)]) = _ :=
      StatConfig.ofConfig?_dict hknown rfl hgiven
    rw [hstat, StatConfig.ofConfig?_name (hname ▸ rfl), StatConfig.parse_name hname, hlong,
      StatConfig.ofOptions_kind hname]
  | @summary separator aggregator hseparator hstat hblank =>
    refine ofConfig_put_stat ?_
    have hknown : Config.Known [.text "kind", .text "aggregator"] StatConfig.optionNames := by
      decide
    have hlong : StatConfig.ofConfig?
        (.dict [(.text "kind", .text "summary"), (.text "aggregator", .text aggregator)]) = _ :=
      StatConfig.ofConfig?_dict hknown rfl (fun h => nomatch h)
    rw [hstat, StatConfig.ofConfig?_name rfl, StatConfig.parse_summary hseparator hblank, hlong,
      StatConfig.ofOptions_summary]

/-- The end of a text without references has none. -/
theorem isPlain_text_append {s t : String} (h : (Value.text (s ++ t)).isPlain = true) :
    (Value.text t).isPlain = true := by
  have hplain : Reference.IsPlain (s ++ t) := of_decide_eq_true h
  refine decide_eq_true (p := Reference.IsPlain t) fun hin => hplain ?_
  rw [String.toList_append]
  exact hin.trans (List.suffix_append _ _).isInfix

/-- Writing out a shorthand brings no reference into a layer. -/
theorem WritesOut.isPlain (h : WritesOut own own') (hplain : (Value.dict own).isPlain = true) :
    (Value.dict own').isPlain = true := by
  have hget := Value.isPlain_get hplain
  -- what is written out is made of parts of what was there
  cases h with
  | data hdata =>
    refine Value.isPlain_put hplain ?_
    rw [Value.isPlain_single, ← hdata]
    exact hget _
  | geometry hgeometry =>
    refine Value.isPlain_put hplain ?_
    rw [Value.isPlain_single, ← hgeometry]
    exact hget _
  -- the type and the properties are the two values of the section they came from
  | @properties parts properties style g hgeometry hparts _ hstyle =>
    have hboth := hget "geometry"
    rw [hgeometry, Value.isPlain_dict] at hboth
    have hg : g.isPlain = true := hboth (.text "type", g) (by rcases hparts with rfl | rfl <;> simp)
    have hproperties : (Value.dict properties).isPlain = true :=
      hboth (.text "props", .dict properties) (by rcases hparts with rfl | rfl <;> simp)
    have hown : (Value.dict style).isPlain = true := by
      rcases hstyle with hstyle | ⟨-, rfl⟩
      · exact hstyle ▸ hget "style"
      · rfl
    exact Value.isPlain_put (Value.isPlain_put hplain hg) (isPlain_styled hproperties hown)
  | stat hstat =>
    refine Value.isPlain_put hplain ?_
    rw [Value.isPlain_single, ← hstat]
    exact hget _
  | @summary separator aggregator _ hstat =>
    have htext := hget "stat"
    -- the text is split, and both parts of a plain text are plain
    rw [hstat] at htext
    have hkind : (Value.text "summary").isPlain = true := by decide +kernel
    refine Value.isPlain_put hplain (Value.isPlain_dict.2 fun e he => ?_)
    rcases List.mem_pair.1 he with rfl | rfl
    · exact hkind
    · exact isPlain_text_append htext

/-- **Writing out a shorthand does not change whether a layer can be held.** -/
theorem WritesOut.held_iff (h : WritesOut own own') (hplain : (Value.dict own).isPlain = true) :
    (Value.dict own).Held ↔ (Value.dict own').Held := by
  -- each shorthand is held exactly if what it is written out to is
  cases h with
  | data hdata => exact Value.held_put_iff (by decide) (hdata ▸ Value.held_single.symm)
  | geometry hgeometry => exact Value.held_put_iff (by decide) (hgeometry ▸ Value.held_single.symm)
  | properties hgeometry hparts _ hstyle hapart hheld =>
    exact held_properties_iff hgeometry hparts hstyle hapart hheld
  | stat hstat => exact Value.held_put_iff (by decide) (hstat ▸ Value.held_single.symm)
  | @summary separator aggregator _ hstat =>
    have htext := Value.isPlain_get hplain "stat"
    -- the short text is split in two texts, of which both are plain
    rw [hstat] at htext
    have hkind : (Value.text "summary").isPlain = true := by decide +kernel
    have hlong : (Value.dict
        [(.text "kind", .text "summary"), (.text "aggregator", .text aggregator)]).Held :=
      (Value.held_pair (by decide)).2
        ⟨Value.held_of_isPlain hkind, Value.held_of_isPlain (isPlain_text_append htext)⟩
    refine Value.held_put_iff (by decide) (iff_of_true ?_ hlong)
    rw [hstat]
    exact Value.held_of_isPlain htext

end Layer

/-! ### One shorthand of a configuration -/

namespace Layer

/-- Layers that are read alike one by one are read alike. -/
theorem listOfConfig_replace {catalogue : Catalogue} {v w : Value} {after : List Value}
    (h : ∀ index, ofConfig catalogue index v = ofConfig catalogue index w) (before : List Value)
    (index : Nat) :
    listOfConfig catalogue index (before ++ v :: after) =
      listOfConfig catalogue index (before ++ w :: after) := by
  induction before generalizing index with
  | nil =>
    rw [List.nil_append, List.nil_append, listOfConfig, listOfConfig, h]
  | cons u us ih =>
    rw [List.cons_append, List.cons_append, listOfConfig, listOfConfig, ih]

end Layer

namespace Config

variable {own own' : List (Value × Value)}

theorem entries_of_held (hplain : (Value.dict own).isPlain = true) (hheld : (Value.dict own).Held) :
    entries (.dict own) = .ok own := by
  rw [entries_of_isPlain hplain, hheld]
  rfl

theorem WritesOut.isPlain (h : WritesOut own own') (hplain : (Value.dict own).isPlain = true) :
    (Value.dict own').isPlain = true := by
  have hget := Value.isPlain_get hplain
  -- what is put back is plain because it stands in a plain entry already
  cases h with
  | data hdata =>
    refine Value.isPlain_put hplain ?_
    rw [Value.isPlain_single, ← hdata]
    exact hget _
  | @layer before after layer layer' hlayers hlayer =>
    have hitems := hget "layers"
    rw [hlayers, Value.isPlain_list, List.forall_mem_append, List.forall_mem_cons] at hitems
    refine Value.isPlain_put hplain ?_
    rw [Value.isPlain_list, List.forall_mem_append, List.forall_mem_cons]
    exact ⟨hitems.1, hlayer.isPlain hitems.2.1, hitems.2.2⟩

theorem WritesOut.held_iff (h : WritesOut own own') (hplain : (Value.dict own).isPlain = true) :
    (Value.dict own).Held ↔ (Value.dict own').Held := by
  cases h with
  | data hdata => exact Value.held_put_iff (by decide) (hdata ▸ Value.held_single.symm)
  | @layer before after layer layer' hlayers hlayer =>
    have hitems := Value.isPlain_get hplain "layers"
    rw [hlayers, Value.isPlain_list, List.forall_mem_append, List.forall_mem_cons] at hitems
    refine Value.held_put_iff (by decide) ?_
    rw [hlayers, Value.held_list, Value.held_list, List.forall_mem_append, List.forall_mem_append,
      List.forall_mem_cons, List.forall_mem_cons, hlayer.held_iff hitems.2.1]

/-- **A shorthand of a configuration and its long form are read as the same plot**, where both can
be held. -/
theorem WritesOut.ofConfig_eq (h : WritesOut own own') (hentries : entries (.dict own) = .ok own)
    (hentries' : entries (.dict own') = .ok own') (catalogue : Catalogue) :
    Plot.ofConfig catalogue (.dict own) = Plot.ofConfig catalogue (.dict own') := by
  unfold Plot.ofConfig
  rw [hentries, hentries']
  change (pure own >>= _ : Logged Plot) = pure own' >>= _
  rw [pure_bind, pure_bind]
  cases h with
  | @data s hdata hname hgiven =>
    have hother : ∀ v key, "data" ≠ key → get (put own "data" v) key = get own key :=
      fun v key hne => Value.get_put_of_ne hne own v
    dsimp only
    rw [hdata, Value.get_put_self, hother _ "layers" (by decide),
      hother _ "aesthetics" (by decide)]
    have htruthy : (Value.dict [(.text "source", s)]).isTruthy = true := rfl
    -- in neither form is the source taken to be unnamed
    have hshort : (s.characters?.isNone && (field s "source").given?.isNone) = false := by
      rw [← Option.not_isSome, hname]
      rfl
    have hlong : ((Value.dict [(.text "source", s)]).characters?.isNone &&
        (field (.dict [(.text "source", s)]) "source").given?.isNone) = false := by
      change s.given?.isNone = false
      cases s with
      | null => exact nomatch hname
      | _ => rfl
    rw [if_pos hgiven, if_pos htruthy, hshort, hlong, table_source catalogue hname hgiven,
      source_source hname]
  -- one layer is replaced by one that is read as the same layer
  | @layer before after layer layer' hlayers hlayer =>
    have hother : ∀ v key, "layers" ≠ key → get (put own "layers" v) key = get own key :=
      fun v key hne => Value.get_put_of_ne hne own v
    dsimp only
    rw [hother _ "data" (by decide), hother _ "aesthetics" (by decide), hlayers,
      Value.get_put_self]
    have htruthy : ∀ l, (Value.list (before ++ .dict l :: after)).isTruthy = true := by
      intro l
      cases before <;> rfl
    simp only [htruthy, if_true, pure_bind,
      Layer.listOfConfig_replace (hlayer.ofConfig_eq catalogue)]

end Config

/-! ### Any number of shorthands -/

/-- A configuration without references and one in which shorthands of it are written out: either
both can be held and are read as the same plot, or none of them can be held. -/
structure Config.ReadAlike (own own' : List (Value × Value)) : Prop where
  plain : (Value.dict own').isPlain = true
  held_iff : (Value.dict own).Held ↔ (Value.dict own').Held
  ofConfig_eq : (Value.dict own).Held → ∀ catalogue,
    Plot.ofConfig catalogue (.dict own) = Plot.ofConfig catalogue (.dict own')

/-- What one shorthand preserves. -/
theorem Config.WritesOut.readAlike {own own' : List (Value × Value)} (h : WritesOut own own')
    (hplain : (Value.dict own).isPlain = true) : ReadAlike own own' where
  plain := h.isPlain hplain
  held_iff := h.held_iff hplain
  ofConfig_eq hheld := h.ofConfig_eq (entries_of_held hplain hheld)
    (entries_of_held (h.isPlain hplain) ((h.held_iff hplain).1 hheld))

/-- What any number of shorthands preserves. -/
theorem Config.readAlike_of_writesOut {own own' : List (Value × Value)}
    (hplain : (Value.dict own).isPlain = true) (h : Relation.ReflTransGen WritesOut own own') :
    ReadAlike own own' := by
  induction h with
  | refl => exact ⟨hplain, Iff.rfl, fun _ _ => rfl⟩
  | tail _ hstep ih =>
    -- the next shorthand is that of a configuration without references again
    have hnext := hstep.readAlike ih.plain
    exact ⟨hnext.plain, ih.held_iff.trans hnext.held_iff, fun hheld catalogue =>
      (ih.ofConfig_eq hheld catalogue).trans (hnext.ofConfig_eq (ih.held_iff.1 hheld) catalogue)⟩

/-- A configuration that cannot be held is read as no plot. -/
theorem Plot.held_of_ofConfig {own : List (Value × Value)}
    (hplain : (Value.dict own).isPlain = true) {catalogue : Catalogue} {plot : Plot}
    (h : (Plot.ofConfig catalogue (.dict own)).outcome = .ok plot) : (Value.dict own).Held := by
  unfold Plot.ofConfig at h
  -- a configuration that was read was vetted before
  obtain ⟨entries, hentries, -⟩ := Logged.bind_eq_ok.1 h
  change Config.entries (.dict own) = .ok entries at hentries
  rw [Config.entries_of_isPlain hplain] at hentries
  unfold Value.Held
  cases hvet : (Value.dict own).vet with
  | ok u => rfl
  | error f =>
    rw [hvet] at hentries
    exact nomatch hentries

/-- **Shorthands mean their long forms.** Writing any of them out, in the root and in any layer of a
configuration without references, changes neither whether there is a plot nor which one. -/
theorem Plot.ofConfig_of_writesOut (catalogue : Catalogue) {own own' : List (Value × Value)}
    (hplain : (Value.dict own).isPlain = true)
    (h : Relation.ReflTransGen Config.WritesOut own own') (plot : Plot) :
    (Plot.ofConfig catalogue (.dict own)).outcome = .ok plot ↔
      (Plot.ofConfig catalogue (.dict own')).outcome = .ok plot := by
  have halike := Config.readAlike_of_writesOut hplain h
  -- both ways, since either side can be the one that is known to be held
  constructor
  · intro hplot
    rw [← halike.ofConfig_eq (held_of_ofConfig hplain hplot)]
    exact hplot
  · intro hplot
    rw [halike.ofConfig_eq (halike.held_iff.2 (held_of_ofConfig halike.plain hplot))]
    exact hplot

/-! ### Layers written short and written out -/

/-- A catalogue of a single source, which has no columns. -/
def Catalogue.bare : Catalogue :=
  .listing [(.text "cases", .frame ⟨[], 0, fun _ h => absurd h List.not_mem_nil⟩)]

/-- A configuration of one layer. -/
def Config.ofLayer (data : Value) (layer : List (Value × Value)) : List (Value × Value) :=
  [(.text "data", data), (.text "layers", .list [.dict layer])]

namespace Layer

/-- The sections of a layer. -/
def sections (geometry : Value) (style : List (Value × Value)) (stat : Value) :
    List (Value × Value) :=
  [(.text "geometry", geometry), (.text "style", .dict style), (.text "stat", stat)]

/-- A geometry with its properties beside it. -/
def beside (geometry : Value) (properties : List (Value × Value)) : Value :=
  .dict [(.text "type", geometry), (.text "props", .dict properties)]

/-- Blue points of a size, written short. -/
def shortPoints : List (Value × Value) :=
  sections (beside (.text "point") [(.text "color", .text "red"), (.text "size", .int 2)])
    [(.text "color", .text "blue")] (.text "summary-sum")

/-- The same points written out. -/
def longPoints : List (Value × Value) :=
  sections (.dict [(.text "type", .text "point")])
    [(.text "color", .text "blue"), (.text "size", .int 2)]
    (.dict [(.text "kind", .text "summary"), (.text "aggregator", .text "sum")])

theorem writesOut_shortPoints : Relation.ReflTransGen WritesOut shortPoints longPoints := by
  -- the two dicts of properties are merged, so each of them has to be held by itself
  have hheld : (Value.dict [(.text "color", .text "red"), (.text "size", .int 2)]).Held ∧
      (Value.dict [(.text "color", .text "blue")]).Held := by
    decide +kernel
  have hproperties : WritesOut shortPoints (sections (.text "point")
      [(.text "color", .text "blue"), (.text "size", .int 2)] (.text "summary-sum")) :=
    .properties (g := .text "point") rfl (Or.inl rfl) (fun _ h => nomatch h) (Or.inl rfl)
      (by decide +kernel) fun _ => hheld
  have hgeometry : ∀ style stat, WritesOut (sections (.text "point") style stat)
      (sections (.dict [(.text "type", .text "point")]) style stat) :=
    fun _ _ => .geometry (g := .text "point") rfl rfl
  have hstat : ∀ geometry style, WritesOut (sections geometry style (.text "summary-sum"))
      (sections geometry style
        (.dict [(.text "kind", .text "summary"), (.text "aggregator", .text "sum")])) :=
    fun _ _ => @WritesOut.summary _ "-" "sum" (by decide) rfl (by decide +kernel)
  exact .tail (.tail (.tail .refl hproperties) (hgeometry _ _)) (hstat _ _)

end Layer

namespace Config

open Layer (shortPoints longPoints sections beside)

theorem writesOut_ofLayer {data : Value} {layer layer' : List (Value × Value)}
    (h : Layer.WritesOut layer layer') : WritesOut (ofLayer data layer) (ofLayer data layer') :=
  @WritesOut.layer _ [] [] layer layer' rfl h

theorem writesOut_shortPoints :
    Relation.ReflTransGen WritesOut (ofLayer (.text "cases") shortPoints)
      (ofLayer (.dict [(.text "source", .text "cases")]) longPoints) := by
  have hdata : WritesOut (ofLayer (.text "cases") shortPoints)
      (ofLayer (.dict [(.text "source", .text "cases")]) shortPoints) :=
    .data (s := .text "cases") rfl rfl rfl
  exact .head hdata (Relation.ReflTransGen.lift (ofLayer _) (fun _ _ => writesOut_ofLayer) _ _
    Layer.writesOut_shortPoints)

end Config

/-- The points are read, and from both forms as the same plot. -/
theorem Plot.ofConfig_of_writesOut_points :
    (Value.dict (Config.ofLayer (.text "cases") Layer.shortPoints)).isPlain = true ∧
      Relation.ReflTransGen Config.WritesOut (Config.ofLayer (.text "cases") Layer.shortPoints)
        (Config.ofLayer (.dict [(.text "source", .text "cases")]) Layer.longPoints) ∧
      ∃ plot,
        (Plot.ofConfig .bare (.dict (Config.ofLayer (.text "cases") Layer.shortPoints))).outcome =
          .ok plot ∧
        (Plot.ofConfig .bare (.dict (Config.ofLayer (.dict [(.text "source", .text "cases")])
          Layer.longPoints))).outcome = .ok plot := by
  -- both configurations are small and closed, and one of them is read by evaluation
  have hplain : (Value.dict (Config.ofLayer (.text "cases") Layer.shortPoints)).isPlain = true := by
    decide +kernel
  have hread : (Plot.ofConfig .bare
      (.dict (Config.ofLayer (.text "cases") Layer.shortPoints))).outcome.isOk = true := by
    decide +kernel
  refine ⟨hplain, Config.writesOut_shortPoints, ?_⟩
  cases hplot : (Plot.ofConfig .bare
      (.dict (Config.ofLayer (.text "cases") Layer.shortPoints))).outcome with
  | ok plot =>
    exact ⟨plot, rfl,
      (ofConfig_of_writesOut .bare hplain Config.writesOut_shortPoints plot).1 hplot⟩
  | error e =>
    rw [hplot] at hread
    exact nomatch hread

/-- Whether a layer is read, over a source without columns. -/
def Layer.isRead (layer : List (Value × Value)) : Bool :=
  (Plot.ofConfig .bare (.dict (Config.ofLayer (.text "cases") layer))).outcome.isOk

open Layer (beside sections) in
/-- **Properties are not always moved into the style without harm.** A key of theirs may be mistaken
for another key of the style, the style may hide what cannot be held, and the type may be written
with a type of its own. -/
theorem Layer.properties_kept_beside :
    (isRead (sections (beside (.text "point") [(.int 1, .text "red")])
          [(.text "1", .text "blue")] .null) = true ∧
        isRead (sections (.text "point") [(.int 1, .text "red"), (.text "1", .text "blue")]
          .null) = false) ∧
      (isRead (sections (beside (.text "point") [(.text "at", .time ⟨0⟩)])
          [(.text "at", .int 1)] .null) = false ∧
        isRead (sections (.text "point") [(.text "at", .int 1)] .null) = true) ∧
      (isRead (sections (beside (.dict [(.text "type", .text "point")]) [(.text "size", .int 1)])
          [] .null) = false ∧
        isRead (sections (.dict [(.text "type", .text "point")]) [(.text "size", .int 1)]
          .null) = true) := by
  decide +kernel

end PlotGrammar

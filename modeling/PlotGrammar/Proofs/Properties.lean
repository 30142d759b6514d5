import PlotGrammar.Proofs.Drawing
import PlotGrammar.Proofs.Mapping.Entries
import PlotGrammar.Proofs.Table.Declared

/-!
# Constants on a mark

A channel that is bound to a constant is drawn as a property of the mark. The constants of a mapping
are laid over the style of a layer under the names of their channels, and the result is read as
properties of the mark, where a style may name a property in two ways.

* `Chart.lookupIn_markProperties`: a property has the value of the entry that comes last among those
  that stand for it (`Chart.lastFor?`).
* `Chart.lastFor?_overlay`: a constant takes the place of an entry under the name of its channel,
  and comes last where there is none. So it comes last, unless the style names the property behind
  it (`Chart.hiding?`).
* `Chart.constants_drawn` says so of the units of a plot. Only transparency and line types have
  channels that are not called like their properties.
-/

namespace PlotGrammar

open Value (characters? lookupIn same_of_characters same_of_characters_left)

namespace Chart

/-- The property of a mark that a channel is drawn as. -/
def property : Channel → String
  | .alpha => "opacity"
  | .linetype => "strokeDash"
  | c => c.name

/-- The value that a property shows where it is given one: a dash pattern may be given by name. -/
def drawnValue (p : String) (v : Value) : Value :=
  if p = "strokeDash" then
    match v.characters?.bind fun name => dashes.lookup name with
    | some pattern => .list (pattern.map .int)
    | none => v
  else v

/-- Whether a style key stands for a property. -/
def standsFor (p : String) (key : Value) : Bool :=
  (propertyName key).same (.text p)

/-- The entry of a style that comes last among those that stand for a property. -/
def lastFor? (style : List (Value × Value)) (p : String) : Option (Value × Value) :=
  style.foldr (fun e later => later.or (if standsFor p e.1 then some e else none)) none

/-- Whether a style has an entry under the name of a channel. -/
def gives (style : List (Value × Value)) (c : Channel) : Bool :=
  style.any fun e => e.1.same (.text c.name)

/-- The value that hides a constant of a channel: the style has an entry under the name of the
channel, but of those that stand for its property another one comes last. -/
def hiding? (style : List (Value × Value)) (c : Channel) : Option Value :=
  if gives style c then
    ((lastFor? style (property c)).filter fun e => !e.1.same (.text c.name)).map (·.2)
  else none

/-! ### Names of properties -/

section Names

variable {c d : Channel} {key : Value}

theorem property_injective (h : property c = property d) : c = d := by
  revert h
  cases c <;> cases d <;> decide

theorem property_ne_group (h : c ≠ .group) : property c ≠ "group" := by
  revert h
  cases c <;> decide

theorem property_ne_shorthand (c : Channel) : property c ≠ "shorthand" := by
  cases c <;> decide

theorem characters?_propertyName (key : Value) :
    (propertyName key).characters? =
      key.characters?.map fun s => (styleAliases.lookup s).getD s := by
  unfold propertyName
  cases hkey : key.characters? with
  | none => exact hkey
  | some s =>
    rw [Option.bind_some, Option.map_some]
    cases styleAliases.lookup s with
    | none => exact hkey
    | some name => rfl

theorem standsFor_eq (p : String) (key : Value) :
    standsFor p key = ((propertyName key).characters? == some p) :=
  same_of_characters rfl

/-- The name of a channel stands for its property and for no other. -/
theorem standsFor_of_same (h : key.same (.text c.name) = true) (d : Channel) :
    standsFor (property d) key = decide (d = c) := by
  rw [same_of_characters rfl, beq_iff_eq] at h
  have hname : (styleAliases.lookup c.name).getD c.name = property c := by
    cases c <;> decide
  rw [standsFor_eq, characters?_propertyName, h, Option.map_some, hname, Bool.eq_iff_iff,
    beq_iff_eq, Option.some.injEq, decide_eq_true_eq]
  exact ⟨fun h => (property_injective h).symm, fun h => congrArg property h.symm⟩

/-- A channel that is called like its property is not hidden. -/
theorem same_of_standsFor (hname : property c = c.name) (h : standsFor (property c) key = true) :
    key.same (.text c.name) = true := by
  rw [standsFor_eq, characters?_propertyName, beq_iff_eq, Option.map_eq_some_iff] at h
  obtain ⟨s, hs, hproperty⟩ := h
  rw [same_of_characters rfl, hs, beq_iff_eq]
  cases hlookup : styleAliases.lookup s with
  | none =>
    rw [hlookup, Option.getD_none] at hproperty
    exact congrArg some (hproperty.trans hname)
  | some other =>
    -- what another spelling stands for is the name of no channel
    rw [hlookup, Option.getD_some, hname] at hproperty
    subst hproperty
    obtain ⟨before, after, hsplit, -⟩ := List.lookup_eq_some_iff.1 hlookup
    have hmem : c.name ∈ styleAliases.map (·.2) := by
      rw [hsplit]
      simp
    have hnot : c.name ∉ styleAliases.map (·.2) := by
      cases c <;> decide
    exact absurd hmem hnot

end Names

/-! ### The properties of a mark -/

section Mark

variable {style props props' : List (Value × Value)} {p : String}

theorem lastFor?_cons (first : Value × Value) (rest : List (Value × Value)) (p : String) :
    lastFor? (first :: rest) p =
      (lastFor? rest p).or (if standsFor p first.1 then some first else none) := rfl

theorem drawnValue_of_propertyValue {name v w : Value} (hname : name.characters? = some p)
    (h : propertyValue name v = .ok w) : w = drawnValue p v := by
  -- the only property that is translated is told by its name
  have hsame : name.same (.text "strokeDash") = decide (p = "strokeDash") := by
    rw [same_of_characters rfl, hname, Bool.eq_iff_iff, beq_iff_eq, Option.some.injEq,
      decide_eq_true_eq]
  unfold propertyValue at h
  unfold drawnValue
  rw [hsame] at h
  by_cases hp : p = "strokeDash"
  · rw [decide_eq_true hp] at h
    rw [if_pos hp]
    -- a pattern that is no text is drawn as it is given
    cases hv : v.characters? with
    | none =>
      rw [hv] at h
      cases h
      rfl
    | some given =>
      rw [hv] at h
      rw [Option.bind_some]
      dsimp only at h ⊢
      cases hpattern : dashes.lookup given with
      | none =>
        rw [hpattern] at h
        exact nomatch h
      | some pattern =>
        rw [hpattern] at h
        cases h
        rfl
  -- any other property is drawn as it is given
  · rw [decide_eq_false hp] at h
    rw [if_neg hp]
    cases h
    rfl

/-- A style entry gives its property a value, unless the property is a group, and no other one. -/
theorem lookupIn_addProperty {e : Value × Value} (hp : p ≠ "group")
    (h : addProperty props e = .ok props') :
    lookupIn props' p =
      if standsFor p e.1 then some (drawnValue p e.2) else lookupIn props p := by
  obtain ⟨v, hv, h⟩ := bind_eq_ok.1 h
  rw [standsFor_eq]
  -- the group is no property of a mark, so it is passed over
  split at h
  · next hgroup =>
    cases h
    rw [same_of_characters rfl, beq_iff_eq] at hgroup
    rw [hgroup, if_neg fun heq => hp (Option.some.inj (beq_iff_eq.1 heq)).symm]
  · cases h
    rw [Value.lookupIn_insert]
    by_cases hname : (propertyName e.1).characters? = some p
    · rw [if_pos hname, hname, if_pos (beq_self_eq_true _), drawnValue_of_propertyValue hname hv]
    · rw [if_neg hname, if_neg fun heq => hname (beq_iff_eq.1 heq)]

/-- **A property shows the value of the entry that comes last among those that stand for it.** -/
theorem lookupIn_markProperties (hp : p ≠ "group")
    (h : style.foldlM addProperty props = .ok props') :
    lookupIn props' p =
      ((lastFor? style p).map fun e => drawnValue p e.2).or (lookupIn props p) := by
  -- from the front, since a later entry overwrites the value that an earlier one gave
  induction style generalizing props with
  | nil =>
    cases h
    exact (Option.none_or).symm
  | cons first rest ih =>
    rw [List.foldlM_cons] at h
    obtain ⟨between, hfirst, hrest⟩ := bind_eq_ok.1 h
    rw [ih hrest, lookupIn_addProperty hp hfirst, lastFor?_cons]
    cases lastFor? rest p with
    | some e => rfl
    | none =>
      rw [Option.map_none, Option.none_or, Option.none_or]
      split <;> rfl

end Mark

/-! ### Constants over a style -/

section Overlay

variable {style entries : List (Value × Value)} {c d : Channel} {v w : Value}

theorem lastFor?_append (entries others : List (Value × Value)) (p : String) :
    lastFor? (entries ++ others) p = (lastFor? others p).or (lastFor? entries p) := by
  induction entries with
  | nil => exact (Option.or_none).symm
  | cons first rest ih => rw [List.cons_append, lastFor?_cons, ih, lastFor?_cons, Option.or_assoc]

/-- New values under the same keys leave the last entry at its place. -/
theorem lastFor?_map {f : Value × Value → Value × Value} (hf : ∀ e, (f e).1 = e.1)
    (entries : List (Value × Value)) (p : String) :
    lastFor? (entries.map f) p = (lastFor? entries p).map f := by
  induction entries with
  | nil => rfl
  | cons first rest ih =>
    rw [List.map_cons, lastFor?_cons, ih, lastFor?_cons, hf, Option.map_or]
    split <;> rfl

theorem standsFor_of_lastFor? {e : Value × Value} {p : String} (h : lastFor? entries p = some e) :
    standsFor p e.1 = true := by
  induction entries with
  | nil => exact nomatch h
  | cons first rest ih =>
    rw [lastFor?_cons] at h
    rcases Option.or_eq_some_iff.1 h with h | ⟨-, h⟩
    · exact ih h
    · split at h
      · next hfirst =>
        cases h
        exact hfirst
      · exact nomatch h

/-- The entry for one channel, when a constant of a channel is put into a style. -/
theorem lastFor?_insert (entries : List (Value × Value)) (c : Channel) (v : Value) (p : String) :
    lastFor? (Value.insert entries (.text c.name) v) p =
      if gives entries c then
        (lastFor? entries p).map fun e => if e.1.same (.text c.name) then (e.1, v) else e
      else (if standsFor p (.text c.name) then some (.text c.name, v) else none).or
        (lastFor? entries p) := by
  unfold Value.insert
  change lastFor? (if gives entries c = true then _ else _) p = _
  -- an entry for the channel is overwritten where it stands, and else one is added at the end
  split
  · refine lastFor?_map (fun e => ?_) entries p
    split <;> rfl
  · rw [lastFor?_append, lastFor?_cons]
    rfl

theorem same_name : (Value.text c.name).same (.text c.name) = true := by
  rw [same_of_characters rfl]
  exact beq_self_eq_true _

/-- A constant of another channel is no entry for the property of a channel. -/
theorem lastFor?_insert_of_ne (h : d ≠ c) (entries : List (Value × Value)) (w : Value) :
    lastFor? (Value.insert entries (.text d.name) w) (property c) =
      lastFor? entries (property c) := by
  rw [lastFor?_insert, standsFor_of_same same_name, decide_eq_false h.symm,
    if_neg Bool.false_ne_true, Option.none_or]
  split
  · cases hlast : lastFor? entries (property c) with
    | none => rfl
    | some e =>
      have hstands := standsFor_of_lastFor? hlast
      -- what stands for `c` is not overwritten by an entry for another channel
      have hother : ¬ e.1.same (.text d.name) = true := by
        intro hsame
        rw [standsFor_of_same hsame, decide_eq_false h.symm] at hstands
        exact Bool.false_ne_true hstands
      rw [Option.map_some, if_neg hother]
  · rfl

theorem gives_insert_of_ne (h : d ≠ c) (entries : List (Value × Value)) (w : Value) :
    gives (Value.insert entries (.text d.name) w) c = gives entries c := by
  -- the names of two channels differ
  have hname : (Value.text d.name).same (.text c.name) = false := by
    rw [same_of_characters rfl]
    refine beq_false_of_ne fun heq => h ?_
    exact Option.some.inj ((Channel.ofName?_name d).symm.trans
      (Channel.ofName?_eq_some.2 (Option.some.inj heq)))
  unfold Value.insert
  split
  · unfold gives
    rw [List.any_map]
    refine congrArg (List.any entries) (funext fun e => ?_)
    rw [Function.comp_apply]
    split <;> rfl
  · unfold gives
    rw [List.any_append, List.any_cons, hname, List.any_nil, Bool.or_self, Bool.or_false]

theorem hiding?_insert_of_ne (h : d ≠ c) (entries : List (Value × Value)) (w : Value) :
    hiding? (Value.insert entries (.text d.name) w) c = hiding? entries c := by
  unfold hiding?
  rw [lastFor?_insert_of_ne h, gives_insert_of_ne h]

theorem exists_lastFor? {e : Value × Value} {p : String} (he : e ∈ entries)
    (h : standsFor p e.1 = true) : ∃ last, lastFor? entries p = some last := by
  induction entries with
  | nil => exact absurd he List.not_mem_nil
  | cons first rest ih =>
    rw [lastFor?_cons]
    rcases List.mem_cons.1 he with rfl | he
    · rw [if_pos h, Option.or_some]
      exact ⟨_, rfl⟩
    · obtain ⟨last, hlast⟩ := ih he
      exact ⟨last, by rw [hlast, Option.some_or]⟩

/-- A constant that is put into a style comes last for its property, unless it is hidden. -/
theorem lastFor?_insert_self (entries : List (Value × Value)) (c : Channel) (v : Value) :
    (lastFor? (Value.insert entries (.text c.name) v) (property c)).map (·.2) =
      some ((hiding? entries c).getD v) := by
  rw [lastFor?_insert]
  unfold hiding?
  split
  · next hgives =>
    -- the entry under the name of the channel stands for the property, so some entry comes last
    obtain ⟨e, he, hsame⟩ := List.any_eq_true.1 hgives
    have hstands : standsFor (property c) e.1 = true := by
      rw [standsFor_of_same hsame]
      exact decide_eq_true rfl
    obtain ⟨last, hlast⟩ := exists_lastFor? he hstands
    rw [hlast, Option.map_some, Option.map_some, Option.filter_some]
    cases last.1.same (.text c.name) <;> rfl
  · rw [standsFor_of_same same_name, decide_eq_true rfl]
    rfl

theorem lastFor?_overlay_of_not_mem {constants : List (Channel × Value)}
    (h : c ∉ constants.map (·.1)) :
    lastFor? (Value.overlay style (constants.map fun e => (Value.text e.1.name, e.2)))
      (property c) = lastFor? style (property c) := by
  induction constants generalizing style with
  | nil => rfl
  | cons first rest ih =>
    obtain ⟨hfirst, hrest⟩ := not_or.1 (mt List.mem_cons.2 h)
    rw [List.map_cons, Value.overlay_cons, ih hrest, lastFor?_insert_of_ne (Ne.symm hfirst)]

/-- **Constants over a style**: each comes last for its property, unless the style hides it. -/
theorem lastFor?_overlay (style : List (Value × Value)) {constants : List (Channel × Value)}
    (hnodup : (constants.map (·.1)).Nodup) (hmem : (c, v) ∈ constants) :
    (lastFor? (Value.overlay style (constants.map fun e => (Value.text e.1.name, e.2)))
      (property c)).map (·.2) = some ((hiding? style c).getD v) := by
  -- channel by channel, each of which occurs once and is not written again
  induction constants generalizing style with
  | nil => exact absurd hmem List.not_mem_nil
  | cons first rest ih =>
    obtain ⟨hfirst, hrest⟩ := List.nodup_cons.1 hnodup
    rw [List.map_cons, Value.overlay_cons]
    rcases List.mem_cons.1 hmem with rfl | hmem
    · rw [lastFor?_overlay_of_not_mem hfirst, lastFor?_insert_self]
    · have hne : first.1 ≠ c := fun heq => hfirst (List.mem_map.2 ⟨_, hmem, heq.symm⟩)
      rw [ih _ hrest hmem, hiding?_insert_of_ne hne]

end Overlay

/-! ### The units of a plot -/

section Units

variable {layer : LayerSpec} {scales : List Scale} {u : ChartUnit} {c : Channel} {v : Value}

theorem mem_constants {m : Mapping} : (c, v) ∈ m.constants ↔ m.constant? c = some v := by
  unfold Mapping.constants
  rw [List.mem_filterMap]
  constructor
  · rintro ⟨d, -, hd⟩
    obtain ⟨w, hw, heq⟩ := Option.map_eq_some_iff.1 hd
    cases heq
    exact hw
  · exact fun h => ⟨c, Channel.mem_all c, by rw [h]; rfl⟩

theorem nodup_constants (m : Mapping) : (m.constants.map (·.1)).Nodup := by
  refine Channel.nodup_all.sublist ?_
  unfold Mapping.constants
  -- the constants are found in the order of the channels, which are listed once
  induction Channel.all with
  | nil => exact .slnil
  | cons c rest ih =>
    cases h : m.constant? c with
    | none =>
      rw [List.filterMap_cons_none (by rw [h]; rfl)]
      exact ih.cons c
    | some v =>
      rw [List.filterMap_cons_some (by rw [h]; rfl)]
      exact ih.cons_cons c

/-- The properties of a unit are those of the style of its layer, but for a shorthand. -/
theorem properties_of_unit (h : (unit scales layer).outcome = .ok u) :
    ∃ props, markProperties layer.style = .ok props ∧ u.properties = drawnProperties props := by
  unfold unit at h
  split at h
  · exact nomatch h
  obtain ⟨props, hprops, h⟩ := Logged.bind_eq_ok.1 h
  split at h
  · obtain ⟨found, -, h⟩ := Logged.bind_eq_ok.1 h
    cases h
    exact ⟨props, hprops, rfl⟩
  · exact nomatch h

theorem lookupIn_drawnProperties {p : String} (hp : p ≠ "shorthand")
    (props : List (Value × Value)) : lookupIn (drawnProperties props) p = lookupIn props p := by
  unfold drawnProperties
  induction props with
  | nil => rfl
  | cons e rest ih =>
    rw [List.filter_cons, Value.lookupIn_cons e rest]
    split
    · rw [Value.lookupIn_cons, ih]
    -- what is dropped has a name other than the property asked for
    · next hshort =>
      have hname : e.1.characters? = some "shorthand" := by
        rw [same_of_characters rfl] at hshort
        simpa using hshort
      rw [ih, hname, if_neg fun heq => hp (Option.some.inj heq).symm]

/-- A unit shows a constant of its mapping, unless the style hides it. -/
theorem lookupIn_properties (hu : (unit scales layer).outcome = .ok u)
    {style : List (Value × Value)}
    (hstyle : layer.style = Value.overlay style
      (layer.mapping.constants.map fun e => (Value.text e.1.name, e.2)))
    (hc : c ≠ .group) (hv : layer.mapping.constant? c = some v) :
    lookupIn u.properties (property c) =
      some (drawnValue (property c) ((hiding? style c).getD v)) := by
  obtain ⟨props, hprops, hdrawn⟩ := properties_of_unit hu
  have hlast := lastFor?_overlay style (nodup_constants layer.mapping) (mem_constants.2 hv)
  rw [← hstyle] at hlast
  obtain ⟨e, he, hvalue⟩ := Option.map_eq_some_iff.1 hlast
  rw [hdrawn, lookupIn_drawnProperties (property_ne_shorthand c),
    lookupIn_markProperties (property_ne_group hc) hprops, he, Option.map_some, Option.some_or,
    hvalue]

/-- The style of a layer that is ready to be drawn is its own, with the constants over it. -/
theorem style_of_layerSpec? {item : Build.Item} (h : Build.layerSpec? item = some layer) :
    layer.index = item.index ∧ layer.style = Value.overlay item.layer.style
      (layer.mapping.constants.map fun e => (Value.text e.1.name, e.2)) := by
  unfold Build.layerSpec? at h
  split at h
  · exact nomatch h
  · cases h
    exact ⟨rfl, rfl⟩

/-- A channel that is called like its property is never hidden. -/
theorem hiding?_eq_none (h : property c = c.name) (style : List (Value × Value)) :
    hiding? style c = none := by
  unfold hiding?
  split
  · cases hlast : lastFor? style (property c) with
    | none => rfl
    | some e =>
      rw [Option.filter_some, same_of_standsFor h (standsFor_of_lastFor? hlast)]
      rfl
  · rfl

end Units

/-- **Constants are drawn over styles.** A channel of a built layer that is bound to a constant,
other than the group channel, is drawn as a property of its mark, whatever the style of the layer.
The property shows the constant, unless the style hides it; then it shows what hides it. Only a
style for transparency or for line types can do that. -/
theorem constants_drawn (kit : Toolkit) (config : BuildConfig) (plot : Plot) (spec : RenderSpec)
    (layer : LayerSpec) (u : ChartUnit) (c : Channel) (v : Value)
    (h : (Build.run kit config plot).outcome = .ok spec) (hl : layer ∈ spec.layers)
    (hu : (unit spec.scales layer).outcome = .ok u) (hc : c ≠ .group)
    (hv : layer.mapping.constant? c = some v) :
    ∃ own, plot.layers[layer.index]? = some own ∧
      lookupIn u.properties (property c) =
        some (drawnValue (property c) ((hiding? own.style c).getD v)) ∧
      (c ≠ .alpha → c ≠ .linetype → lookupIn u.properties (property c) = some v) := by
  obtain ⟨items, hb⟩ := Build.built_of_run h
  rw [hb.layers] at hl
  obtain ⟨item, hitem, hspec⟩ := List.mem_filterMap.1 hl
  obtain ⟨hindex, hstyle⟩ := style_of_layerSpec? hspec
  obtain ⟨hat, -⟩ := Build.mem_of_prepareAll hb.prepared hitem
  have hshown := lookupIn_properties hu hstyle hc hv
  refine ⟨item.layer, hindex ▸ hat, hshown, fun halpha hline => ?_⟩
  -- two channels are drawn under another name, or translated; all others are drawn as they are
  have hname : property c = c.name ∧ property c ≠ "strokeDash" := by
    revert halpha hline
    cases c <;> decide
  rw [hshown, hiding?_eq_none hname.1, Option.getD_none, drawnValue, if_neg hname.2]

/-- Points of one transparency, over a style. -/
def fadedPlot (style : List (Value × Value)) : Plot where
  data :=
    { fields := [⟨.text "w", .continuous, ⟨.int, [.int 1, .int 2]⟩⟩]
      height := 2
      computedBy := none
      uniform := by decide
      distinct := by decide }
  mapping := ((Mapping.empty.set .x (.column "w")).set .y (.column "w")).set .alpha
    (.constant (.int 1))
  layers := [⟨.point, none, none, {}, style, .null⟩]
  keeps := by
    intro c
    cases c <;> simp [Mapping.set]

/-- Whether there is a value, and it is a certain integer. -/
def holdsInt (n : Int) : Option Value → Bool
  | some (.int i) => i == n
  | _ => false

theorem eq_of_holdsInt {n : Int} {v : Option Value} (h : holdsInt n v = true) :
    v = some (.int n) := by
  unfold holdsInt at h
  split at h
  · rw [eq_of_beq h]
  · exact nomatch h

/-- The first unit of such a plot, by what it shows for its transparency. -/
theorem exists_fadedUnit (style : List (Value × Value)) (n : Int)
    (h : ((firstUnit? (fadedPlot style)).any fun d =>
      holdsInt 1 (d.2.1.mapping.constant? .alpha) &&
        holdsInt n (lookupIn d.2.2.properties "opacity")) = true) :
    ∃ spec layer u, (Build.run .standard {} (fadedPlot style)).outcome = .ok spec ∧
      layer ∈ spec.layers ∧ (unit spec.scales layer).outcome = .ok u ∧
      layer.mapping.constant? .alpha = some (.int 1) ∧
      lookupIn u.properties "opacity" = some (.int n) := by
  cases hunit : firstUnit? (fadedPlot style) with
  | none =>
    rw [hunit] at h
    exact nomatch h
  | some drawn =>
    obtain ⟨spec, layer, u⟩ := drawn
    rw [hunit, Option.any_some, Bool.and_eq_true] at h
    obtain ⟨hrun, hl, hu⟩ := firstUnit?_eq_some hunit
    exact ⟨spec, layer, u, hrun, hl, hu, eq_of_holdsInt h.1, eq_of_holdsInt h.2⟩

/-- The transparency is drawn over a style that names the property. -/
theorem constants_drawn_faded :
    ∃ spec layer u, (Build.run .standard {} (fadedPlot [(.text "opacity", .int 0)])).outcome =
        .ok spec ∧ layer ∈ spec.layers ∧ (unit spec.scales layer).outcome = .ok u ∧
      Channel.alpha ≠ .group ∧ layer.mapping.constant? .alpha = some (.int 1) ∧
      ∃ own, (fadedPlot [(.text "opacity", .int 0)]).layers[layer.index]? = some own ∧
        lookupIn u.properties (property .alpha) =
          some (drawnValue (property .alpha) ((hiding? own.style .alpha).getD (.int 1))) := by
  obtain ⟨spec, layer, u, h, hl, hu, hv, -⟩ :=
    exists_fadedUnit [(.text "opacity", .int 0)] 1 (by decide +kernel)
  obtain ⟨own, hat, hshown, -⟩ :=
    constants_drawn .standard {} _ spec layer u .alpha (.int 1) h hl hu (by decide) hv
  exact ⟨spec, layer, u, h, hl, hu, by decide, hv, own, hat, hshown⟩

/-- A style that names the channel and then the property hides the transparency. -/
theorem transparency_hidden :
    ∃ spec layer u, (Build.run .standard {}
        (fadedPlot [(.text "alpha", .int 0), (.text "opacity", .int 0)])).outcome = .ok spec ∧
      layer ∈ spec.layers ∧ (unit spec.scales layer).outcome = .ok u ∧
      layer.mapping.constant? .alpha = some (.int 1) ∧
      lookupIn u.properties "opacity" = some (.int 0) :=
  exists_fadedUnit _ 0 (by decide +kernel)

end Chart

end PlotGrammar

import PlotGrammar.Proofs.Table.Inferred
import PlotGrammar.Source

/-!
# Tables with declared kinds

A frame is wrapped with kinds that are declared for some of its columns, and kinds can be laid over
a table afterwards. Both read a dictionary of kinds by the labels of the columns.

* `Value.lookupIn_overlay` and `Value.exists_key_overlay`: entries laid over others, by key.
* Wrapping ends in one of four ways. A key is no label (`Table.ofFrame_of_unknown`), what is
  declared names no kind (`ofFrame_of_unreadable`), the names of the columns repeat
  (`ofFrame_of_repeated`), or there is a table (`ofFrame_of_readable`).
* `Table.redeclare_eq`: to lay kinds over a table is to wrap its frame again, with all of its own
  kinds as well. These are named by text, so a column that is labelled by a number is refused
  (`redeclare_of_unknown`). Otherwise the result is `Table.withKinds` (`redeclare_of_readable`).
* `Table.ofFrame_eq_withKinds`: at once or afterwards, the declared kinds make the same table.
-/

namespace PlotGrammar

/-! ### Entries laid over others -/

namespace Value

variable {α : Type}

/-- Equal values have the same characters, if they have any. -/
theorem characters?_of_same {v w : Value} (h : v.same w = true) :
    v.characters? = w.characters? := by
  cases hw : w.characters? with
  | some s =>
    rw [same_of_characters hw] at h
    exact eq_of_beq h
  | none =>
    cases hv : v.characters? with
    | none => rfl
    | some s =>
      rw [same_of_characters_left hv, hw] at h
      cases h

theorem lookupIn_eq (entries : List (Value × α)) (s : String) :
    lookupIn entries s = (entries.find? fun e => e.1.characters? == some s).map (·.2) := by
  unfold lookupIn entry?
  have hkey : (fun e : Value × α => e.1.same (.text s)) = fun e => e.1.characters? == some s :=
    funext fun e => same_of_characters rfl
  rw [hkey]

theorem lookupIn_cons (e : Value × α) (entries : List (Value × α)) (s : String) :
    lookupIn (e :: entries) s =
      if e.1.characters? = some s then some e.2 else lookupIn entries s := by
  rw [lookupIn_eq, lookupIn_eq, List.find?_cons]
  by_cases h : e.1.characters? = some s
  · rw [if_pos h, h, beq_self_eq_true]
    rfl
  · rw [if_neg h, beq_false_of_ne h]

theorem lookupIn_append (entries others : List (Value × α)) (s : String) :
    lookupIn (entries ++ others) s = (lookupIn entries s).or (lookupIn others s) := by
  rw [lookupIn_eq, lookupIn_eq, lookupIn_eq, List.find?_append, Option.map_or]

/-- What is put under a key is found there, and nothing else changes. -/
theorem lookupIn_insert (entries : List (Value × α)) (key : Value) (entry : α) (s : String) :
    lookupIn (insert entries key entry) s =
      if key.characters? = some s then some entry else lookupIn entries s := by
  unfold insert
  split
  · -- the key is there already: its entry is replaced where it stands
    next hany =>
    obtain ⟨e, he, hsame⟩ := List.any_eq_true.1 hany
    rw [lookupIn_eq, List.find?_map, lookupIn_eq]
    -- replacing an entry moves no key, so the same entry is found as before
    have hkeys : ((fun e : Value × α => e.1.characters? == some s) ∘
        fun e : Value × α => if e.1.same key then (e.1, entry) else e) =
        fun e => e.1.characters? == some s := by
      funext e
      rw [Function.comp_apply]
      split <;> rfl
    rw [hkeys]
    cases hfind : entries.find? fun e => e.1.characters? == some s with
    | none =>
      have hne := List.find?_eq_none.1 hfind e he
      rw [characters?_of_same hsame] at hne
      rw [if_neg fun h => hne (beq_iff_eq.2 h)]
      rfl
    | some d =>
      have hd := List.find?_some hfind
      rw [beq_iff_eq] at hd
      rw [Option.map_some, Option.map_some, same_of_characters_left hd]
      by_cases hkey : key.characters? = some s
      · rw [if_pos hkey, if_pos (beq_iff_eq.2 hkey)]
      · rw [if_neg hkey, if_neg fun h => hkey (beq_iff_eq.1 h)]
        rfl
  · -- the key is new: its entry comes last, behind none with this text
    next hnone =>
    rw [lookupIn_append, lookupIn_cons]
    by_cases hkey : key.characters? = some s
    · have habsent : lookupIn entries s = none := by
        rw [lookupIn_eq, Option.map_eq_none_iff, List.find?_eq_none]
        intro e he hs
        rw [← same_of_characters hkey] at hs
        exact hnone (List.any_eq_true.2 ⟨e, he, hs⟩)
      rw [if_pos hkey, if_pos hkey, habsent, Option.none_or]
    · rw [if_neg hkey, if_neg hkey]
      exact Option.or_none

theorem overlay_cons (base : List (Value × Value)) (d : Value × Value)
    (top : List (Value × Value)) :
    overlay base (d :: top) = overlay (insert base d.1 d.2) top :=
  rfl

/-- An entry is found on top, or else below, where no key stands twice on top. -/
theorem lookupIn_overlay {top : List (Value × Value)}
    (h : top.Pairwise fun d e => d.1.same e.1 = false) (base : List (Value × Value)) (s : String) :
    lookupIn (overlay base top) s = (lookupIn top s).or (lookupIn base s) := by
  induction top generalizing base with
  | nil => exact (Option.none_or).symm
  | cons d rest ih =>
    obtain ⟨hd, hrest⟩ := List.pairwise_cons.1 h
    rw [overlay_cons, ih hrest, lookupIn_cons, lookupIn_insert]
    by_cases hkey : d.1.characters? = some s
    · have habsent : lookupIn rest s = none := by
        rw [lookupIn_eq, Option.map_eq_none_iff, List.find?_eq_none]
        intro e he hs
        have hsame := hd e he
        rw [same_of_characters_left hkey, hs] at hsame
        cases hsame
      rw [if_pos hkey, if_pos hkey, habsent, Option.none_or, Option.some_or]
    · rw [if_neg hkey, if_neg hkey]

/-- Up to equality of keys, an insertion adds its key to those that are there. -/
theorem exists_key_insert {entries : List (Value × α)} {key : Value} {entry : α}
    {s : Option String} :
    (∃ e ∈ insert entries key entry, e.1.characters? = s) ↔
      key.characters? = s ∨ ∃ e ∈ entries, e.1.characters? = s := by
  unfold insert
  split
  · next hany =>
    -- the key that is replaced has the text of the one that replaces it
    obtain ⟨d, hd, hsame⟩ := List.any_eq_true.1 hany
    constructor
    · rintro ⟨e, he, hs⟩
      obtain ⟨e', he', rfl⟩ := List.mem_map.1 he
      refine Or.inr ⟨e', he', ?_⟩
      split at hs <;> exact hs
    · have hkept : ∀ e ∈ entries, e.1.characters? = s →
          ∃ e ∈ entries.map fun e => if e.1.same key then (e.1, entry) else e,
            e.1.characters? = s := by
        intro e he hs
        refine ⟨_, List.mem_map.2 ⟨e, he, rfl⟩, ?_⟩
        split <;> exact hs
      rintro (hkey | ⟨e, he, hs⟩)
      · exact hkept d hd ((characters?_of_same hsame).trans hkey)
      · exact hkept e he hs
  -- a new key is added behind the others
  · constructor
    · rintro ⟨e, he, hs⟩
      rcases List.mem_append.1 he with he | he
      · exact Or.inr ⟨e, he, hs⟩
      · obtain rfl := List.mem_singleton.1 he
        exact Or.inl hs
    · rintro (hkey | ⟨e, he, hs⟩)
      · exact ⟨_, List.mem_append_right _ List.mem_cons_self, hkey⟩
      · exact ⟨e, List.mem_append_left _ he, hs⟩

theorem exists_key_overlay {base top : List (Value × Value)} {s : Option String} :
    (∃ e ∈ overlay base top, e.1.characters? = s) ↔
      (∃ e ∈ top, e.1.characters? = s) ∨ ∃ e ∈ base, e.1.characters? = s := by
  induction top generalizing base with
  | nil => simp [overlay]
  | cons d rest ih =>
    rw [overlay_cons, ih, exists_key_insert, List.exists_mem_cons_iff, or_left_comm, or_assoc]

theorem keys_insert (entries : List (Value × α)) (key : Value) (entry : α) :
    (insert entries key entry).map (·.1) =
      if entries.any fun e => e.1.same key then entries.map (·.1)
      else entries.map (·.1) ++ [key] := by
  unfold insert
  split
  · rw [List.map_map]
    refine List.map_congr_left fun e _ => ?_
    rw [Function.comp_apply]
    split <;> rfl
  · rw [List.map_append, List.map_singleton]

/-- The keys of a dictionary laid over another are those below, and those on top that are equal to
none of them. -/
theorem mem_keys_overlay {base top : List (Value × Value)}
    (h : top.Pairwise fun d e => d.1.same e.1 = false) {k : Value} :
    k ∈ (overlay base top).map (·.1) ↔
      k ∈ base.map (·.1) ∨ k ∈ top.map (·.1) ∧ ∀ b ∈ base.map (·.1), b.same k = false := by
  induction top generalizing base with
  | nil => simp [overlay]
  | cons d rest ih =>
    obtain ⟨hd, hrest⟩ := List.pairwise_cons.1 h
    rw [overlay_cons, ih hrest, keys_insert, List.map_cons, List.mem_cons]
    split
    · -- the key is below already, so it is not among those that are equal to none
      next hany =>
      obtain ⟨e, he, hsame⟩ := List.any_eq_true.1 hany
      refine or_congr Iff.rfl (and_congr_left fun hnone => (or_iff_right ?_).symm)
      rintro rfl
      rw [hnone e.1 (List.mem_map.2 ⟨e, he, rfl⟩)] at hsame
      cases hsame
    -- a key that is new is the top of one half and joins the base of the other
    · next hnew =>
      have hapart : ∀ b ∈ base.map (·.1), b.same d.1 = false := by
        refine List.forall_mem_map.2 fun e he => Bool.eq_false_iff.2 fun hsame => ?_
        exact hnew (List.any_eq_true.2 ⟨e, he, hsame⟩)
      rw [List.mem_append, List.mem_singleton, or_assoc]
      refine or_congr Iff.rfl ?_
      constructor
      · rintro (rfl | ⟨hk, hnone⟩)
        · exact ⟨Or.inl rfl, hapart⟩
        · exact ⟨Or.inr hk, fun b hb => hnone b (List.mem_append_left _ hb)⟩
      · rintro ⟨rfl | hk, hnone⟩
        · exact Or.inl rfl
        · refine Or.inr ⟨hk, fun b hb => ?_⟩
          rcases List.mem_append.1 hb with hb | hb
          · exact hnone b hb
          · obtain ⟨e, he, rfl⟩ := List.mem_map.1 hk
            obtain rfl := List.mem_singleton.1 hb
            exact hd e he

end Value

/-! ### Frames with declared kinds -/

section FilterMap

variable {ε α β : Type} {f : α → Except ε (Option β)} {xs : List α}

theorem filterMapM_eq_ok {g : α → Option β} (h : ∀ a ∈ xs, f a = .ok (g a)) :
    xs.filterMapM f = .ok (xs.filterMap g) := by
  induction xs with
  | nil => rfl
  | cons a xs ih =>
    have hrest := ih fun a ha => h a (List.mem_cons_of_mem _ ha)
    rw [List.filterMapM_cons, h a List.mem_cons_self, hrest, List.filterMap_cons]
    cases g a <;> rfl

/-- A run through a list fails if some step fails, and all that do fail in one way. -/
theorem filterMapM_eq_error {e : ε} (hone : ∀ a ∈ xs, ∀ e', f a = .error e' → e' = e)
    (hsome : ∃ a ∈ xs, ∀ b, f a ≠ .ok b) : xs.filterMapM f = .error e := by
  -- the first entry that fails ends the list, and whatever fails, fails with `e`
  induction xs with
  | nil =>
    obtain ⟨a, ha, -⟩ := hsome
    exact absurd ha List.not_mem_nil
  | cons a xs ih =>
    rw [List.filterMapM_cons]
    cases ha : f a with
    | error e' =>
      rw [hone a List.mem_cons_self e' ha]
      rfl
    | ok b =>
      have hrest : ∃ a ∈ xs, ∀ b, f a ≠ .ok b := by
        obtain ⟨a', ha', hne⟩ := hsome
        rcases List.mem_cons.1 ha' with rfl | ha'
        · exact absurd ha (hne b)
        · exact ⟨a', ha', hne⟩
      have herror := ih (fun a ha => hone a (List.mem_cons_of_mem _ ha)) hrest
      cases b with
      | none => exact herror
      | some b =>
        show (xs.filterMapM f >>= fun bs => pure (b :: bs)) = .error e
        rw [herror]
        rfl

end FilterMap

/-- The printed names of the columns, in order. -/
def Frame.names (f : Frame) : List String :=
  f.columns.map fun c => c.1.name

theorem Frame.eq_of_parts {f g : Frame} (hcolumns : f.columns = g.columns)
    (hheight : f.height = g.height) : f = g := by
  cases f
  cases g
  cases hcolumns
  cases hheight
  rfl

namespace Table

/-- The kind that a value names. -/
def kindOf? (v : Value) : Option ColumnKind :=
  v.characters?.bind ColumnKind.ofName?

/-- What is declared for the column of a label. -/
def declaredFor (declared : List (Value × Value)) (l : Label) : Option Value :=
  (declared.find? fun d => l.isValue d.1).map (·.2)

/-- The kind that is declared for the column of a label. -/
def settled? (declared : List (Value × Value)) (l : Label) : Option ColumnKind :=
  (declaredFor declared l).bind kindOf?

/-- Every key of the declaration is the label of a column. -/
def Known (frame : Frame) (declared : List (Value × Value)) : Prop :=
  ∀ d ∈ declared, ∃ c ∈ frame.columns, c.1.isValue d.1 = true

/-- The keys of the declaration that are the label of no column. -/
def unknownKeys (frame : Frame) (declared : List (Value × Value)) : List Value :=
  (declared.filter fun d => !frame.columns.any fun c => c.1.isValue d.1).map (·.1)

/-- The keys that are the label of no column can be written out. -/
def WritesUnknown (frame : Frame) (declared : List (Value × Value)) : Prop :=
  ∀ k ∈ unknownKeys frame declared, k.isWritable = true

/-- All labels can be printed, and what is declared for a column is a kind. -/
structure Readable (frame : Frame) (declared : List (Value × Value)) : Prop where
  names : frame.hasNames = true
  kinds : ∀ c ∈ frame.columns, ∀ v, declaredFor declared c.1 = some v → (kindOf? v).isSome = true

variable {frame : Frame} {declared : List (Value × Value)} {computedBy : Option String}

theorem known_iff : Known frame declared ↔
    (declared.filter fun d => !frame.columns.any fun c => c.1.isValue d.1).isEmpty = true := by
  simp [Known]

theorem readKind_of_kindOf? {v : Value} {kind : ColumnKind} (h : kindOf? v = some kind) :
    readKind v = .ok kind := by
  unfold kindOf? at h
  unfold readKind
  rw [h]

theorem readKind_of_none {v : Value} (h : kindOf? v = none) :
    readKind v = .error (.fault .badValue) := by
  unfold kindOf? at h
  unfold readKind
  rw [h]

theorem mem_unknownKeys {k : Value} :
    k ∈ unknownKeys frame declared ↔
      k ∈ declared.map (·.1) ∧ ¬ ∃ c ∈ frame.columns, c.1.isValue k = true := by
  simp only [unknownKeys, List.mem_map, List.mem_filter, Bool.not_eq_true', List.any_eq_false]
  constructor
  · rintro ⟨d, ⟨hd, hnone⟩, rfl⟩
    exact ⟨⟨d, hd, rfl⟩, fun ⟨c, hc, hvalue⟩ => hnone c hc hvalue⟩
  · rintro ⟨⟨d, hd, rfl⟩, hnone⟩
    exact ⟨d, ⟨hd, fun c hc hvalue => hnone ⟨c, hc, hvalue⟩⟩, rfl⟩

/-- Keys that are no labels are refused. -/
theorem ofFrame_of_unknown (h : ¬ Known frame declared) :
    ofFrame frame declared computedBy =
      .error (.misuse (.kindsWithoutData (unknownKeys frame declared))) := by
  unfold ofFrame
  rw [known_iff] at h
  dsimp only
  rw [if_neg h]
  rfl

theorem badValue_of_readKind {v : Value} {e : Failure} (h : readKind v = .error e) :
    e = .fault .badValue := by
  unfold readKind at h
  split at h <;> cases h
  rfl

/-- What is no kind is a fault, and so is a label that cannot be printed. -/
theorem ofFrame_of_unreadable (h : Known frame declared) (hread : ¬ Readable frame declared) :
    ofFrame frame declared computedBy = .error (.fault .badValue) := by
  unfold ofFrame
  dsimp only
  rw [if_pos (known_iff.1 h)]
  by_cases hnames : frame.hasNames = true
  swap
  · rw [if_neg hnames]
    rfl
  -- with every label named it is a declared kind that cannot be read
  have hkinds : ¬ ∀ c ∈ frame.columns, ∀ v, declaredFor declared c.1 = some v →
      (kindOf? v).isSome = true := fun hkinds => hread ⟨hnames, hkinds⟩
  push Not at hkinds
  obtain ⟨c, hc, v, hv, hnone⟩ := hkinds
  obtain ⟨d, hd, rfl⟩ := Option.map_eq_some_iff.1 hv
  rw [if_pos hnames, filterMapM_eq_error]
  · rfl
  · -- every column that fails does so because what is declared for it names no kind
    intro a _ e he
    cases ha : declared.find? fun d => a.1.isValue d.1 with
    | none =>
      rw [ha] at he
      cases he
    | some d =>
      rw [ha] at he
      rcases bind_eq_error.1 he with he | ⟨kind, -, he⟩
      · exact badValue_of_readKind he
      · cases he
  -- and the column whose declared kind names none does fail
  · refine ⟨c, hc, fun b hb => ?_⟩
    rw [hd] at hb
    obtain ⟨kind, hkind, -⟩ := bind_eq_ok.1 hb
    rw [readKind_of_none (Option.not_isSome_iff_eq_none.1 hnone)] at hkind
    cases hkind

/-- Each column has the kind that is declared for it, or else the one of its type. -/
def fieldsWith (frame : Frame) (declared : List (Value × Value)) : List Field :=
  fieldsOf frame fun c => (settled? declared c.1).getD c.2.type.kind

theorem lookup_filterMap_settled {columns : List (Label × Column)} {c : Label × Column}
    (hc : c ∈ columns) :
    (columns.filterMap fun c => (settled? declared c.1).map fun kind => (c.1, kind)).lookup c.1 =
      settled? declared c.1 := by
  induction columns with
  | nil => exact absurd hc List.not_mem_nil
  | cons d rest ih =>
    rw [List.filterMap_cons]
    by_cases hlabel : d.1 = c.1
    · rw [hlabel]
      cases hkind : settled? declared c.1 with
      | some kind => exact List.lookup_cons_self
      | none =>
        -- no column of this label has an entry
        rw [Option.map_none]
        refine List.lookup_eq_none_iff.2 fun e he => ?_
        obtain ⟨c', -, hc'⟩ := List.mem_filterMap.1 he
        obtain ⟨kind, hkind', rfl⟩ := Option.map_eq_some_iff.1 hc'
        have hne : c.1 ≠ c'.1 := by
          intro heq
          rw [← heq, hkind] at hkind'
          cases hkind'
        exact bne_iff_ne.2 hne
    · have hrest : c ∈ rest := by
        rcases List.mem_cons.1 hc with rfl | hc
        · exact absurd rfl hlabel
        · exact hc
      cases settled? declared d.1 with
      | none => exact ih hrest
      | some kind =>
        rw [Option.map_some, List.lookup_cons, beq_false_of_ne (Ne.symm hlabel)]
        exact ih hrest

/-- A declaration that can be read gives the frame its kinds. -/
theorem ofFrame_of_readable (h : Known frame declared) (hread : Readable frame declared) :
    ofFrame frame declared computedBy =
      ofFields (fieldsWith frame declared) frame.height (uniform_fieldsOf frame _) computedBy := by
  unfold ofFrame
  dsimp only
  rw [if_pos (known_iff.1 h), if_pos hread.names, filterMapM_eq_ok (g := fun c =>
    (settled? declared c.1).map fun kind => (c.1, kind))]
  -- with every declared kind read, the kinds that are kept are the settled ones
  · have hfields : (fieldsOf frame fun c =>
        ((frame.columns.filterMap fun c => (settled? declared c.1).map fun kind =>
          (c.1, kind)).lookup c.1).getD c.2.type.kind) = fieldsWith frame declared := by
      refine List.map_congr_left fun c hc => ?_
      dsimp only
      rw [lookup_filterMap_settled hc]
    show ofFields _ _ _ _ = _
    simp only [hfields]
  -- no column fails: what is declared for it names a kind, or nothing is declared
  · intro c hc
    unfold settled?
    cases hd : declared.find? fun d => c.1.isValue d.1 with
    | none =>
      have hnone : declaredFor declared c.1 = none := by rw [declaredFor, hd, Option.map_none]
      rw [hnone]
      rfl
    | some d =>
      have hsome : declaredFor declared c.1 = some d.2 := by rw [declaredFor, hd, Option.map_some]
      obtain ⟨kind, hkind⟩ := Option.isSome_iff_exists.1 (hread.kinds c hc d.2 hsome)
      rw [hsome, Option.bind_some, hkind]
      dsimp only
      rw [readKind_of_kindOf? hkind]
      rfl

/-! ### Kinds laid over a table -/

@[simp] theorem kindOf?_name (kind : ColumnKind) : kindOf? (.text kind.name) = some kind := by
  cases kind <;> rfl

/-- A table's own kinds, as they are declared. -/
def ownKinds (t : Table) : List (Value × Value) :=
  t.kinds.map fun k => (.text k.1, .text k.2.name)

/-- Every column is labelled by a text. -/
def Textual (t : Table) : Prop :=
  ∀ f ∈ t.fields, f.label.isText = true

/-- The table with the kinds that are declared for its columns in place of its own. The statistic
that computed it is forgotten. -/
def withKinds (t : Table) (declared : List (Value × Value)) : Table where
  fields := t.fields.map fun f => { f with kind := (settled? declared f.label).getD f.kind }
  height := t.height
  computedBy := none
  uniform := by
    intro f hf
    obtain ⟨g, hg, rfl⟩ := List.mem_map.1 hf
    exact t.uniform g hg
  distinct := by
    have hnames : (t.fields.map fun f =>
        { f with kind := (settled? declared f.label).getD f.kind }).map Field.name =
        t.fields.map Field.name := by
      rw [List.map_map]
      exact List.map_congr_left fun f _ => rfl
    rw [hnames]
    exact t.distinct

variable {t : Table}

theorem redeclare_eq {declared : List (Value × Value)} (h : declared ≠ []) :
    t.redeclare (.dict declared) =
      ofFrame t.frame (Value.overlay t.ownKinds declared) none := by
  cases declared with
  | nil => exact absurd rfl h
  | cons d rest => rfl

theorem declaredFor_text (declared : List (Value × Value)) (s : String) :
    declaredFor declared (.text s) = Value.lookupIn declared s :=
  (Value.lookupIn_eq declared s).symm

/-- The fields of a table make up the table. -/
theorem ofFields_of_eq {fields : List Field} {uniform} (h : fields = t.fields) :
    ofFields fields t.height uniform t.computedBy = .ok t := by
  subst h
  unfold ofFields
  rw [dif_pos t.distinct]

/-- Two columns of one printed name are the same. -/
theorem eq_of_name {f g : Field} (hf : f ∈ t.fields) (hg : g ∈ t.fields) (h : f.name = g.name) :
    f = g :=
  List.inj_on_of_nodup_map t.distinct hf hg h

theorem lookupIn_ownKinds {f : Field} (hf : f ∈ t.fields) :
    Value.lookupIn t.ownKinds f.name = some (.text f.kind.name) := by
  rw [Value.lookupIn_eq, ownKinds, kinds, List.map_map, List.find?_map]
  cases hfind : t.fields.find? ((fun e : Value × Value => e.1.characters? == some f.name) ∘
      ((fun k : String × ColumnKind => (Value.text k.1, Value.text k.2.name)) ∘
        fun f => (f.name, f.kind))) with
  | none => exact absurd (beq_self_eq_true _) (List.find?_eq_none.1 hfind f hf)
  | some g =>
    have hkey := List.find?_some hfind
    have hname : g.name = f.name := Option.some.inj (beq_iff_eq.1 hkey)
    rw [eq_of_name (List.mem_of_find?_eq_some hfind) hf hname]
    rfl

/-- The keys of a table's own kinds are the printed names of its columns. -/
theorem exists_key_ownKinds {s : Option String} :
    (∃ d ∈ t.ownKinds, d.1.characters? = s) ↔ ∃ f ∈ t.fields, some f.name = s := by
  unfold ownKinds kinds
  rw [List.map_map]
  constructor
  · rintro ⟨d, hd, hs⟩
    obtain ⟨f, hf, rfl⟩ := List.mem_map.1 hd
    exact ⟨f, hf, hs⟩
  · rintro ⟨f, hf, hs⟩
    exact ⟨_, List.mem_map.2 ⟨f, hf, rfl⟩, hs⟩

/-- Where every column is labelled by a text, a key is a label if its characters are a printed
name. -/
theorem Textual.labelled_iff (h : t.Textual) {v : Value} :
    (∃ c ∈ t.frame.columns, c.1.isValue v = true) ↔
      ∃ f ∈ t.fields, some f.name = v.characters? := by
  have hlabel : ∀ f ∈ t.fields, f.label.isValue v = true ↔ some f.name = v.characters? := by
    intro f hf
    have htext := h f hf
    unfold Field.name
    cases hl : f.label with
    | text s => exact beq_iff_eq.trans eq_comm
    | index i =>
      rw [hl] at htext
      cases htext
  constructor
  · rintro ⟨c, hc, hvalue⟩
    obtain ⟨f, hf, rfl⟩ := List.mem_map.1 hc
    exact ⟨f, hf, (hlabel f hf).1 hvalue⟩
  · rintro ⟨f, hf, hname⟩
    exact ⟨(f.label, f.column), List.mem_map.2 ⟨f, hf, rfl⟩, (hlabel f hf).2 hname⟩

/-- The own kinds of a table are known only where every column is labelled by a text. -/
theorem textual_of_known {declared : List (Value × Value)}
    (h : Known t.frame (Value.overlay t.ownKinds declared)) : t.Textual := by
  intro f hf
  -- the printed name of the column is a key, which can only be the label of this column
  have hkey : ∃ d ∈ Value.overlay t.ownKinds declared, d.1.characters? = some f.name :=
    Value.exists_key_overlay.2 (Or.inr (exists_key_ownKinds.2 ⟨f, hf, rfl⟩))
  obtain ⟨d, hd, hs⟩ := hkey
  obtain ⟨c, hc, hvalue⟩ := h d hd
  obtain ⟨g, hg, rfl⟩ := List.mem_map.1 hc
  cases hl : g.label with
  | text s =>
    rw [hl] at hvalue
    have hs' : some f.name = some s := hs.symm.trans (beq_iff_eq.1 hvalue)
    have hname : g.name = f.name := by
      rw [Field.name, hl, Option.some.inj hs']
      rfl
    rw [← eq_of_name hg hf hname, hl]
    rfl
  | index i =>
    rw [hl] at hvalue
    cases hv : d.1 with
    | text => rw [hv] at hvalue; cases hvalue
    | member => rw [hv] at hvalue; cases hvalue
    | _ => rw [hv] at hs; cases hs

/-- Laid over the own kinds of a table, a declaration is known where it is known alone, provided
that every column is labelled by a text. -/
theorem known_overlay {declared : List (Value × Value)} :
    Known t.frame (Value.overlay t.ownKinds declared) ↔ t.Textual ∧ Known t.frame declared := by
  constructor
  · intro h
    have htext := textual_of_known h
    refine ⟨htext, fun e he => ?_⟩
    have hkey : ∃ d ∈ Value.overlay t.ownKinds declared, d.1.characters? = e.1.characters? :=
      Value.exists_key_overlay.2 (Or.inl ⟨e, he, rfl⟩)
    obtain ⟨d, hd, hs⟩ := hkey
    rw [htext.labelled_iff, ← hs]
    exact htext.labelled_iff.1 (h d hd)
  · rintro ⟨htext, h⟩ d hd
    rw [htext.labelled_iff]
    rcases Value.exists_key_overlay.1 ⟨d, hd, rfl⟩ with ⟨e, he, hs⟩ | hown
    · rw [← hs]
      exact htext.labelled_iff.1 (h e he)
    · exact exists_key_ownKinds.1 hown

/-- What is declared on top counts before a table's own kind. -/
theorem declaredFor_overlay {declared : List (Value × Value)}
    (h : declared.Pairwise fun d e => d.1.same e.1 = false) {f : Field} (hf : f ∈ t.fields)
    (htext : f.label.isText = true) :
    declaredFor (Value.overlay t.ownKinds declared) f.label =
      (declaredFor declared f.label).or (some (.text f.kind.name)) := by
  have hown := lookupIn_ownKinds hf
  unfold Field.name at hown
  cases hl : f.label with
  | text s =>
    rw [hl] at hown
    rw [declaredFor_text, declaredFor_text, Value.lookupIn_overlay h]
    exact congrArg (Option.or _) hown
  | index i =>
    rw [hl] at htext
    cases htext

/-- Texts can be printed. -/
theorem Textual.hasNames (h : t.Textual) : t.frame.hasNames = true := by
  refine List.all_eq_true.2 fun c hc => ?_
  obtain ⟨f, hf, rfl⟩ := List.mem_map.1 hc
  have htext := h f hf
  cases hl : f.label with
  | text => rfl
  | index i =>
    rw [hl] at htext
    cases htext

theorem readable_overlay {declared : List (Value × Value)}
    (h : declared.Pairwise fun d e => d.1.same e.1 = false) (htext : t.Textual) :
    Readable t.frame (Value.overlay t.ownKinds declared) ↔ Readable t.frame declared := by
  constructor
  · refine fun hread => ⟨htext.hasNames, fun c hc v hv => hread.kinds c hc v ?_⟩
    obtain ⟨f, hf, rfl⟩ := List.mem_map.1 hc
    rw [declaredFor_overlay h hf (htext f hf), hv, Option.some_or]
  · refine fun hread => ⟨htext.hasNames, fun c hc v hv => ?_⟩
    obtain ⟨f, hf, rfl⟩ := List.mem_map.1 hc
    rw [declaredFor_overlay h hf (htext f hf)] at hv
    -- a kind that is declared is laid over the own one, which is known to be read
    cases hd : declaredFor declared f.label with
    | some w =>
      rw [hd, Option.some_or] at hv
      cases hv
      exact hread.kinds _ hc _ hd
    | none =>
      rw [hd, Option.none_or] at hv
      cases hv
      rw [kindOf?_name]
      rfl

/-- Kinds that are known and can be read replace the table's own ones. -/
theorem redeclare_of_readable {declared : List (Value × Value)}
    (h : declared.Pairwise fun d e => d.1.same e.1 = false) (hne : declared ≠ [])
    (htext : t.Textual) (hknown : Known t.frame declared) (hread : Readable t.frame declared) :
    t.redeclare (.dict declared) = .ok (t.withKinds declared) := by
  -- field by field: a declared kind takes over, and an own one reads back as itself
  have hfields : fieldsWith t.frame (Value.overlay t.ownKinds declared) =
      (t.withKinds declared).fields := by
    unfold fieldsWith fieldsOf frame withKinds
    rw [List.map_map]
    refine List.map_congr_left fun f hf => ?_
    have hc : (f.label, f.column) ∈ t.frame.columns := List.mem_map.2 ⟨f, hf, rfl⟩
    have hkind : (settled? (Value.overlay t.ownKinds declared) f.label).getD f.column.type.kind =
        (settled? declared f.label).getD f.kind := by
      unfold settled?
      rw [declaredFor_overlay h hf (htext f hf)]
      cases hd : declaredFor declared f.label with
      | none =>
        rw [Option.none_or, Option.bind_some, kindOf?_name]
        rfl
      | some v =>
        obtain ⟨kind, hv⟩ := Option.isSome_iff_exists.1 (hread.kinds _ hc v hd)
        rw [Option.some_or, Option.bind_some, hv]
        rfl
    exact congrArg (fun kind => Field.mk f.label kind f.column) hkind
  rw [redeclare_eq hne, ofFrame_of_readable (known_overlay.2 ⟨htext, hknown⟩)
    ((readable_overlay h htext).2 hread)]
  exact ofFields_of_eq hfields

/-- The own kinds of a table, which are named by texts, add no key that cannot be written out. -/
theorem writesUnknown_overlay {declared : List (Value × Value)}
    (h : declared.Pairwise fun d e => d.1.same e.1 = false) :
    WritesUnknown t.frame (Value.overlay t.ownKinds declared) ↔ WritesUnknown t.frame declared := by
  -- the own keys are names, which can always be written
  have hown : ∀ k ∈ t.ownKinds.map (·.1), k.characters?.isSome = true := by
    intro k hk
    obtain ⟨d, hd, rfl⟩ := List.mem_map.1 hk
    obtain ⟨own, -, rfl⟩ := List.mem_map.1 hd
    rfl
  constructor
  · intro hwrites k hk
    obtain ⟨hdeclared, hnone⟩ := mem_unknownKeys.1 hk
    by_cases htext : k.characters?.isSome = true
    · exact Value.isWritable_of_characters htext
    · -- a key that is no text is equal to no name, so it is laid over the own kinds
      refine hwrites k (mem_unknownKeys.2 ⟨(Value.mem_keys_overlay h).2 (Or.inr ⟨hdeclared, ?_⟩),
        hnone⟩)
      intro b hb
      obtain ⟨s, hs⟩ := Option.isSome_iff_exists.1 (hown b hb)
      rw [Value.same_of_characters_left hs, Option.not_isSome_iff_eq_none.1 htext]
      rfl
  · intro hwrites k hk
    obtain ⟨hlaid, hnone⟩ := mem_unknownKeys.1 hk
    rcases (Value.mem_keys_overlay h).1 hlaid with hbelow | ⟨hdeclared, -⟩
    · exact Value.isWritable_of_characters (hown k hbelow)
    · exact hwrites k (mem_unknownKeys.2 ⟨hdeclared, hnone⟩)

/-- Kinds laid over a table are refused where they are not known, or some label is no text. -/
theorem redeclare_of_unknown {declared : List (Value × Value)} (hne : declared ≠ [])
    (h : ¬ (t.Textual ∧ Known t.frame declared)) :
    t.redeclare (.dict declared) = .error (.misuse (.kindsWithoutData
      (unknownKeys t.frame (Value.overlay t.ownKinds declared)))) := by
  rw [redeclare_eq hne]
  exact ofFrame_of_unknown fun hknown => h (known_overlay.1 hknown)

theorem redeclare_of_unreadable {declared : List (Value × Value)}
    (h : declared.Pairwise fun d e => d.1.same e.1 = false) (hne : declared ≠ [])
    (htext : t.Textual) (hknown : Known t.frame declared) (hread : ¬ Readable t.frame declared) :
    t.redeclare (.dict declared) = .error (.fault .badValue) := by
  rw [redeclare_eq hne]
  exact ofFrame_of_unreadable (known_overlay.2 ⟨htext, hknown⟩)
    fun hall => hread ((readable_overlay h htext).1 hall)

/-! ### Frames that are wrapped -/

section Wrapped

variable {f : Frame} {declared : List (Value × Value)}

theorem map_name_fieldsWith (f : Frame) (declared : List (Value × Value)) :
    (fieldsWith f declared).map Field.name = f.names := by
  unfold fieldsWith fieldsOf Frame.names
  rw [List.map_map]
  exact List.map_congr_left fun c _ => rfl

/-- The table of a frame whose names do not repeat, with the kinds of its types. -/
def wrapped (f : Frame) (h : f.names.Nodup) : Table where
  fields := fieldsWith f []
  height := f.height
  computedBy := none
  uniform := uniform_fieldsOf f _
  distinct := (map_name_fieldsWith f []).symm ▸ h

theorem frame_wrapped (h : f.names.Nodup) : (wrapped f h).frame = f := by
  refine Frame.eq_of_parts ?_ rfl
  show (List.map _ _).map _ = _
  rw [List.map_map]
  exact List.map_id _

theorem textual_wrapped (h : f.names.Nodup) :
    (wrapped f h).Textual ↔ ∀ c ∈ f.columns, c.1.isText = true := by
  unfold Textual
  show (∀ g ∈ List.map _ f.columns, _) ↔ _
  rw [List.forall_mem_map]

theorem known_nil (f : Frame) : Known f [] :=
  fun _ hd => absurd hd List.not_mem_nil

theorem readable_nil : Readable f [] ↔ f.hasNames = true :=
  ⟨Readable.names, fun h => ⟨h, fun _ _ _ hv => by cases hv⟩⟩

theorem ofFrame_nil (hnames : f.hasNames = true) (h : f.names.Nodup) :
    ofFrame f [] none = .ok (wrapped f h) := by
  rw [ofFrame_of_readable (known_nil f) (readable_nil.2 hnames)]
  exact ofFields_of_eq (t := wrapped f h) rfl

theorem ofFrame_of_repeated {computedBy : Option String} (h : ¬ f.names.Nodup)
    (hknown : Known f declared) (hread : Readable f declared) :
    ofFrame f declared computedBy = .error (.misuse (.repeatedNames f.names)) := by
  rw [ofFrame_of_readable hknown hread]
  have hnames := map_name_fieldsWith f declared
  rw [← hnames] at h ⊢
  exact dif_neg h

/-- A frame that is wrapped with declared kinds is the frame that is wrapped without, with these
kinds laid over it. -/
theorem ofFrame_eq_withKinds (h : f.names.Nodup) (hknown : Known f declared)
    (hread : Readable f declared) :
    ofFrame f declared none = .ok ((wrapped f h).withKinds declared) := by
  rw [ofFrame_of_readable hknown hread]
  refine ofFields_of_eq (t := (wrapped f h).withKinds declared) ?_
  show List.map _ f.columns = (List.map _ f.columns).map _
  rw [List.map_map]
  exact List.map_congr_left fun c _ => rfl

end Wrapped

end Table

end PlotGrammar

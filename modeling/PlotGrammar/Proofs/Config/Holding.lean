import PlotGrammar.Config.Content
import PlotGrammar.Proofs.Config.References
import PlotGrammar.Proofs.Table.Declared

/-!
# What a configuration can hold

`Value.Held` says that nothing in a value is refused as a part of a configuration. A dictionary is
held if its values are, its keys are of a sort that names a place, and no two keys that are printed
alike differ (`Value.held_dict`).

* The names of sections are words: no number and no truth value is printed like one
  (`Value.characters?_of_plain_eq`). So a section can be put into a dictionary that is held without
  a look at the other keys (`Value.held_put`).
* Properties and a style that are held apart are held one over the other, if no key of one is
  printed like a different key of the other (`Value.held_overlay`).
-/

namespace PlotGrammar

/-! ### The characters of numbers and truth values -/

/-- Whether a character occurs in the text of a number or a truth value. -/
def Text.isFigure (c : Char) : Bool :=
  c.isDigit || ['-', '+', '.', 'e', 'i', 'n', 'f', 'a', 'T', 'r', 'u', 'F', 'l', 's'].contains c

/-- A text of such characters only. -/
def Text.Figures (s : String) : Prop :=
  ∀ c ∈ s.toList, isFigure c = true

namespace Text

instance (s : String) : Decidable (Figures s) :=
  decidable_of_iff (s.toList.all isFigure = true) List.all_eq_true

theorem Figures.append {s t : String} (hs : Figures s) (ht : Figures t) : Figures (s ++ t) := by
  intro c hc
  rw [String.toList_append, List.mem_append] at hc
  exact hc.elim (hs c) (ht c)

theorem figures_nat (n : Nat) : Figures (toString n) := by
  intro c hc
  rw [Nat.toString_eq_ofList_toDigits, String.toList_ofList] at hc
  have hdigit : c.isDigit = true := Nat.isDigit_of_mem_toDigits (by decide) (by decide) hc
  exact Bool.or_eq_true_iff.2 (Or.inl hdigit)

theorem figures_int (i : Int) : Figures (toString i) := by
  cases i with
  | ofNat n => exact figures_nat n
  | negSucc n =>
    have hsign : Figures "-" := by decide
    exact hsign.append (figures_nat (n + 1))

theorem figures_zeros (n : Nat) : Figures (Decimal.zeros n) := by
  intro c hc
  unfold Decimal.zeros at hc
  rw [String.toList_ofList, List.mem_replicate] at hc
  rw [hc.2]
  rfl

theorem Figures.take {s : String} (hs : Figures s) (n : Nat) : Figures (s.take n).toString := by
  intro c hc
  exact hs c (List.mem_of_mem_take (String.toList_copy_take ▸ hc))

theorem Figures.drop {s : String} (hs : Figures s) (n : Nat) : Figures (s.drop n).toString := by
  intro c hc
  exact hs c (List.mem_of_mem_drop (String.toList_copy_drop ▸ hc))

theorem figures_render (layout : Decimal.Layout) (d : Decimal) :
    Figures (Decimal.render layout d) := by
  have hdigits := figures_nat d.digits
  have hpoint : Figures "." := by decide
  unfold Decimal.render
  dsimp only
  -- one case for each layout: the point behind the digits, among them, or in front of them
  split
  · split
    · have htail : Figures ".0" := by decide
      exact (hdigits.append (figures_zeros _)).append htail
    · split
      · exact ((hdigits.take _).append hpoint).append (hdigits.drop _)
      · have hhead : Figures "0." := by decide
        exact (hhead.append (figures_zeros _)).append hdigits
  · refine ((((hdigits.take _).append ?_).append ?_).append ?_).append (figures_zeros _)
      |>.append (figures_nat _)
    · split
      · decide
      · exact hpoint.append (hdigits.drop _)
    · decide
    · split <;> decide

theorem figures_text (x : Float) : Figures (Decimal.text x) := by
  have hsign : ∀ negative : Bool, Figures (if negative then "-" else "") := by decide
  unfold Decimal.text
  -- a finite number is a sign and digits, and the other three are words
  split
  · unfold Decimal.renderWith
    dsimp only
    split
    · have hzero : Figures "0.0" := by decide
      exact (hsign _).append hzero
    · exact (hsign _).append (figures_render _ _)
  · split
    · decide
    · split <;> decide

end Text

namespace Value

/-- A configuration can hold the value. -/
def Held (v : Value) : Prop :=
  v.vet = .ok ()

instance (v : Value) : Decidable v.Held :=
  decidable_of_iff (v.vet.isOk = true) <| by
    unfold Held
    cases v.vet with
    | ok u => exact ⟨fun _ => rfl, fun _ => rfl⟩
    | error f => exact ⟨fun h => (nomatch h), fun h => (nomatch h)⟩

/-- Two keys that are printed alike are equal. -/
def Apart (key other : Value) : Prop :=
  other.plain = key.plain → other.same key = true

instance (key other : Value) : Decidable (Apart key other) :=
  inferInstanceAs (Decidable (other.plain = key.plain → other.same key = true))

/-- A text that is no number and no truth value. -/
def IsWord (s : String) : Prop :=
  ¬ Text.Figures s

instance (s : String) : Decidable (IsWord s) :=
  inferInstanceAs (Decidable (¬ Text.Figures s))

/-- Of the keys of a configuration only texts and members are printed like a word. -/
theorem characters?_of_plain_eq {key : Value} {s : String} (hkey : key.isNamable = true)
    (hs : IsWord s) (h : key.plain = s) : key.characters? = some s := by
  cases key with
  | bool b =>
    have hfigures : Text.Figures (boolText b) := by cases b <;> decide
    exact absurd (h ▸ hfigures) hs
  | int i => exact absurd (h ▸ Text.figures_int i) hs
  | float x => exact absurd (h ▸ Text.figures_text x) hs
  | text t => exact congrArg some h
  | member m => exact congrArg some h
  | _ => exact nomatch hkey

/-! ### Lists and dictionaries -/

theorem held_of_isPlain {s : String} (h : (text s).isPlain = true) : (text s).Held := by
  unfold Held vet
  rw [Reference.split?_of_plain (of_decide_eq_true h)]
  rfl

/-- What counts as not given is held. -/
theorem held_of_not_truthy {v : Value} (h : v.isTruthy = false) : v.Held := by
  -- what counts as empty is plain, and so is held as it is
  cases v with
  | text s =>
    have hempty : s = "" := by simpa [isTruthy] using h
    rw [hempty]
    exact held_of_isPlain (by decide +kernel)
  | list items =>
    cases items with
    | nil => rfl
    | cons => exact nomatch h
  | dict entries =>
    cases entries with
    | nil => rfl
    | cons => exact nomatch h
  | time | function => exact nomatch h
  | _ => rfl

theorem held_list {items : List Value} : (list items).Held ↔ ∀ v ∈ items, v.Held := by
  change vetItems items = .ok () ↔ _
  induction items with
  | nil => exact ⟨fun _ v hv => absurd hv List.not_mem_nil, fun _ => rfl⟩
  | cons v vs ih =>
    rw [vetItems, bind_eq_ok, List.forall_mem_cons, ← ih]
    exact ⟨fun ⟨_, hv, hvs⟩ => ⟨hv, hvs⟩, fun ⟨hv, hvs⟩ => ⟨(), hv, hvs⟩⟩

theorem isMistakable_eq_false {entries : List (Value × Value)} {key : Value} :
    isMistakable entries key = false ↔ ∀ e ∈ entries, Apart key e.1 := by
  unfold isMistakable Apart
  rw [List.any_eq_false]
  refine forall₂_congr fun e _ => ?_
  rw [Bool.and_eq_true, beq_iff_eq, Bool.not_eq_true', not_and, Bool.not_eq_false]

theorem held_dict_cons {e : Value × Value} {entries : List (Value × Value)} :
    (dict (e :: entries)).Held ↔
      (e.1.isNamable = true ∧ ∀ f ∈ entries, Apart e.1 f.1) ∧ e.2.Held ∧ (dict entries).Held := by
  obtain ⟨k, v⟩ := e
  change vetEntries ((k, v) :: entries) = .ok () ↔ _
  rw [vetEntries, ← isMistakable_eq_false]
  dsimp only
  -- the key is looked at first, then the keys behind it, then the value
  cases k.isNamable with
  | false => exact ⟨fun h => (nomatch h), fun h => (nomatch h.1.1)⟩
  | true =>
    cases isMistakable entries k with
    | true => exact ⟨fun h => (nomatch h), fun h => (nomatch h.1.2)⟩
    | false =>
      refine Iff.trans ?_ (and_iff_right ⟨rfl, rfl⟩).symm
      exact bind_eq_ok.trans ⟨fun ⟨_, hv, hes⟩ => ⟨hv, hes⟩, fun ⟨hv, hes⟩ => ⟨(), hv, hes⟩⟩

/-- A dictionary is held if every entry is and no two keys are mistaken for each other. -/
theorem held_dict {entries : List (Value × Value)} :
    (dict entries).Held ↔
      (∀ e ∈ entries, e.1.isNamable = true ∧ e.2.Held) ∧
        entries.Pairwise fun e f => Apart e.1 f.1 := by
  induction entries with
  | nil => exact ⟨fun _ => ⟨fun e he => absurd he List.not_mem_nil, .nil⟩, fun _ => rfl⟩
  | cons e es ih =>
    rw [held_dict_cons, ih, List.forall_mem_cons, List.pairwise_cons]
    tauto

/-! ### One section put into a dictionary -/

/-- Puts a value under a text key: in place of the first entry there, or at the end. -/
def put (own : List (Value × Value)) (key : String) (v : Value) : List (Value × Value) :=
  match own with
  | [] => [(.text key, v)]
  | e :: es => if e.1.characters? = some key then (e.1, v) :: es else e :: put es key v

theorem lookupIn_put (own : List (Value × Value)) (key : String) (v : Value) (s : String) :
    lookupIn (put own key v) s = if key = s then some v else lookupIn own s := by
  have hkey : ∀ t, (text key).characters? = some t ↔ key = t := fun t =>
    ⟨fun h => Option.some.inj h, congrArg some⟩
  -- the key may stand at the head of the section, or the section has to be put further on
  induction own with
  | nil =>
    rw [put, lookupIn_cons]
    exact if_congr (hkey s) rfl rfl
  | cons e es ih =>
    rw [put]
    by_cases he : e.1.characters? = some key
    · rw [if_pos he, lookupIn_cons, lookupIn_cons, he]
      by_cases hs : key = s
      · rw [if_pos (congrArg some hs), if_pos hs]
      · rw [if_neg fun h => hs (Option.some.inj h), if_neg hs,
          if_neg fun h => hs (Option.some.inj h)]
    · rw [if_neg he, lookupIn_cons, lookupIn_cons, ih]
      by_cases hs : key = s
      · subst hs
        rw [if_neg he, if_pos rfl, if_pos rfl]
      · rw [if_neg hs, if_neg hs]

theorem get_put_self (own : List (Value × Value)) (key : String) (v : Value) :
    get (put own key v) key = v := by
  unfold get
  rw [lookupIn_put, if_pos rfl]
  rfl

theorem get_put_of_ne {key s : String} (h : key ≠ s) (own : List (Value × Value)) (v : Value) :
    get (put own key v) s = get own s := by
  unfold get
  rw [lookupIn_put, if_neg h]

theorem isPlain_put {own : List (Value × Value)} {key : String} {v : Value}
    (hown : (dict own).isPlain = true) (hv : v.isPlain = true) :
    (dict (put own key v)).isPlain = true := by
  rw [isPlain_dict] at hown ⊢
  induction own with
  | nil => exact fun e he => List.mem_singleton.1 he ▸ hv
  | cons e es ih =>
    obtain ⟨he, hes⟩ := List.forall_mem_cons.1 hown
    rw [put]
    split
    · exact List.forall_mem_cons.2 ⟨hv, hes⟩
    · exact List.forall_mem_cons.2 ⟨he, ih hes⟩

theorem isPlain_get {own : List (Value × Value)} (h : (dict own).isPlain = true) (key : String) :
    (get own key).isPlain = true := by
  unfold get
  cases hentry : lookupIn own key with
  | none => rfl
  | some v =>
    rw [lookupIn_eq, Option.map_eq_some_iff] at hentry
    obtain ⟨e, he, rfl⟩ := hentry
    exact isPlain_dict.1 h e (List.mem_of_find?_eq_some he)

theorem isPlain_single {key v : Value} : (dict [(key, v)]).isPlain = v.isPlain := by
  change (v.isPlain && true) = v.isPlain
  exact Bool.and_true _

theorem apart_put_iff {own : List (Value × Value)} {key : String} {v k : Value}
    (hkey : IsWord key) (hk : k.isNamable = true) :
    (∀ f ∈ put own key v, Apart k f.1) ↔ ∀ f ∈ own, Apart k f.1 := by
  -- by recursion on the entries, since the key put in takes the place of one that is the same
  induction own with
  | nil =>
    refine iff_of_true (fun f hf => ?_) fun f hf => absurd hf List.not_mem_nil
    rw [List.mem_singleton.1 hf]
    intro hplain
    rw [same_of_characters_left rfl, characters?_of_plain_eq hk hkey hplain.symm]
    exact beq_self_eq_true _
  | cons e es ih =>
    rw [put]
    split
    · rw [List.forall_mem_cons, List.forall_mem_cons]
    · rw [List.forall_mem_cons, List.forall_mem_cons, ih]

/-- **To put a section into a dictionary, only the section has to be looked at.** -/
theorem held_put {own : List (Value × Value)} {key : String} (hkey : IsWord key) (v : Value) :
    (dict (put own key v)).Held ∧ (get own key).Held ↔ (dict own).Held ∧ v.Held := by
  -- induction along the section up to the place where the key is put
  induction own with
  | nil =>
    rw [put, held_dict_cons]
    have hnil : (dict []).Held := rfl
    have hnull : (get [] key).Held := rfl
    have hnone : ∀ f ∈ ([] : List (Value × Value)), Apart (text key) f.1 :=
      fun f hf => absurd hf List.not_mem_nil
    exact ⟨fun h => ⟨hnil, h.1.2.1⟩, fun h => ⟨⟨⟨rfl, hnone⟩, h.2, hnil⟩, hnull⟩⟩
  | cons e es ih =>
    have hget : get (e :: es) key = if e.1.characters? = some key then e.2 else get es key := by
      unfold get
      rw [lookupIn_cons]
      split <;> rfl
    rw [put, hget]
    split
    · -- the section is put in place of another one, under the key that stands there
      rw [held_dict_cons, held_dict_cons]
      tauto
    · rw [held_dict_cons, held_dict_cons]
      by_cases hk : e.1.isNamable = true
      · rw [apart_put_iff hkey hk]
        tauto
      · tauto

theorem held_get {own : List (Value × Value)} {key : String} (hkey : IsWord key)
    (h : (dict own).Held) : (get own key).Held :=
  ((held_put hkey .null).2 ⟨h, rfl⟩).2

/-- A section may be replaced by one that is held when it is. -/
theorem held_put_iff {own : List (Value × Value)} {key : String} {v : Value} (hkey : IsWord key)
    (hv : (get own key).Held ↔ v.Held) : (dict own).Held ↔ (dict (put own key v)).Held := by
  constructor
  · exact fun h => ((held_put hkey v).2 ⟨h, hv.1 (held_get hkey h)⟩).1
  · intro h
    have hget := held_get hkey h
    rw [get_put_self] at hget
    exact ((held_put hkey v).1 ⟨h, hv.2 hget⟩).1

theorem held_single {key : String} {v : Value} : (dict [(text key, v)]).Held ↔ v.Held := by
  rw [held_dict_cons]
  have hnil : (dict []).Held := rfl
  exact ⟨fun h => h.2.1, fun h => ⟨⟨rfl, fun f hf => absurd hf List.not_mem_nil⟩, h, hnil⟩⟩

theorem held_pair {key other : String} (hne : key ≠ other) {v w : Value} :
    (dict [(text key, v), (text other, w)]).Held ↔ v.Held ∧ w.Held := by
  rw [held_dict_cons, held_single, and_iff_right]
  refine ⟨rfl, fun f hf hplain => ?_⟩
  rw [List.mem_singleton.1 hf] at hplain
  exact absurd hplain.symm hne

/-! ### A style laid over properties -/

theorem mem_insert {entries : List (Value × Value)} {key v : Value} {e : Value × Value}
    (h : e ∈ insert entries key v) :
    e ∈ entries ∨ e.2 = v ∧ (e.1 = key ∨ ∃ f ∈ entries, f.1 = e.1) := by
  unfold insert at h
  -- an entry is replaced under its own key
  split at h
  · obtain ⟨f, hf, rfl⟩ := List.mem_map.1 h
    split
    · exact Or.inr ⟨rfl, Or.inr ⟨f, hf, rfl⟩⟩
    · exact Or.inl hf
  -- or a new one is added at the end
  · rcases List.mem_append.1 h with h | h
    · exact Or.inl h
    · rw [List.mem_singleton.1 h]
      exact Or.inr ⟨rfl, Or.inl rfl⟩

theorem held_insert {entries : List (Value × Value)} {key v : Value}
    (h : (dict entries).Held) (hkey : key.isNamable = true) (hv : v.Held)
    (hapart : ∀ e ∈ entries, Apart e.1 key) : (dict (insert entries key v)).Held := by
  obtain ⟨hentries, hpairs⟩ := held_dict.1 h
  -- every value is one that was held before, or the new one
  refine held_dict.2 ⟨fun e he => ?_, ?_⟩
  · rcases mem_insert he with he | ⟨hval, hname | ⟨f, hf, hname⟩⟩
    · exact hentries e he
    · exact ⟨hname ▸ hkey, hval ▸ hv⟩
    · exact ⟨hname ▸ (hentries f hf).1, hval ▸ hv⟩
  -- no two keys are mistaken for each other: a replaced entry keeps its key
  · unfold insert
    split
    · refine List.pairwise_map.2 (hpairs.imp fun {e f} hef => ?_)
      split <;> split <;> exact hef
    · refine List.pairwise_append.2 ⟨hpairs, List.pairwise_singleton _ _, fun e he f hf => ?_⟩
      rw [List.mem_singleton.1 hf]
      exact hapart e he

/-- **Entries that are held apart are held one over the other**, if no key of one is mistaken for a
key of the other. -/
theorem held_overlay {base top : List (Value × Value)} (hbase : (dict base).Held)
    (htop : (dict top).Held) (hapart : ∀ e ∈ base, ∀ f ∈ top, Apart e.1 f.1) :
    (dict (overlay base top)).Held := by
  induction top generalizing base with
  | nil => exact hbase
  | cons d rest ih =>
    obtain ⟨⟨hnamable, hd⟩, hval, hrest⟩ := held_dict_cons.1 htop
    rw [overlay_cons]
    refine ih (held_insert hbase hnamable hval fun e he => hapart e he d List.mem_cons_self) hrest
      fun e he f hf => ?_
    -- entries below stay apart from those still to come
    have hbelow : ∀ g ∈ base, Apart g.1 f.1 := fun g hg => hapart g hg f (List.mem_cons_of_mem _ hf)
    rcases mem_insert he with he | ⟨-, hname | ⟨g, hg, hname⟩⟩
    · exact hbelow e he
    · exact hname ▸ hd f hf
    · exact hname ▸ hbelow g hg

theorem isPlain_overlay {base top : List (Value × Value)} (hbase : (dict base).isPlain = true)
    (htop : (dict top).isPlain = true) : (dict (overlay base top)).isPlain = true := by
  rw [isPlain_dict] at hbase htop ⊢
  induction top generalizing base with
  | nil => exact hbase
  | cons d rest ih =>
    obtain ⟨hd, hrest⟩ := List.forall_mem_cons.1 htop
    rw [overlay_cons]
    refine ih (fun e he => ?_) hrest
    rcases mem_insert he with he | ⟨hval, -⟩
    · exact hbase e he
    · exact hval ▸ hd

end Value

end PlotGrammar

import PlotGrammar.Table.Column
import PlotGrammar.Table.Group
import Mathlib

/-!
# Groups are a partition

Statistics divide rows by the cells these have in some columns (`rowKey`). There is a group for each
key, and one of all rows if there are no columns (`Group.columnKeys`). Every row belongs to exactly
one group (`Group.existsUnique_columnKeys`), so that counting rows group by group counts each row
once (`Group.sum_columnKeys`).
-/

namespace PlotGrammar

/-- A list is what stands at its places. -/
theorem map_getD_range {α : Type} {xs : List α} {n : Nat} (h : xs.length = n) (a : α) :
    (List.range n).map (fun i => xs.getD i a) = xs := by
  refine List.ext_getElem (by rw [List.length_map, List.length_range, h]) fun i hi hi' => ?_
  rw [List.getElem_map, List.getElem_range]
  exact List.getD_eq_getElem xs a hi'

/-- What the cells of a row in some columns are compared by. -/
def rowKey (columns : List Column) (i : Nat) : List CellKey :=
  columns.map fun column => (column.cells.getD i .missing).key

namespace Group

/-- Each key is listed once. -/
theorem nodup_eraseDups {κ : Type} [DecidableEq κ] (ks : List κ) : ks.eraseDups.Nodup := by
  generalize hlength : ks.length = n
  induction n using Nat.strongRecOn generalizing ks with
  | ind n ih =>
    cases ks with
    | nil => exact List.nodup_nil
    | cons k ks =>
      rw [List.eraseDups_cons]
      refine List.nodup_cons.2 ⟨fun hk => ?_, ?_⟩
      · -- the later ones differ from the first one
        have hne := (List.mem_filter.1 (List.mem_eraseDups.1 hk)).2
        rw [beq_self_eq_true] at hne
        exact Bool.false_ne_true hne
      · refine ih _ ?_ _ rfl
        rw [← hlength, List.length_cons]
        exact Nat.lt_succ_of_le (List.length_filter_le _ _)

variable {κ ρ : Type} [DecidableEq κ] {key : ρ → κ} {rows : List ρ}

theorem nodup_keys : (keys key rows).Nodup :=
  nodup_eraseDups _

/-- Rows that are made of others are grouped as these are. -/
theorem keys_map {σ : Type} (f : σ → ρ) (xs : List σ) :
    keys key (xs.map f) = keys (fun x => key (f x)) xs := by
  unfold keys
  rw [List.map_map]
  rfl

theorem rowsWith_map {σ : Type} (f : σ → ρ) (xs : List σ) (k : κ) :
    rowsWith key (xs.map f) k = (rowsWith (fun x => key (f x)) xs k).map f := by
  unfold rowsWith
  rw [List.filter_map]
  rfl

/-- Rows of one key form the group of this key, if there are any. -/
theorem keys_of_forall {k : κ} (h : ∀ r ∈ rows, key r = k) (hrows : rows ≠ []) :
    keys key rows = [k] := by
  obtain ⟨r, rest, rfl⟩ := List.exists_cons_of_ne_nil hrows
  have hothers : (rest.map key).filter (fun k' => !k' == k) = [] := by
    refine List.filter_eq_nil_iff.2 fun k' hk' => ?_
    obtain ⟨r', hr', rfl⟩ := List.mem_map.1 hk'
    rw [h r' (List.mem_cons_of_mem r hr'), beq_self_eq_true]
    exact Bool.false_ne_true
  unfold keys
  rw [List.map_cons, h r List.mem_cons_self, List.eraseDups_cons, hothers]
  rfl

/-- Rows of one key are one group. -/
theorem of_eq_singleton {k : κ} (h : ∀ r ∈ rows, key r = k) (hrows : rows ≠ []) :
    of key rows = [(k, rows)] := by
  have hall : rowsWith key rows k = rows :=
    List.filter_eq_self.2 fun r hr => decide_eq_true (h r hr)
  unfold of
  rw [keys_of_forall h hrows, List.map_singleton, hall]

/-- Rows of different keys are groups of their own. -/
theorem keys_of_nodup (h : (rows.map key).Nodup) : keys key rows = rows.map key := by
  unfold keys
  generalize rows.map key = ks at h
  induction ks with
  | nil => rfl
  | cons k ks ih =>
    obtain ⟨hk, hks⟩ := List.nodup_cons.1 h
    have hothers : ks.filter (fun k' => !k' == k) = ks := by
      refine List.filter_eq_self.2 fun k' hk' => ?_
      rw [Bool.not_eq_true', beq_eq_false_iff_ne]
      rintro rfl
      exact hk hk'
    rw [List.eraseDups_cons, hothers, ih hks]

/-- If there are as many groups as rows, the rows have different keys. -/
theorem nodup_of_length_keys (h : (keys key rows).length = rows.length) :
    (rows.map key).Nodup := by
  have hperm : (keys key rows).Perm (rows.map key).dedup := by
    refine (List.perm_ext_iff_of_nodup nodup_keys (List.nodup_dedup _)).2 fun k => ?_
    unfold keys
    rw [List.mem_eraseDups, List.mem_dedup]
  refine List.dedup_eq_self.1 ((List.dedup_sublist _).eq_of_length ?_)
  rw [← hperm.length_eq, h, List.length_map]

theorem rowsWith_of_nodup [DecidableEq ρ] (h : (rows.map key).Nodup) {r : ρ} (hr : r ∈ rows) :
    rowsWith key rows (key r) = [r] := by
  have hself : rowsWith key rows (key r) = rows.filter (· == r) := by
    refine List.filter_congr fun r' hr' => ?_
    rw [Bool.eq_iff_iff, decide_eq_true_iff, beq_iff_eq]
    exact ⟨List.inj_on_of_nodup_map h hr' hr, congrArg key⟩
  rw [hself, List.filter_beq, List.count_eq_one_of_mem h.of_map hr, List.replicate_one]

/-- A row is counted under its own key and under no other. -/
theorem sum_count_key {ks : List κ} (hks : ks.Nodup) {k : κ} (hk : k ∈ ks) (n : Nat) :
    (ks.map fun k' => if k = k' then n else 0).sum = n := by
  induction ks with
  | nil => exact absurd hk List.not_mem_nil
  | cons k' ks ih =>
    obtain ⟨hnotin, hks⟩ := List.nodup_cons.1 hks
    rw [List.map_cons, List.sum_cons]
    rcases List.mem_cons.1 hk with rfl | hmem
    · have hrest : (ks.map fun k' => if k = k' then n else 0) = ks.map fun _ => 0 := by
        refine List.map_congr_left fun k' hk' => if_neg ?_
        rintro rfl
        exact hnotin hk'
      rw [if_pos rfl, hrest, List.sum_map_zero, Nat.add_zero]
    · have hne : k ≠ k' := by
        rintro rfl
        exact hnotin hmem
      rw [if_neg hne, ih hks hmem, Nat.zero_add]

/-- Counting under distinct keys that include those of all rows counts each row once. -/
theorem sum_rowsWith {ks : List κ} (hks : ks.Nodup) (h : ∀ r ∈ rows, key r ∈ ks)
    (p : ρ → Bool) :
    (ks.map fun k => (rowsWith key rows k).countP p).sum = rows.countP p := by
  unfold rowsWith
  -- row by row: a row adds its one to the count of its own key, and to no other
  induction rows with
  | nil =>
    rw [List.countP_nil]
    exact List.sum_map_zero
  | cons r rows ih =>
    have hstep : ∀ k, ((r :: rows).filter fun r => decide (key r = k)).countP p =
        (if key r = k then (if p r then 1 else 0) else 0) +
          (rows.filter fun r => decide (key r = k)).countP p := by
      intro k
      rw [List.filter_cons]
      by_cases hk : key r = k
      · rw [if_pos (decide_eq_true hk), if_pos hk, List.countP_cons, Nat.add_comm]
      · rw [if_neg (by simpa using hk), if_neg hk, Nat.zero_add]
    rw [List.map_congr_left fun k _ => hstep k, List.sum_map_add,
      ih fun r' hr' => h r' (List.mem_cons_of_mem r hr'),
      sum_count_key hks (h r List.mem_cons_self), List.countP_cons, Nat.add_comm]

section Starts

variable {key : Nat → κ} {is : List Nat} {i : Nat}

/-- The rows of a key that is not that of the first row are those of the rows with another key than
the first one. -/
theorem rowsWith_cons_of_ne {k : κ} (h : k ≠ key i) :
    rowsWith key (i :: is) k = rowsWith key (is.filter fun j => !key j == key i) k := by
  unfold rowsWith
  rw [List.filter_cons_of_neg (by simpa using h.symm), List.filter_filter]
  refine List.filter_congr fun j _ => ?_
  by_cases hj : key j = k
  · have hne : (key j == key i) = false := beq_eq_false_iff_ne.2 (hj ▸ h)
    rw [hne, Bool.not_false, Bool.and_true]
  · rw [decide_eq_false hj, Bool.false_and]

theorem keys_cons :
    keys key (i :: is) = key i :: keys key (is.filter fun j => !key j == key i) := by
  unfold keys
  rw [List.map_cons, List.eraseDups_cons, List.filter_map]
  rfl

/-- **Groups come in the order in which their keys are first seen**: that of their first rows. -/
theorem pairwise_starts (h : is.Pairwise (· < ·)) :
    ((keys key is).map fun k => (rowsWith key is k).headD 0).Pairwise (· < ·) := by
  -- on the number of rows, as `keys` goes on with the rows of the other keys
  generalize hlength : is.length = n
  induction n using Nat.strongRecOn generalizing is with
  | ind n ih =>
    cases is with
    | nil => exact List.Pairwise.nil
    | cons i is =>
      obtain ⟨hfirst, hrest⟩ := List.pairwise_cons.1 h
      let others := is.filter fun j => !key j == key i
      -- the rows of another key are among the others, so nothing of theirs is lost
      have hlater : (keys key others).map (fun k => (rowsWith key (i :: is) k).headD 0) =
          (keys key others).map fun k => (rowsWith key others k).headD 0 := by
        refine List.map_congr_left fun k hk => ?_
        obtain ⟨j, hj, rfl⟩ := mem_keys.1 hk
        have hne : key j ≠ key i := by simpa using (List.mem_filter.1 hj).2
        rw [rowsWith_cons_of_ne hne]
      have hstart : (rowsWith key (i :: is) (key i)).headD 0 = i := by
        unfold rowsWith
        rw [List.filter_cons_of_pos (p := fun j => decide (key j = key i)) (decide_eq_true rfl)]
        rfl
      rw [keys_cons, List.map_cons, hstart, hlater]
      refine List.Pairwise.cons (fun j hj => ?_) (ih others.length ?_ (hrest.filter _) rfl)
      · -- the first row of a later key comes after the first row of all
        obtain ⟨k, hk, rfl⟩ := List.mem_map.1 hj
        obtain ⟨r, hr, hkey⟩ := mem_keys.1 hk
        have hmem : r ∈ rowsWith key others k := List.mem_filter.2 ⟨hr, decide_eq_true hkey⟩
        obtain ⟨start, rest, hcons⟩ := List.exists_cons_of_ne_nil (List.ne_nil_of_mem hmem)
        have hstart : start ∈ rowsWith key others k := hcons ▸ List.mem_cons_self
        rw [hcons]
        exact hfirst start (List.mem_filter.1 (List.mem_filter.1 hstart).1).1
      · rw [← hlength, List.length_cons]
        exact Nat.lt_succ_of_le (List.length_filter_le _ _)

end Starts

/-- The keys of the groups that columns divide rows into: all keys of rows, or the empty one if
there are no columns. -/
def columnKeys (columns : List Column) (is : List Nat) : List (List CellKey) :=
  if columns.isEmpty then [[]] else keys (rowKey columns) is

section Columns

variable {columns : List Column} {is : List Nat}

theorem columnKeys_of_isEmpty (h : columns.isEmpty = true) : columnKeys columns is = [[]] :=
  if_pos h

theorem columnKeys_of_not_isEmpty (h : columns.isEmpty = false) :
    columnKeys columns is = keys (rowKey columns) is := by
  unfold columnKeys
  rw [h]
  rfl

/-- Without columns all rows have one key. -/
theorem rowsWith_of_isEmpty (h : columns.isEmpty = true) :
    rowsWith (rowKey columns) is [] = is := by
  rw [List.isEmpty_iff.1 h]
  exact List.filter_eq_self.2 fun i _ => decide_eq_true rfl

theorem nodup_columnKeys : (columnKeys columns is).Nodup := by
  unfold columnKeys
  split
  · exact List.nodup_singleton _
  · exact nodup_keys

theorem rowKey_mem_columnKeys {i : Nat} (h : i ∈ is) :
    rowKey columns i ∈ columnKeys columns is := by
  unfold columnKeys
  split
  · next hnone =>
    rw [List.isEmpty_iff.1 hnone]
    exact List.mem_cons_self
  · exact mem_keys.2 ⟨i, h, rfl⟩

/-- Every row is in one group. -/
theorem existsUnique_columnKeys {i : Nat} (h : i ∈ is) :
    ∃! key, key ∈ columnKeys columns is ∧ i ∈ rowsWith (rowKey columns) is key := by
  have hmem : i ∈ rowsWith (rowKey columns) is (rowKey columns i) :=
    List.mem_filter.2 ⟨h, decide_eq_true rfl⟩
  refine ⟨rowKey columns i, ⟨rowKey_mem_columnKeys h, hmem⟩, ?_⟩
  rintro key ⟨-, hkey⟩
  exact (of_decide_eq_true (List.mem_filter.1 hkey).2).symm

/-- **Counting group by group counts each row once.** -/
theorem sum_columnKeys (p : Nat → Bool) :
    ((columnKeys columns is).map fun key => (rowsWith (rowKey columns) is key).countP p).sum =
      is.countP p :=
  sum_rowsWith nodup_columnKeys (fun _ hi => rowKey_mem_columnKeys hi) p

end Columns

end Group

end PlotGrammar

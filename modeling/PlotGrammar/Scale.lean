import PlotGrammar.Logged
import PlotGrammar.Table

/-!
# Scales

One scale exists per channel, shared by all layers. Its kind is that of the first column that feeds
it; what follows can only widen its range or add levels at the end.

* `ScaleState.extend` adds cells, one after the other: to the levels of a discrete scale those that
  no level equals, to the range of another one those below or above it.
* `ScaleState.freeze` gives the domain. A scale without usable cells is not valid.
-/

namespace PlotGrammar

/-- The domain of a channel: levels in the order in which they were first seen, or a least and a
greatest value. -/
structure Scale where
  channel : Channel
  kind : ColumnKind
  domain : List Cell
  valid : Bool

namespace Scale

/-- Whether the scale holds levels. -/
def isDiscrete (s : Scale) : Bool :=
  s.kind == .discrete

/-- The least and the greatest value of a valid scale that holds no levels. -/
def limits? (s : Scale) : Option (Cell × Cell) :=
  match s.isDiscrete, s.valid, s.domain with
  | false, true, [low, high] => some (low, high)
  | _, _, _ => none

end Scale

/-- A scale while it is being extended. -/
structure ScaleState where
  kind : ColumnKind
  range : Option (Cell × Cell)
  levels : List Cell

namespace ScaleState

/-- The scale that nothing has fed. -/
def empty (kind : ColumnKind) : ScaleState :=
  ⟨kind, none, []⟩

/-- The levels with a cell that none of them equals added at the end. -/
def addLevel (levels : List Cell) (c : Cell) : List Cell :=
  if levels.any fun l => l.key == c.key then levels else levels ++ [c]

/-- The range with a cell in it; of equal ends the earlier one stays. -/
def widen (range : Option (Cell × Cell)) (c : Cell) : Option (Cell × Cell) :=
  match range with
  | none => some (c, c)
  | some (low, high) => some (if c.less low then c else low, if high.less c then c else high)

/-- The cells of a column that a scale of a kind can use: finite numbers, timestamps, or whatever is
not missing. Only cells that are keys can be levels. -/
def usable (kind : ColumnKind) (column : Column) : Except Fault (List Cell) :=
  match kind with
  | .discrete =>
    if column.isKeyed then .ok ((column.cells.filter fun c => !c.isMissing).map column.level)
    else .error .wrongShape
  | .continuous => .ok (column.amounts.filter Cell.isFinite)
  | .temporal => .ok (column.times.filter fun c => !c.isMissing)

/-- The scale extended by cells it can use. -/
def extend (s : ScaleState) (cells : List Cell) : ScaleState :=
  match s.kind with
  | .discrete => { s with levels := cells.foldl addLevel s.levels }
  | _ => { s with range := cells.foldl widen s.range }

/-- The domain as it stands. -/
def freeze (channel : Channel) (s : ScaleState) : Scale :=
  match s.kind, s.range with
  | .discrete, _ => ⟨channel, s.kind, s.levels, !s.levels.isEmpty⟩
  | _, none => ⟨channel, s.kind, [], false⟩
  | _, some (low, high) => ⟨channel, s.kind, [low, high], true⟩

@[simp] theorem kind_extend (s : ScaleState) (cells : List Cell) :
    (s.extend cells).kind = s.kind := by
  unfold extend
  split <;> rfl

@[simp] theorem extend_nil (s : ScaleState) : s.extend [] = s := by
  unfold extend
  split <;> rfl

theorem extend_append (s : ScaleState) (xs ys : List Cell) :
    s.extend (xs ++ ys) = (s.extend xs).extend ys := by
  obtain ⟨kind, range, levels⟩ := s
  cases kind <;> simp [extend, List.foldl_append]

end ScaleState

end PlotGrammar

/-!
# Kinds of columns

The declared kind of a column decides which statistics accept it and which scale it feeds.
-/

namespace PlotGrammar

/-- How the values of a column are to be read. -/
inductive ColumnKind where
  | continuous
  | discrete
  | temporal
  deriving DecidableEq, Repr, Inhabited

namespace ColumnKind

/-- Every kind. -/
def all : List ColumnKind :=
  [continuous, discrete, temporal]

/-- The name a kind is written with. -/
def name : ColumnKind → String
  | continuous => "continuous"
  | discrete => "discrete"
  | temporal => "temporal"

/-- The kind with exactly this name. -/
def ofName? (text : String) : Option ColumnKind :=
  all.find? fun k => k.name == text

/-- Whether values of this kind lie between a least and a greatest one. -/
def isRanged (k : ColumnKind) : Bool :=
  k != discrete

end ColumnKind

end PlotGrammar

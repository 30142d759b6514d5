/-!
# Kinds of statistics

The closed set of transforms a layer can run over its data before it is drawn.
-/

namespace PlotGrammar

/-- A statistical transform: leave the data, count it in bins, reduce it group by group, or
estimate its density. -/
inductive StatKind where
  | identity
  | bin
  | summary
  | density
  deriving DecidableEq, Repr, Inhabited

namespace StatKind

/-- Every kind, in listing order. -/
def all : List StatKind :=
  [identity, bin, summary, density]

/-- The name a kind is written with. -/
def name : StatKind → String
  | identity => "identity"
  | bin => "bin"
  | summary => "summary"
  | density => "density"

/-- The kind with exactly this name. -/
def ofName? (text : String) : Option StatKind :=
  all.find? fun k => k.name == text

theorem ofName?_name (k : StatKind) : ofName? k.name = some k := by
  cases k <;> decide

end StatKind

end PlotGrammar

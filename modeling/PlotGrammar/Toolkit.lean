import PlotGrammar.Stat.Aggregate

/-!
# Toolkits

Summaries name the reduction they use and density curves their kernel. A toolkit says what the names
mean, in the order in which they were made known, and which functions a caller may pass directly.
Callers extend the standard toolkit under names of their own; any value that can be a key is a name.

A function that a caller supplies may be made known either way. As a reduction it takes a column, as
a kernel the distances of all values from all points: one that gives a single number for all of them
(`Weighing.lone`) makes no curve.
-/

namespace PlotGrammar

/-- The weight a kernel gives to a distance, measured in bandwidths. -/
abbrev Kernel := Float → Float

/-- What is made of distances. -/
inductive Weighing where
  /-- A weight for each distance. -/
  | each (weigh : Kernel)
  /-- One number for all distances, and the fault of a curve that is to be made of it. -/
  | lone (measure : List Float → Except Fault Number) (fault : Fault)

/-- A function a caller supplies, in its two uses. -/
structure Supplied where
  reduce : Aggregator
  weigh : Weighing

/-- The named reductions and kernels, and the functions a caller may pass. -/
structure Toolkit where
  aggregators : List (Value × Aggregator)
  kernels : List (Value × Weighing)
  functions : List (String × Supplied)

namespace Kernel

/-- The bell curve. -/
def gaussian : Kernel := fun u =>
  Float.exp (-0.5 * u * u) / Float.sqrt (2 * 3.141592653589793)

/-- A parabola over the distances up to one bandwidth. -/
def epanechnikov : Kernel := fun u =>
  if Binary64.le u.abs 1 then 0.75 * (1 - u * u) else 0

/-- One half over the distances up to one bandwidth. -/
def box : Kernel := fun u =>
  if Binary64.le u.abs 1 then 0.5 else 0

/-- No weight anywhere. -/
def flat : Kernel := fun _ =>
  0

end Kernel

namespace Weighing

/-- The greatest distance less the least one; there has to be one. -/
def spread : List Float → Except Fault Number
  | [] => .error .badValue
  | u :: us =>
    let later (wins : Float → Float → Bool) (best v : Float) :=
      if Binary64.isNaN v || wins v best then v else best
    let high := us.foldl (later fun v best => Binary64.lt best v) u
    let low := us.foldl (later Binary64.lt) u
    .ok (.float (high - low))

end Weighing

namespace Supplied

/-- A function of one number. -/
def pointwise (f : Float → Float) : Supplied :=
  ⟨Aggregate.each f, .each f⟩

/-- The greatest value less the least one. -/
def spread : Supplied :=
  ⟨Aggregate.range, .lone Weighing.spread .loneWeight⟩

/-- The first value; distances have none. -/
def first : Supplied :=
  ⟨Aggregate.first, .lone (fun _ => .error .noEntries) .noEntries⟩

/-- The number of values. -/
def size : Supplied :=
  ⟨Aggregate.size, .lone (fun us => .ok (.int us.length)) .noEntries⟩

end Supplied

namespace Toolkit

/-- The reductions and kernels that are always known, and functions that can be added to them. -/
def standard : Toolkit where
  aggregators :=
    [(.text "mean", Aggregate.mean), (.text "sum", Aggregate.sum),
      (.text "median", Aggregate.median), (.text "count", Aggregate.count),
      (.text "min", Aggregate.min), (.text "max", Aggregate.max)]
  kernels :=
    [(.text "gaussian", .each Kernel.gaussian), (.text "epanechnikov", .each Kernel.epanechnikov)]
  functions :=
    [("spread", .spread), ("first", .first), ("size", .size), ("box", .pointwise Kernel.box),
      ("flat", .pointwise Kernel.flat)]

/-- The reduction known under a name. -/
def aggregator? (kit : Toolkit) (name : Value) : Option Aggregator :=
  Value.entry? kit.aggregators name

/-- The kernel known under a name. -/
def kernel? (kit : Toolkit) (name : Value) : Option Weighing :=
  Value.entry? kit.kernels name

/-- The names of a list, which are shown only if all of them are texts. -/
def shownNames {α : Type} (entries : List (Value × α)) : Except Fault (List String) :=
  entries.mapM fun e =>
    match e.1.characters? with
    | some name => .ok name
    | none => .error .wrongShape

/-- The function a value stands for. -/
def function? (kit : Toolkit) : Value → Option Supplied
  | .function name => kit.functions.lookup name
  | _ => none

/-- The reduction a value stands for when it is a function. -/
def reduction? (kit : Toolkit) (v : Value) : Option Aggregator :=
  (kit.function? v).map Supplied.reduce

/-- Reads what is to be made known: a name and a function, both of which have to be given. -/
def offered (kit : Toolkit) (name function : Value) (refusal : Misuse) :
    Except Failure Supplied :=
  match name.isTruthy, kit.function? function with
  | true, some f => if name.isKey then .ok f else .error (.fault .wrongShape)
  | _, _ => .error (.misuse refusal)

/-- Makes a reduction known under a name. -/
def registerAggregator (kit : Toolkit) (name function : Value) : Except Failure Toolkit := do
  let f ← kit.offered name function .aggregatorRefused
  pure { kit with aggregators := Value.insert kit.aggregators name f.reduce }

/-- Makes a kernel known under a name. -/
def registerKernel (kit : Toolkit) (name function : Value) : Except Failure Toolkit := do
  let f ← kit.offered name function .kernelRefused
  pure { kit with kernels := Value.insert kit.kernels name f.weigh }

end Toolkit

end PlotGrammar

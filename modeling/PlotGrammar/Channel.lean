/-!
# Visual channels

A *channel* is one visual property that data can drive: a position along an axis, a colour, a
size. The set is closed and ordered; every listing of channels, in a mapping, in a scale set or in
an error list, follows the order of `Channel.all`.

* `Channel.ofName?` reads a channel's own name, `Channel.parse?` also its alternative spellings.
* `Channel.scaleChannel` sends the two ends of an interval (`ymin`, `ymax`) to the `y` scale.
* `Channel.mem_all` and `Channel.ofName?_name` say that the listing is complete and that names
  identify channels.
-/

namespace PlotGrammar

/-- A visual property that data can drive. -/
inductive Channel where
  | x
  | y
  | ymin
  | ymax
  | color
  | fill
  | alpha
  | size
  | shape
  | linetype
  | group
  deriving DecidableEq, Repr, Inhabited

namespace Channel

/-- Every channel, in listing order. -/
def all : List Channel :=
  [x, y, ymin, ymax, color, fill, alpha, size, shape, linetype, group]

/-- The name a channel is written with. -/
def name : Channel → String
  | x => "x"
  | y => "y"
  | ymin => "ymin"
  | ymax => "ymax"
  | color => "color"
  | fill => "fill"
  | alpha => "alpha"
  | size => "size"
  | shape => "shape"
  | linetype => "linetype"
  | group => "group"

/-- The channel with exactly this name. -/
def ofName? (text : String) : Option Channel :=
  all.find? fun c => c.name == text

/-- Alternative spellings and the names they stand for. -/
def aliases : List (String × String) :=
  [("colour", "color"), ("opacity", "alpha"), ("lty", "linetype")]

/-- The channel a text names, by its own name or by an alternative spelling. -/
def parse? (text : String) : Option Channel :=
  ofName? ((aliases.lookup text).getD text)

/-- Whether the channel places marks along an axis. -/
def isPositional : Channel → Bool
  | x | y | ymin | ymax => true
  | _ => false

/-- The channel whose scale this channel shares: an interval along `y` is measured on `y`. -/
def scaleChannel : Channel → Channel
  | ymin | ymax => y
  | c => c

theorem mem_all (c : Channel) : c ∈ all := by
  cases c <;> decide

theorem ofName?_name (c : Channel) : ofName? c.name = some c := by
  cases c <;> decide

@[simp] theorem scaleChannel_scaleChannel (c : Channel) :
    c.scaleChannel.scaleChannel = c.scaleChannel := by
  cases c <;> rfl

end Channel

/-- One of the two axes a statistic can run along. -/
inductive Axis where
  | x
  | y
  deriving DecidableEq, Repr, Inhabited

namespace Axis

/-- Both axes, the horizontal one first. -/
def all : List Axis :=
  [x, y]

/-- The channel that places marks along the axis. -/
def channel : Axis → Channel
  | x => .x
  | y => .y

/-- The name of the axis, which is the name of its channel. -/
def name (a : Axis) : String :=
  a.channel.name

/-- The perpendicular axis. -/
def other : Axis → Axis
  | x => y
  | y => x

/-- The axis with exactly this name. -/
def ofName? (text : String) : Option Axis :=
  all.find? fun a => a.name == text

end Axis

end PlotGrammar

import PlotGrammar.Timestamp

/-!
# Formats of dates

A date is written in digits: year, month and day, with one separator between them or with none, and
perhaps a time of day after a `T` or a blank. The format of a text is the order of its parts,
without their values; what follows the year may be left out from its end.

* `Timestamp.Format.of?` finds the format of a text, looking at the lengths of its runs of digits.
* `Timestamp.Format.read?` reads a text in a given format. Where the format has two digits, a text
  may have one.
* `Timestamp.parse?` reads a text in its own format, `Timestamp.isZoned` finds a zone behind one.
-/

namespace PlotGrammar.Timestamp

/-- A part of a date or of a time of day. -/
inductive Part where
  | year
  | month
  | day
  | hour
  | minute
  | second
  | fraction
  deriving DecidableEq, Repr

/-- A place of a format: the digits of a part, or a character that stands for itself. -/
inductive Mark where
  | digits (part : Part)
  | sign (c : Char)
  deriving DecidableEq, Repr

/-- The order in which the parts of a date are written. -/
abbrev Format := List Mark

/-- Reads exactly so many decimal digits. -/
def digits? : Nat → List Char → Option (Nat × List Char)
  | 0, cs => some (0, cs)
  | n + 1, cs => do
    let (high, rest) ← digits? n cs
    match rest with
    | c :: rest => if c.isDigit then some (high * 10 + (c.toNat - 48), rest) else none
    | [] => none

/-- How many digits a part may have, the most first. -/
def Part.widths : Part → List Nat
  | year => [4]
  | fraction => [9, 8, 7, 6, 5, 4, 3, 2, 1]
  | _ => [2, 1]

/-- The parts with one of them set to a number of so many digits. -/
def Part.set (part : Part) (width n : Nat) (p : Parts) : Parts :=
  match part with
  | year => { p with year := n }
  | month => { p with month := n }
  | day => { p with day := n }
  | hour => { p with hour := n }
  | minute => { p with minute := n }
  | second => { p with second := n }
  | fraction => { p with nanos := n * Nat.pow 10 (9 - width) }

/-- Whether a part can have a value. -/
def Part.admits (part : Part) (n : Nat) : Bool :=
  match part with
  | month => 1 ≤ n && n ≤ 12
  | day => 1 ≤ n && n ≤ 31
  | hour => n < 24
  | minute | second => n < 60
  | year | fraction => true

namespace Format

/-- A run of digits, or a character between two runs. -/
inductive Run where
  | digits (length : Nat)
  | sign (c : Char)
  deriving DecidableEq, Repr

/-- The runs of a text. -/
def runs : List Char → List Run
  | [] => []
  | c :: cs =>
    if c.isDigit then
      match runs cs with
      | .digits n :: rest => .digits (n + 1) :: rest
      | rest => .digits 1 :: rest
    else .sign c :: runs cs

/-- The format of a fraction of a second, which may be left out. -/
def fraction? : List Run → Option Format
  | [] => some []
  | [.sign '.', .digits n] => if n ≤ 9 then some [.sign '.', .digits .fraction] else none
  | _ => none

/-- The format of a time of day: the hour alone, or what follows it with colons or without. -/
def clock? : List Run → Option Format
  | [.digits 2] => some [.digits .hour]
  | [.digits 4] => some [.digits .hour, .digits .minute]
  | .digits 6 :: rest => do
    pure ([.digits .hour, .digits .minute, .digits .second] ++ (← fraction? rest))
  | [.digits h, .sign ':', .digits m] =>
    if h ≤ 2 ∧ m ≤ 2 then some [.digits .hour, .sign ':', .digits .minute] else none
  | .digits h :: .sign ':' :: .digits m :: .sign ':' :: .digits s :: rest =>
    if h ≤ 2 ∧ m ≤ 2 ∧ s ≤ 2 then do
      pure ([.digits .hour, .sign ':', .digits .minute, .sign ':', .digits .second] ++
        (← fraction? rest))
    else none
  | _ => none

/-- The format of a time of day behind a date, which may be left out. -/
def timeOfDay? : List Run → Option Format
  | [] => some []
  | .sign c :: rest =>
    if c = 'T' ∨ c = ' ' then (clock? rest).map fun clock => .sign c :: clock else none
  | _ => none

/-- Whether a character can stand between year, month and day. -/
def separates (c : Char) : Bool :=
  c == '-' || c == '/' || c == '.' || c == '\\' || c == ' '

/-- The format of a date from its runs. -/
def ofRuns? : List Run → Option Format
  | [.digits 4] => some [.digits .year]
  | .digits 8 :: rest => do
    pure ([.digits .year, .digits .month, .digits .day] ++ (← timeOfDay? rest))
  | [.digits 4, .sign c, .digits m] =>
    if separates c && m ≤ 2 then some [.digits .year, .sign c, .digits .month] else none
  | .digits 4 :: .sign c :: .digits m :: .sign d :: .digits n :: rest =>
    if separates c && c == d && m ≤ 2 && n ≤ 2 then do
      pure ([.digits .year, .sign c, .digits .month, .sign c, .digits .day] ++
        (← timeOfDay? rest))
    else none
  | _ => none

/-- The format a text is written in. -/
def of? (text : String) : Option Format :=
  ofRuns? (runs text.toList)

/-- Whether a format names a day, or leaves it out in one of the two usual ways. -/
def isUsual (format : Format) : Bool :=
  format.contains (.digits .day) || format == [.digits .year] ||
    format == [.digits .year, .sign '-', .digits .month]

/-- Reads the parts of a text in a format. Of the lengths a part may have, the first one with which
the rest of the text can be read is taken. -/
def parts? : Format → Parts → List Char → Option Parts
  | [], p, cs => if cs.isEmpty then some p else none
  | .sign c :: format, p, cs =>
    match cs with
    | d :: rest => if c = d then parts? format p rest else none
    | [] => none
  | .digits part :: format, p, cs =>
    part.widths.findSome? fun width => do
      let (n, rest) ← digits? width cs
      if part.admits n then parts? format (part.set width n p) rest else none

/-- Reads a text in a format. -/
def read? (format : Format) (text : String) : Option Timestamp := do
  ofParts? (← parts? format {} text.toList)

end Format

/-- Reads a date in the format it is written in. -/
def parse? (text : String) : Option Timestamp := do
  (← Format.of? text).read? text

/-- Whether runs are a zone: a `Z`, or the hours and perhaps the minutes by which its clocks are
ahead or behind. -/
def isZone : List Format.Run → Bool
  | [.sign 'Z'] => true
  | [.sign c, .digits n] => (c == '+' || c == '-') && (n ≤ 2 || n == 4)
  | [.sign c, .digits h, .sign ':', .digits m] => (c == '+' || c == '-') && h ≤ 2 && m ≤ 2
  | _ => false

/-- Whether a text is a date with a time of day in a zone. -/
def isZoned (text : String) : Bool :=
  let cs := text.toList
  (List.range cs.length).any fun n =>
    let moment := String.ofList (cs.take n)
    isZone (Format.runs (cs.drop n)) && (parse? moment).isSome &&
      (Format.of? moment).any fun format => format.contains (.digits .hour)

/-- The words for a date that is not known. -/
def unknownWords : List String :=
  ["", "NaT", "nat", "NAT", "nan", "NaN", "NAN"]

end PlotGrammar.Timestamp

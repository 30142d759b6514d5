import PlotGrammar.Number.Numeral
import PlotGrammar.Problem

/-!
# What scalars say

What a scalar stands for when no quotes mark it as a text: nothing, a truth value, an integer, a
double, or else the text itself. Integers may be written in base two, eight, ten, sixteen or in
parts of sixty, doubles in parts of sixty, too, and digits may be grouped by underscores. Dates
stay texts.

* `Scalar.kind` tells by the spelling of a plain scalar what it stands for.
* `Scalar.integer`, `Scalar.double` and `Scalar.truth` read a scalar that is known to be one. Not
  every text is one, not even every spelling that `Scalar.kind` takes for one.
-/

namespace PlotGrammar.Yaml.Scalar

/-- What a plain scalar can stand for. -/
inductive Kind where
  | nothing
  | truth
  | integer
  | double
  | text
  /-- The mark under which a map takes over the entries of others. -/
  | merge
  /-- The mark for the value of a map as a whole. -/
  | whole
  deriving DecidableEq

/-- The words for nothing. -/
def nothingWords : List String :=
  ["", "~", "null", "Null", "NULL"]

/-- The words for truth values, in small letters. -/
def truthWords : List (String × Bool) :=
  [("yes", true), ("no", false), ("true", true), ("false", false), ("on", true), ("off", false)]

/-- A word in the three ways that its letters may be written. -/
def casesOf (word : String) : List String :=
  [word, word.capitalize, word.map Char.toUpper]

/-- The words for doubles that have no digits, without the point in front. -/
def infinityWords : List String :=
  casesOf "inf"

/-- The words for the double that is no number, with the point in front. -/
def nanWords : List String :=
  [".nan", ".NaN", ".NAN"]

/-! ### Spellings -/

/-- Whether a character is a digit or groups digits. -/
def isGrouped (c : Char) : Bool :=
  c.isDigit || c == '_'

/-- Whether characters are digits, perhaps in groups, the first one being a digit. -/
def areDigits (cs : List Char) : Bool :=
  cs.head?.any Char.isDigit && cs.all isGrouped

/-- Whether characters are digits of a base, perhaps in groups. -/
def areDigitsOf (base : Nat) (cs : List Char) : Bool :=
  !cs.isEmpty && cs.all fun c => c == '_' || (Numeral.digit? base c).isSome

/-- The parts between colons. -/
def colonParts : List Char → List (List Char)
  | [] => [[]]
  | c :: cs =>
    match colonParts cs with
    | [] => [[c]]
    | part :: parts => if c = ':' then [] :: part :: parts else (c :: part) :: parts

/-- Whether characters are a number below sixty. -/
def isSixtieth : List Char → Bool
  | [a] => a.isDigit
  | [a, b] => decide (a ≤ '5') && a.isDigit && b.isDigit
  | _ => false

/-- Whether characters are digits with parts of sixty behind them. -/
def areSixtieths (cs : List Char) : Bool :=
  match colonParts cs with
  | first :: parts => areDigits first && !parts.isEmpty && parts.all isSixtieth
  | [] => false

/-- Whether characters spell an integer without a sign. -/
def isNatural : List Char → Bool
  | ['0'] => true
  | '0' :: 'b' :: digits => areDigitsOf 2 digits
  | '0' :: 'x' :: digits => areDigitsOf 16 digits
  | '0' :: digits => areDigitsOf 8 digits
  | cs => areDigits cs || areSixtieths cs

/-- Whether characters spell an exponent. -/
def isExponent (needsSign : Bool) : List Char → Bool
  | e :: cs =>
    let digits := (Numeral.splitSign cs).2
    (e == 'e' || e == 'E') && !digits.isEmpty && digits.all Char.isDigit &&
      (!needsSign || digits.length < cs.length)
  | [] => false

/-- Whether characters spell a double with digits and without a sign. With digits in front it has a
point or an exponent, or a point behind parts of sixty. -/
def isPositiveDouble (cs : List Char) : Bool :=
  let rest := cs.dropWhile isGrouped
  let isWhole := areDigits (cs.takeWhile isGrouped)
  match rest with
  | '.' :: rest =>
    let tail := rest.dropWhile isGrouped
    isWhole && (tail.isEmpty || isExponent false tail)
  | ':' :: _ =>
    areSixtieths (cs.takeWhile (· != '.')) && cs.contains '.' &&
      ((cs.dropWhile (· != '.')).drop 1).all isGrouped
  | rest => isWhole && isExponent false rest

/-- Whether characters spell a double that starts with a point. It takes no sign, and its exponent
needs one. -/
def isFraction : List Char → Bool
  | '.' :: rest =>
    let tail := rest.dropWhile isGrouped
    rest.head?.any isGrouped && (tail.isEmpty || isExponent true tail)
  | _ => false

/-- Whether characters spell a double. -/
def isDouble (cs : List Char) : Bool :=
  let body := (Numeral.splitSign cs).2
  isPositiveDouble body || isFraction cs ||
    (body.head? == some '.' && infinityWords.contains (String.ofList (body.drop 1))) ||
    nanWords.contains (String.ofList cs)

/-- What a plain scalar stands for. -/
def kind (word : String) : Kind :=
  if nothingWords.contains word then .nothing
  else if (truthWords.flatMap fun w => casesOf w.1).contains word then .truth
  else if isDouble word.toList then .double
  else if isNatural (Numeral.splitSign word.toList).2 then .integer
  else if word == "<<" then .merge
  else if word == "=" then .whole
  else .text

/-! ### Values -/

/-- A sign and what follows it, without the marks of groups. -/
def signed (word : String) : Except Fault (Bool × List Char) :=
  match word.toList.filter (· != '_') with
  | [] => .error .noFirst
  | cs => .ok (Numeral.splitSign cs)

/-- The number that decimal digits stand for. More than 4300 of them are not read. -/
def decimal? (digits : List Char) : Option Nat :=
  if digits.length ≤ 4300 then Numeral.natural? 10 digits else none

/-- The integer without a sign that characters stand for. -/
def natural? : List Char → Option Nat
  | ['0'] => some 0
  | '0' :: 'b' :: digits => Numeral.natural? 2 digits
  | '0' :: 'x' :: digits => Numeral.natural? 16 digits
  | '0' :: 'o' :: digits | '0' :: 'O' :: digits => Numeral.natural? 8 digits
  | '0' :: digits => Numeral.natural? 8 digits
  | cs => (colonParts cs).foldlM (fun n part => do
      pure (n * 60 + (← decimal? part))) 0

/-- The integer a scalar stands for. -/
def integer (word : String) : Except Fault Int := do
  let (isNegative, cs) ← signed word
  if cs.isEmpty then throw .noFirst
  match natural? cs with
  | some n => pure (if isNegative then -(n : Int) else n)
  | none => throw .badValue

/-- The double that parts of sixty make, added up from the last one on. -/
def ofSixtieths (parts : List Float) : Float :=
  (parts.reverse.foldl (fun (sum, unit) x => (sum + x * unit, unit * 60)) (0, 1)).1

/-- The double without a sign that characters in small letters stand for. -/
def magnitude? (cs : List Char) : Option Float :=
  if cs == ".inf".toList then some Binary64.infinity
  else if cs == ".nan".toList then some Binary64.nan
  else ((colonParts cs).mapM Numeral.groupedDouble?).map ofSixtieths

/-- The double a scalar stands for. -/
def double (word : String) : Except Fault Float := do
  let (isNegative, cs) ← signed word
  match magnitude? (cs.map Char.toLower) with
  | some x => pure (if isNegative then -x else x)
  | none => throw .badValue

/-- The truth value a scalar stands for. -/
def truth (word : String) : Except Fault Bool :=
  match truthWords.lookup (word.map Char.toLower) with
  | some b => .ok b
  | none => .error .missingKey

end PlotGrammar.Yaml.Scalar

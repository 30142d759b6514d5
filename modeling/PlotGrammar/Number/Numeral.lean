import PlotGrammar.Number.Binary64

/-!
# Numerals

Numbers as people write them: an optional sign, digits with at most one point, perhaps an exponent.
`Numeral.natural?` reads digits of any base up to sixteen, `Numeral.integer?` and `Numeral.double?`
read whole numerals, and none of them accepts anything else around the digits.

Digits may be grouped by underscores where `Numeral.groupedInteger?` and `Numeral.groupedDouble?`
read; the second one knows the words for the infinities and for the non-number, too.
-/

namespace PlotGrammar.Numeral

/-- The value of a digit below a base. -/
def digit? (base : Nat) (c : Char) : Option Nat :=
  let n := c.toNat
  let value? :=
    if 48 ≤ n ∧ n ≤ 57 then some (n - 48)
    else if 97 ≤ n ∧ n ≤ 102 then some (n - 87)
    else if 65 ≤ n ∧ n ≤ 70 then some (n - 55)
    else none
  value?.filter fun v => decide (v < base)

/-- The number that digits of a base stand for; there must be at least one. -/
def natural? (base : Nat) (digits : List Char) : Option Nat :=
  if digits.isEmpty then none
  else digits.foldlM (fun n c => (digit? base c).map fun d => n * base + d) 0

/-- The sign in front of a numeral, negative or not, and what follows it. -/
def splitSign : List Char → Bool × List Char
  | '-' :: cs => (true, cs)
  | '+' :: cs => (false, cs)
  | cs => (false, cs)

/-- The integer that decimal digits with an optional sign stand for. -/
def integer? (cs : List Char) : Option Int :=
  let (negative, digits) := splitSign cs
  (natural? 10 digits).map fun n => if negative then -(n : Int) else n

/-- The double nearest to what a decimal numeral stands for. -/
def double? (cs : List Char) : Option Float :=
  let (negative, cs) := splitSign cs
  let whole := cs.takeWhile Char.isDigit
  let rest := cs.dropWhile Char.isDigit
  let (fraction, rest) := match rest with
    | '.' :: rest => (rest.takeWhile Char.isDigit, rest.dropWhile Char.isDigit)
    | rest => ([], rest)
  let exponent? : Option Int := match rest with
    | [] => some 0
    | e :: ds => if e = 'e' ∨ e = 'E' then integer? ds else none
  match exponent?, natural? 10 (whole ++ fraction) with
  | some e, some digits =>
    let scale := e - fraction.length
    -- Beyond these exponents every numeral of this length is infinite or zero.
    let bounded := max (-400 - (whole.length + fraction.length : Int)) (min scale 400)
    let x := Float.ofScientific digits (bounded < 0) bounded.natAbs
    some (if negative then -x else x)
  | _, _ => none

/-- The characters of a numeral without the underscores that group its digits; an underscore stands
between two digits. -/
def ungroup? (afterDigit : Bool) : List Char → Option (List Char)
  | [] => some []
  | '_' :: cs => if afterDigit && cs.head?.any Char.isDigit then ungroup? false cs else none
  | c :: cs => (ungroup? c.isDigit cs).map (c :: ·)

/-- The integer that a numeral with grouped digits stands for. -/
def groupedInteger? (cs : List Char) : Option Int :=
  (ungroup? false cs).bind integer?

/-- The doubles that have a word, which may carry a sign and be written in any case. -/
def spoken? (cs : List Char) : Option Float :=
  let (negative, word) := splitSign cs
  let lower := String.ofList (word.map Char.toLower)
  let x? :=
    if lower == "inf" || lower == "infinity" then some Binary64.infinity
    else if lower == "nan" then some Binary64.nan
    else none
  x?.map fun x => if negative then -x else x

/-- The double that a numeral with grouped digits, or a word, stands for. -/
def groupedDouble? (cs : List Char) : Option Float :=
  (spoken? cs).or ((ungroup? false cs).bind double?)

end PlotGrammar.Numeral

/-!
# Words of 64 bits

A column of integers holds them in words: all of them signed, or all of them unsigned. `Word.fit`
says whether integers fit together, `Word.wrap` what is left of a result that runs over.
-/

namespace PlotGrammar.Word

/-- The number of words. -/
def span : Int :=
  18446744073709551616

/-- The number of signed words that are not negative. -/
def half : Int :=
  9223372036854775808

/-- Whether an integer is a signed word. -/
def isSigned (i : Int) : Bool :=
  -half ≤ i && i < half

/-- Whether an integer is an unsigned word. -/
def isUnsigned (i : Int) : Bool :=
  0 ≤ i && i < span

/-- Whether integers fit together, all of them as signed or all of them as unsigned words. -/
def fit (is : List Int) : Bool :=
  is.all isSigned || is.all isUnsigned

/-- What is left of an integer that runs over, among unsigned words or among signed ones. -/
def wrap (unsigned : Bool) (i : Int) : Int :=
  if unsigned then i % span else Int.bmod i span.toNat

end PlotGrammar.Word

import PlotGrammar.Geometry
import PlotGrammar.Number
import PlotGrammar.Timestamp
import PlotGrammar.Text.Quoted

/-!
# Values

Descriptions of plots are made of plain values: constants bound to channels, styles, parameters of
statistics, sections of a configuration. `Value` is their common type. A value may also be a member
of one of the closed vocabularies, which reads as its name, or a function the caller has supplied.

* `Value.plain` is the text of a value inside a sentence, `Value.quoted` its text where quotes keep
  it apart from the sentence; they differ on texts, timestamps and members only.
* `Value.isWritable` says which values have such a text: integers of more than 4300 digits are never
  written out.
* `Value.same` is equality: numbers and truth values by amount, members and texts by characters,
  lists place by place, dictionaries by key.
* `Value.isTruthy` says which values count as given.
-/

namespace PlotGrammar

/-- A member of a closed vocabulary. -/
inductive Member where
  | channel (value : Channel)
  | geometry (value : Geometry)
  | stat (value : StatKind)
  deriving DecidableEq, Repr

namespace Member

/-- The name of the member. -/
def name : Member → String
  | channel c => c.name
  | geometry g => g.name
  | stat k => k.name

/-- The name of the vocabulary, as messages give it. -/
def vocabulary : Member → String
  | channel _ => "Channel"
  | geometry _ => "GeometryKind"
  | stat _ => "StatKind"

/-- The member with its vocabulary, between angle brackets. -/
def quoted (m : Member) : String :=
  "<" ++ m.vocabulary ++ "." ++ m.name.toUpper ++ ": " ++ Text.quoted m.name ++ ">"

end Member

/-- A plain value, a member of a vocabulary, or a function the caller has supplied. -/
inductive Value where
  | null
  | bool (value : Bool)
  | int (value : Int)
  | float (value : Float)
  | text (value : String)
  | time (value : Timestamp)
  | member (value : Member)
  | function (name : String)
  | list (items : List Value)
  | dict (entries : List (Value × Value))

instance : Inhabited Value :=
  ⟨.null⟩

namespace Value

/-- A truth value in words. -/
def boolText (b : Bool) : String :=
  if b then "True" else "False"

mutual

/-- The text of a value where quotes keep it apart from the sentence around it. -/
def quoted : Value → String
  | null => "None"
  | bool b => boolText b
  | int i => toString i
  | float x => Decimal.text x
  | text s => Text.quoted s
  | time t => "Timestamp(" ++ Text.quoted t.text ++ ")"
  | member m => m.quoted
  | function name => "<function " ++ name ++ ">"
  | list items => "[" ++ ", ".intercalate (quotedItems items) ++ "]"
  | dict entries => "\x7b" ++ ", ".intercalate (quotedEntries entries) ++ "\x7d"

/-- The texts of the items of a list. -/
def quotedItems : List Value → List String
  | [] => []
  | v :: vs => quoted v :: quotedItems vs

/-- The texts of the entries of a dictionary. -/
def quotedEntries : List (Value × Value) → List String
  | [] => []
  | (k, v) :: es => (quoted k ++ ": " ++ quoted v) :: quotedEntries es

end

/-- The text of a value inside a sentence. -/
def plain : Value → String
  | text s => s
  | time t => t.text
  | member m => m.name
  | v => v.quoted

/-- Whether a number has at most so many digits. -/
def hasDigits : Nat → Nat → Bool
  | 0, n => n == 0
  | most + 1, n => decide (n < 10) || hasDigits most (n / 10)

theorem hasDigits_iff {most n : Nat} : hasDigits most n = true ↔ n < Nat.pow 10 most := by
  induction most generalizing n with
  | zero =>
    rw [hasDigits, beq_iff_eq]
    exact Nat.lt_one_iff.symm
  | succ most ih =>
    have hpos : 0 < Nat.pow 10 most := Nat.pow_pos (by decide)
    have hstep : Nat.pow 10 (most + 1) = Nat.pow 10 most * 10 := rfl
    rw [hasDigits, Bool.or_eq_true, decide_eq_true_iff, ih, hstep]
    omega

/-- The digits of the longest integers that are written out. -/
def mostDigits : Nat :=
  4300

mutual

/-- Whether a value can be written out: it is and holds no integer that is too long. -/
def isWritable : Value → Bool
  | int i => hasDigits mostDigits i.natAbs
  | list items => areWritable items
  | dict entries => areEntriesWritable entries
  | _ => true

/-- Whether the items of a list can all be written out. -/
def areWritable : List Value → Bool
  | [] => true
  | v :: vs => isWritable v && areWritable vs

/-- Whether the entries of a dictionary can all be written out. -/
def areEntriesWritable : List (Value × Value) → Bool
  | [] => true
  | (k, v) :: es => isWritable k && isWritable v && areEntriesWritable es

end

theorem isWritable_int {i : Int} :
    (int i).isWritable = true ↔ i.natAbs < Nat.pow 10 mostDigits :=
  hasDigits_iff

/-- The characters of a text or of a member. -/
def characters? : Value → Option String
  | text s => some s
  | member m => some m.name
  | _ => none

/-- Texts and members can always be written out. -/
theorem isWritable_of_characters {v : Value} (h : v.characters?.isSome = true) :
    v.isWritable = true := by
  cases v with
  | text | member => rfl
  | _ => exact nomatch h

/-- The number a value stands for; truth values count as zero and one. -/
def number? : Value → Option Number
  | bool b => some (.int (if b then 1 else 0))
  | int i => some (.int i)
  | float x => some (.float x)
  | _ => none

mutual

/-- Whether two values are equal. -/
def same : Value → Value → Bool
  | null, null => true
  | time s, time t => s == t
  | function f, function g => f == g
  | list xs, list ys => sameItems xs ys
  | dict xs, dict ys => xs.length == ys.length && sameEntries xs ys
  | x, y =>
    match x.characters?, y.characters?, x.number?, y.number? with
    | some s, some t, _, _ => s == t
    | _, _, some m, some n => m.same n
    | _, _, _, _ => false

/-- Whether two lists are equal place by place. -/
def sameItems : List Value → List Value → Bool
  | [], [] => true
  | x :: xs, y :: ys => same x y && sameItems xs ys
  | _, _ => false

/-- Whether every entry of the first dictionary has its equal in the second. -/
def sameEntries : List (Value × Value) → List (Value × Value) → Bool
  | [], _ => true
  | (k, v) :: xs, ys => ys.any (fun e => same k e.1 && same v e.2) && sameEntries xs ys

end

/-- A value is equal to one with characters if it has the same ones. -/
theorem same_of_characters {v w : Value} {s : String} (hw : w.characters? = some s) :
    v.same w = (v.characters? == some s) := by
  cases w with
  | text t =>
    cases hw
    cases v <;> simp [same, characters?, number?]
  | member m =>
    cases hw
    cases v <;> simp [same, characters?, number?]
  | _ => cases hw

theorem same_of_characters_left {v w : Value} {s : String} (hv : v.characters? = some s) :
    v.same w = (w.characters? == some s) := by
  have hsame : v.same w = (some s == w.characters?) := by
    cases v with
    | text t =>
      cases hv
      cases w <;> simp [same, characters?, number?]
    | member m =>
      cases hv
      cases w <;> simp [same, characters?, number?]
    | _ => cases hv
  rw [hsame]
  exact BEq.comm

/-- Whether a value counts as given: not null, false, zero or empty. -/
def isTruthy : Value → Bool
  | null => false
  | bool b => b
  | int i => i != 0
  | float x => Number.isNonzero (.float x)
  | text s => s != ""
  | list items => !items.isEmpty
  | dict entries => !entries.isEmpty
  | time _ | member _ | function _ => true

/-- The value, or nothing for null. -/
def given? : Value → Option Value
  | null => none
  | v => some v

/-- Whether the value can stand as a key: lists and dictionaries cannot. -/
def isKey : Value → Bool
  | list _ | dict _ => false
  | _ => true

/-- The entry of a list of entries under a key. -/
def entry? {α : Type} (entries : List (Value × α)) (key : Value) : Option α :=
  (entries.find? fun e => same e.1 key).map (·.2)

/-- The entry of a list of entries under a text key. -/
def lookupIn {α : Type} (entries : List (Value × α)) (key : String) : Option α :=
  entry? entries (.text key)

/-- The value under a text key; null when there is none. -/
def get (entries : List (Value × Value)) (key : String) : Value :=
  (lookupIn entries key).getD .null

/-- Puts an entry under a key: in place if the key is there, else at the end. -/
def insert {α : Type} (entries : List (Value × α)) (key : Value) (entry : α) :
    List (Value × α) :=
  if entries.any fun e => same e.1 key then
    entries.map fun e => if same e.1 key then (e.1, entry) else e
  else entries ++ [(key, entry)]

/-- Puts the entries of the second dictionary into the first. -/
def overlay (base top : List (Value × Value)) : List (Value × Value) :=
  top.foldl (fun entries e => insert entries e.1 e.2) base

/-- The sort of a value, as messages name it: a closed vocabulary, or a class of values. -/
def sort : Value → String
  | null => "<class 'NoneType'>"
  | bool _ => "<class 'bool'>"
  | int _ => "<class 'int'>"
  | float _ => "<class 'float'>"
  | text _ => "<class 'str'>"
  | time _ => "<class 'pandas.Timestamp'>"
  | member m => "<enum '" ++ m.vocabulary ++ "'>"
  | function _ => "<class 'function'>"
  | list _ => "<class 'list'>"
  | dict _ => "<class 'dict'>"

end Value

end PlotGrammar

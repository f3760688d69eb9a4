import Formula.Registry

/-!
# Settings

A configuration has the precedences of the standard operators, the capacity of the cache of a session and the policy on
zero divisors. Its precedences may be any values. They must ascend from sums over products and powers to signs
(`Configuration.check`), and are compared as they stand; the standard operators take them in as whole numbers, like any
operator that is defined (`standardOperators`). Settings are a configuration whose standard operators have passed that
check. From them comes the standard registry (`Registry.standard`).
-/

namespace Formula

/-! ## Configurations -/

/-- One precedence for each group of standard operators. -/
structure Precedences (α : Type) where
  additive : α
  multiplicative : α
  power : α
  unary : α

def Precedences.map {α β : Type} (f : α → β) (precedences : Precedences α) : Precedences β :=
  ⟨f precedences.additive, f precedences.multiplicative, f precedences.power, f precedences.unary⟩

/-- What sessions are set up from. -/
structure Configuration where
  precedences : Precedences Value
  /-- The number of texts that a session keeps; without one, or with zero, it keeps all. -/
  cacheCapacity : Option Int
  divisionRaises : Bool

/-- What is wrong with a configuration. -/
inductive ConfigurationFault where
  | productsNotTighterThanSums
  | powersNotTighterThanProducts
  | signsNotTightest
  | negativeCapacity
  /-- Values of these types are not compared. -/
  | incomparable (left right : String)
deriving DecidableEq, Repr

namespace ConfigurationFault

def message : ConfigurationFault → String
  | .productsNotTighterThanSums => "乘除必须比加减结合更紧"
  | .powersNotTighterThanProducts => "乘方必须比乘除结合更紧"
  | .signsNotTightest => "一元运算符优先级必须最高"
  | .negativeCapacity => "cache_size不能为负数"
  | .incomparable left right => s!"'<' not supported between instances of '{left}' and '{right}'"

/-- The label under which the fault is reported. -/
def label : ConfigurationFault → String
  | .incomparable _ _ => "TypeError"
  | _ => "AssertionError"

end ConfigurationFault

/-- The first value must be less than the second. -/
def mustAscend (value next : Value) (fault : ConfigurationFault) : Except ConfigurationFault Unit :=
  match value.isLess? next with
  | none => .error (.incomparable value.typeWord next.typeWord)
  | some false => .error fault
  | some true => .ok ()

/-- The precedences must ascend strictly, as they stand. The first fault is reported. -/
def Precedences.check (precedences : Precedences Value) : Except ConfigurationFault Unit := do
  mustAscend precedences.additive precedences.multiplicative .productsNotTighterThanSums
  mustAscend precedences.multiplicative precedences.power .powersNotTighterThanProducts
  mustAscend precedences.power precedences.unary .signsNotTightest

/-- Checks the precedences, then the capacity, which must not be negative. -/
def Configuration.check (configuration : Configuration) : Except ConfigurationFault Unit := do
  configuration.precedences.check
  if configuration.cacheCapacity.any (· < 0) then .error .negativeCapacity

/-! ## Standard operators and functions -/

/-- The operators that every standard registry has, before they are checked. -/
def standardDrafts (precedences : Precedences Value) : List OperatorDraft :=
  [⟨"+", precedences.additive, .left, .add, 2⟩,
   ⟨"-", precedences.additive, .left, .sub, 2⟩,
   ⟨"*", precedences.multiplicative, .left, .mul, 2⟩,
   ⟨"/", precedences.multiplicative, .left, .division, 2⟩,
   ⟨"^", precedences.power, .right, .power, 2⟩,
   ⟨"+", precedences.unary, .right, .pos, 1⟩,
   ⟨"-", precedences.unary, .right, .neg, 1⟩]

/-- The operators that every standard registry has. -/
def standardOperators (precedences : Precedences Value) : Except Fault (List Operator) :=
  (standardDrafts precedences).mapM OperatorDraft.check

/-- The functions that every standard registry has. The tangent and its inverse have an old name besides. -/
def standardFunctions : List Function :=
  [⟨"sin", 1, .elementary Elementary.sin, by decide⟩,
   ⟨"cos", 1, .elementary Elementary.cos, by decide⟩,
   ⟨"tan", 1, .elementary Elementary.tan, by decide⟩,
   ⟨"asin", 1, .elementary Elementary.asin, by decide⟩,
   ⟨"acos", 1, .elementary Elementary.acos, by decide⟩,
   ⟨"atan", 1, .elementary Elementary.atan, by decide⟩,
   ⟨"tn", 1, .elementary Elementary.tan, by decide⟩,
   ⟨"atn", 1, .elementary Elementary.atan, by decide⟩,
   ⟨"min", 2, .min, by decide⟩,
   ⟨"max", 2, .max, by decide⟩,
   ⟨"avg", 2, .average, by decide⟩]

/-! ## Settings -/

/-- A configuration and its standard operators, which have passed their check. -/
structure Settings extends Configuration where
  operators : List Operator
  checked : standardOperators precedences = .ok operators

/-- The settings of a configuration, unless an operator is refused. -/
def Configuration.settings (configuration : Configuration) : Except Fault Settings :=
  match h : standardOperators configuration.precedences with
  | .ok operators => .ok { configuration with operators := operators, checked := h }
  | .error fault => .error fault

/-- The standard operators with precedences that are whole numbers. -/
def Precedences.operators (levels : Precedences Int) : List Operator :=
  [⟨"+", .binary, levels.additive, .left, .add, by decide⟩,
   ⟨"-", .binary, levels.additive, .left, .sub, by decide⟩,
   ⟨"*", .binary, levels.multiplicative, .left, .mul, by decide⟩,
   ⟨"/", .binary, levels.multiplicative, .left, .division, by decide⟩,
   ⟨"^", .binary, levels.power, .right, .power, by decide⟩,
   ⟨"+", .unary, levels.unary, .right, .pos, by decide⟩,
   ⟨"-", .unary, levels.unary, .right, .neg, by decide⟩]

/-- The values become these whole numbers when operators are made of them. -/
structure Precedences.HaveLevels (values : Precedences Value) (levels : Precedences Int) : Prop where
  additive : values.additive.toInt = .ok levels.additive
  multiplicative : values.multiplicative.toInt = .ok levels.multiplicative
  power : values.power.toInt = .ok levels.power
  unary : values.unary.toInt = .ok levels.unary

theorem OperatorDraft.check_of_level (fixity : Fixity) {symbol : String} {value : Value} {level : Int}
    {associativity : Associativity} {callable : Callable} (hs : isSymbol symbol = true) (h : value.toInt = .ok level) :
    check ⟨symbol, value, associativity, callable, fixity.arity⟩ =
      .ok ⟨symbol, fixity, level, associativity, callable, hs⟩ := by
  cases fixity <;> simp [check, hs, h, Fixity.arity]

theorem mapM_cons_of_ok {ε α β : Type} {f : α → Except ε β} {x : α} {y : β} {xs : List α} {ys : List β}
    (h : f x = .ok y) (hs : xs.mapM f = .ok ys) : (x :: xs).mapM f = .ok (y :: ys) := by
  rw [List.mapM_cons, h, hs]
  rfl

theorem standardOperators_of_haveLevels {values : Precedences Value} {levels : Precedences Int}
    (h : values.HaveLevels levels) : standardOperators values = .ok levels.operators := by
  obtain ⟨ha, hm, hp, hu⟩ := h
  open OperatorDraft in
  exact mapM_cons_of_ok (check_of_level .binary rfl ha) <| mapM_cons_of_ok (check_of_level .binary rfl ha) <|
    mapM_cons_of_ok (check_of_level .binary rfl hm) <| mapM_cons_of_ok (check_of_level .binary rfl hm) <|
    mapM_cons_of_ok (check_of_level .binary rfl hp) <| mapM_cons_of_ok (check_of_level .unary rfl hu) <|
    mapM_cons_of_ok (check_of_level .unary rfl hu) rfl

/-- The settings that hold unless others are given. -/
def Settings.shipped : Settings where
  precedences := ⟨.int 1, .int 2, .int 3, .int 4⟩
  cacheCapacity := some 1000
  divisionRaises := true
  operators := Precedences.operators ⟨1, 2, 3, 4⟩
  checked := standardOperators_of_haveLevels ⟨rfl, rfl, rfl, rfl⟩

/-- The registry of the standard operators and functions. -/
def Registry.standard (settings : Settings) (divisionRaises : Bool) : Registry :=
  standardFunctions.foldl addFunction (settings.operators.foldl addOperator (.empty divisionRaises))

/-- The variables of a new session. -/
def standardVariables : List (String × Value) :=
  [("pi", .float 3.14159265359), ("e", .float 2.71828182846)]

end Formula

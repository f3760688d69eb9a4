import Formula.Cache
import Formula.Evaluation
import Formula.Settings

/-!
# Sessions

A session has a registry, variables and a cache of the texts that it has compiled. Commands change it one after another
(`Session.perform`); a command that fails gives a fault, and the session goes on from the state that the failure left.
The cache is keyed by the text as it stands. Adding an operator or a function empties it, because the texts in it may
now mean something else; the variables and the policy on zero divisors are only looked at in evaluation.
-/

namespace Formula

/-- A registry, variables and a cache of compiled texts. -/
structure Session where
  registry : Registry
  bindings : Table (String × Value) Prod.fst
  cache : Cache (List Token)

/-- A text with the last value that a list of pairs gives it, in the place of its first one. -/
def mergePairs (pairs : List (String × Value)) : List (String × Value) :=
  pairs.foldl
    (fun merged pair =>
      if merged.any (·.1 == pair.1) then merged.map fun old => if old.1 == pair.1 then pair else old
      else merged ++ [pair])
    []

namespace Session

/-! ## Variables -/

/-- The value of a variable. -/
def getVariable (session : Session) (name : String) : Except Fault Value :=
  match session.bindings.find? name with
  | some pair => .ok pair.2
  | none => .error (.unboundVariable name)

/-- What the names in a text stand for. -/
def environment (session : Session) : Evaluation.Environment := fun name =>
  (session.bindings.find? name).map Prod.snd

/-- Gives a variable a value, which must be a number. -/
def setVariable (session : Session) (name : String) (value : Value) : Except Fault Unit × Session :=
  if value.isNumeric then (.ok (), { session with bindings := session.bindings.insert (name, value) })
  else (.error (.variableType name value), session)

/-- Gives variables values one after another, up to the first that is no number. -/
def setEach (session : Session) : List (String × Value) → Except Fault Unit × Session
  | [] => (.ok (), session)
  | (name, value) :: pairs =>
    match session.setVariable name value with
    | (.ok (), next) => next.setEach pairs
    | (.error fault, next) => (.error fault, next)

/-- Removes a variable, if there is one of the name. -/
def removeVariable (session : Session) (name : String) : Session :=
  { session with bindings := session.bindings.erase name }

/-- Removes all variables. -/
def removeVariables (session : Session) : Session := { session with bindings := .empty }

/-- Gives variables values; before that it may remove those that there are. -/
def setVariables (session : Session) (pairs : List (String × Value)) (clear : Bool) : Except Fault Unit × Session :=
  (if clear then session.removeVariables else session).setEach (mergePairs pairs)

/-! ## Definitions -/

/-- Adds an operator and empties the cache. -/
def addOperator (session : Session) (draft : OperatorDraft) : Except Fault Unit × Session :=
  match draft.check with
  | .error fault => (.error fault, session)
  | .ok op => (.ok (), { session with registry := session.registry.addOperator op, cache := session.cache.clear })

/-- Adds a function, which needs a callable, and empties the cache. -/
def addFunction (session : Session) (name : String) (callable : Option Callable) (arity : Int) :
    Except Fault Unit × Session :=
  match callable with
  | none => (.error (.definition (.noCallable name)), session)
  | some callable =>
    match (FunctionDraft.mk name callable arity).check with
    | .error fault => (.error fault, session)
    | .ok function =>
      (.ok (), { session with registry := session.registry.addFunction function, cache := session.cache.clear })

/-- Changes the policy on zero divisors. -/
def setDivision (session : Session) (raises : Bool) : Session :=
  { session with registry := session.registry.setDivision raises }

/-! ## Texts -/

/-- The tokens of a text in postfix order, from the cache if it has them. -/
def compile (session : Session) (text : String) : Except Fault (List Token) × Session :=
  match session.cache.find? text with
  | some tokens => (.ok tokens, { session with cache := session.cache.touch text tokens })
  | none =>
    let cache := session.cache.countMiss
    match Postfix.compile session.registry text with
    | .error fault => (.error fault, { session with cache := cache })
    | .ok tokens =>
      let (stored, cache) := cache.store text tokens
      (stored.map fun _ => tokens, { session with cache := cache })

/-- The value of a text. -/
def execute (session : Session) (text : String) : Except Fault Float × Session :=
  match session.compile text with
  | (.error fault, next) => (.error fault, next)
  | (.ok tokens, next) => (Evaluation.evaluate next.registry next.environment tokens, next)

/-- Empties the cache and forgets its counts. -/
def clearCache (session : Session) : Session := { session with cache := session.cache.clear }

/-! ## Commands -/

/-- What changes a session. -/
inductive Command where
  | execute (text : String)
  | compile (text : String)
  | setVariable (name : String) (value : Value)
  | setVariables (pairs : List (String × Value)) (clear : Bool)
  | removeVariable (name : String)
  | removeVariables
  | addOperator (draft : OperatorDraft)
  | addFunction (name : String) (callable : Option Callable) (arity : Int)
  | setDivision (raises : Bool)
  | clearCache

/-- What a command gives when it succeeds. -/
inductive Answer where
  | number (x : Float)
  | tokens (tokens : List Token)
  | done

/-- Carries a command out. -/
def perform (session : Session) : Command → Except Fault Answer × Session
  | .execute text => (session.execute text).map (·.map .number) id
  | .compile text => (session.compile text).map (·.map .tokens) id
  | .setVariable name value => (session.setVariable name value).map (·.map fun _ => .done) id
  | .setVariables pairs clear => (session.setVariables pairs clear).map (·.map fun _ => .done) id
  | .removeVariable name => (.ok .done, session.removeVariable name)
  | .removeVariables => (.ok .done, session.removeVariables)
  | .addOperator draft => (session.addOperator draft).map (·.map fun _ => .done) id
  | .addFunction name callable arity => (session.addFunction name callable arity).map (·.map fun _ => .done) id
  | .setDivision raises => (.ok .done, session.setDivision raises)
  | .clearCache => (.ok .done, session.clearCache)

/-- A new session. A capacity or a policy that is not given is that of the settings. -/
def start (settings : Settings) (capacity : Option Int) (divisionRaises : Option Bool) : Session :=
  let session : Session := {
    registry := .standard settings (divisionRaises.getD settings.divisionRaises)
    bindings := .empty
    cache := .empty (capacity.or settings.cacheCapacity) }
  (session.setVariables standardVariables false).2

/-- A new session under a configuration, unless one of its standard operators is refused. -/
def ofConfiguration (configuration : Configuration) (capacity : Option Int) (divisionRaises : Option Bool) :
    Except Fault Session :=
  configuration.settings.map fun settings => start settings capacity divisionRaises

end Session

end Formula

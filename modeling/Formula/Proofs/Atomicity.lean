import Formula.Proofs.CacheCoherence
import Formula.Proofs.Outcome

/-!
# Failed attempts

An attempt on a session carries a command out or asks for the value of a variable (`Session.Attempt`). One that fails
has no effect beyond what it says of itself (`Session.failed_attempt`): a text that cannot be read is counted as not
found, a text that has no value leaves what reading it leaves, and a definition or a value that is refused leaves
nothing at all. So all later commands are answered as if the attempt had not been made. Giving several variables values
is no single attempt: it goes on up to the first value that is refused.
-/

namespace Formula.Session

/-! ## Attempts -/

/-- What is asked of a session: to carry a command out, or for the value of a variable. -/
inductive Attempt where
  | command (command : Command)
  | value (name : String)

namespace Attempt

/-- Giving several variables values is one attempt for each of them. -/
def isSingle : Attempt → Bool
  | .command (.setVariables _ _) => false
  | _ => true

end Attempt

/-- Makes an attempt. To ask for a value changes nothing. -/
def attempt (session : Session) : Attempt → Except Fault Unit × Session
  | .command command => (session.perform command).map (·.map fun _ => ()) id
  | .value name => ((session.getVariable name).map fun _ => (), session)

/-- What a failed attempt leaves. A text that could not be read was not found in the cache; a text that has no value was
read all the same. -/
def afterFailure (session : Session) : Attempt → Session
  | .command (.compile _) => { session with cache := session.cache.countMiss }
  | .command (.execute text) => (session.compile text).2
  | _ => session

variable {session : Session}

/-! ## What is left -/

/-- In a session whose cache takes entries, a text fails only while it is read, and it is counted as not found. -/
theorem compile_snd_of_error {text : String} {fault : Fault} (ht : session.cache.TakesEntries)
    (h : (session.compile text).1 = .error fault) :
    (session.compile text).2 = { session with cache := session.cache.countMiss } := by
  revert h
  unfold compile
  split
  · exact fun h => nomatch h
  · split
    · exact fun _ => rfl
    · rename_i tokens _
      have hstore : (session.cache.countMiss.store text tokens).1 = .ok () :=
        Cache.store_fst (show session.cache.countMiss.TakesEntries from ht)
      intro h
      have hstored : (session.cache.countMiss.store text tokens).1.map (fun _ => tokens) = .error fault := h
      rw [hstore] at hstored
      cases hstored

theorem setVariable_snd_of_error {name : String} {value : Value} {fault : Fault} :
    (session.setVariable name value).1 = .error fault → (session.setVariable name value).2 = session := by
  unfold setVariable
  split
  · exact fun h => nomatch h
  · exact fun _ => rfl

theorem addOperator_snd_of_error {draft : OperatorDraft} {fault : Fault} :
    (session.addOperator draft).1 = .error fault → (session.addOperator draft).2 = session := by
  unfold addOperator
  split
  · exact fun _ => rfl
  · exact fun h => nomatch h

theorem addFunction_snd_of_error {name : String} {callable : Option Callable} {arity : Int} {fault : Fault} :
    (session.addFunction name callable arity).1 = .error fault →
      (session.addFunction name callable arity).2 = session := by
  unfold addFunction
  split
  · exact fun _ => rfl
  · split
    · exact fun _ => rfl
    · exact fun h => nomatch h

/-- Only an outcome that is a fault becomes one. -/
theorem fst_eq_error {α β : Type} {f : α → β} {result : Except Fault α × Session} {fault : Fault}
    (h : (Prod.map (Except.map f) id result).1 = .error fault) : result.1 = .error fault := by
  obtain ⟨outcome, next⟩ := result
  cases outcome with
  | error other => exact congrArg _ (Except.error.inj h)
  | ok a => cases h

theorem attempt_snd_of_error {attempt : Attempt} {fault : Fault} (ht : session.cache.TakesEntries)
    (hs : attempt.isSingle = true) (h : (session.attempt attempt).1 = .error fault) :
    (session.attempt attempt).2 = session.afterFailure attempt := by
  cases attempt with
  | value name => rfl
  | command command =>
    have hp : (session.perform command).1 = .error fault := fst_eq_error h
    cases command with
    | compile text => exact compile_snd_of_error ht (fst_eq_error hp)
    | execute text => exact execute_snd session text
    | setVariable name value => exact setVariable_snd_of_error (fst_eq_error hp)
    | addOperator draft => exact addOperator_snd_of_error (fst_eq_error hp)
    | addFunction name callable arity => exact addFunction_snd_of_error (fst_eq_error hp)
    | setVariables pairs clear => cases hs
    | removeVariable name | removeVariables | setDivision raises | clearCache => cases hp

/-- What a failed attempt leaves differs in nothing but the cache. -/
theorem agrees_afterFailure (session : Session) (attempt : Attempt) :
    (session.afterFailure attempt).Agrees session := by
  cases attempt with
  | value name => exact ⟨rfl, rfl⟩
  | command command =>
    cases command with
    | execute text => exact ⟨compile_registry session text, compile_bindings session text⟩
    | _ => exact ⟨rfl, rfl⟩

/-- **A failed attempt leaves the session as it was.** Behind any commands, a text that cannot be read is counted as not
found; a text without a value leaves what reading it leaves; a look at a variable, a value, an operator or a function
that is refused leaves the very same session. Later commands are answered as if the attempt had not been made. -/
theorem failed_attempt (settings : Settings) (capacity : Option Int) (raises : Option Bool)
    (h : ∀ n ∈ capacity.or settings.cacheCapacity, 0 ≤ n) (commands : List Command) (attempt : Attempt)
    (hs : attempt.isSingle = true) (fault : Fault) :
    let session := ((start settings capacity raises).run commands).2
    (session.attempt attempt).1 = .error fault →
      (session.attempt attempt).2 = session.afterFailure attempt ∧
      ∀ later : List Command, ((session.attempt attempt).2.run later).1 = (session.run later).1 := by
  intro session hf
  obtain ⟨hc, ht⟩ := coherent_run_start settings capacity raises h commands
  have hleft := attempt_snd_of_error ht hs hf
  refine ⟨hleft, fun later => ?_⟩
  obtain ⟨hc', ht'⟩ : (session.attempt attempt).2.Coherent ∧ (session.attempt attempt).2.cache.TakesEntries := by
    cases attempt with
    | value name => exact ⟨hc, ht⟩
    | command command => exact ⟨coherent_perform hc command, takesEntries_perform ht command⟩
  have hagrees : (session.attempt attempt).2.Agrees session := hleft ▸ agrees_afterFailure session attempt
  exact run_agrees hagrees hc' hc ht' ht later

/-- The text has no value, yet it takes the place of the other one in the cache. -/
theorem failed_attempt_zeroDivisor :
    (∀ n ∈ (some 1).or Settings.shipped.cacheCapacity, 0 ≤ n) ∧
    let session := ((start .shipped (some 1) none).run [.setVariable "x" (.int 4), .execute "x+1"]).2
    (session.execute "x/0").1 = .error (.refused .divisionByZero) ∧
      (session.execute "x/0").2 = (session.compile "x/0").2 ∧
      ((session.execute "x/0").2.run [.execute "x+1"]).1 = (session.run [.execute "x+1"]).1 := by
  have one : ∀ n ∈ (some 1).or Settings.shipped.cacheCapacity, 0 ≤ n := by simp
  refine ⟨one, ?_⟩
  intro session
  have hfault : (session.execute "x/0").1 = .error (.refused .divisionByZero) := by decide +kernel
  have hattempt : (session.attempt (.command (.execute "x/0"))).1 = .error (.refused .divisionByZero) := by
    show ((session.execute "x/0").1.map _).map _ = _
    rw [hfault]
    rfl
  obtain ⟨hleft, hlater⟩ := failed_attempt .shipped (some 1) none one [.setVariable "x" (.int 4), .execute "x+1"]
    (.command (.execute "x/0")) rfl _ hattempt
  exact ⟨hfault, hleft, hlater [.execute "x+1"]⟩

end Formula.Session

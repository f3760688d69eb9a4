import Formula.Session

/-!
# Runs of sessions

A run carries commands out one after another (`Session.run`), whether they succeed or fail. Whatever a command does, the
cache is used by a text, or emptied, or left as it is, and in the last case the operators and functions stay
(`Session.perform_cases`). The capacity never changes (`Session.perform_capacity`).
-/

namespace Formula.Session

/-- The answers to commands that are carried out one after another, and the session that they leave. -/
def run (session : Session) : List Command → List (Except Fault Answer) × Session
  | [] => ([], session)
  | command :: commands =>
    let (answer, next) := session.perform command
    let (answers, last) := next.run commands
    (answer :: answers, last)

@[simp]
theorem run_nil (session : Session) : session.run [] = ([], session) := rfl

@[simp]
theorem run_cons (session : Session) (command : Command) (commands : List Command) :
    session.run (command :: commands) =
      ((session.perform command).1 :: ((session.perform command).2.run commands).1,
        ((session.perform command).2.run commands).2) := rfl

/-- What every command keeps, every run keeps. -/
theorem run_induct {P : Session → Prop}
    (step : ∀ session command, P session → P (session.perform command).2) {session : Session}
    (h : P session) (commands : List Command) : P (session.run commands).2 := by
  induction commands generalizing session with
  | nil => exact h
  | cons command commands ih => exact ih (step session command h)

/-- The command adds an operator or a function. -/
def Command.defines : Command → Bool
  | .addOperator _ | .addFunction _ _ _ => true
  | _ => false

/-! ## What a command changes -/

/-- Giving variables values changes nothing but the variables, and its answer depends on nothing else. -/
theorem setEach_eq (bindings : Table (String × Value) Prod.fst) (pairs : List (String × Value)) :
    ∃ answer last, ∀ registry cache, setEach ⟨registry, bindings, cache⟩ pairs = (answer, ⟨registry, last, cache⟩) := by
  induction pairs generalizing bindings with
  | nil => exact ⟨.ok (), bindings, fun _ _ => rfl⟩
  | cons pair pairs ih =>
    obtain ⟨name, value⟩ := pair
    cases hn : value.isNumeric with
    | true =>
      obtain ⟨answer, last, h⟩ := ih (bindings.insert (name, value))
      exact ⟨answer, last, fun registry cache => by simp [setEach, setVariable, hn, h]⟩
    | false => exact ⟨.error (.variableType name value), bindings, fun _ _ => by simp [setEach, setVariable, hn]⟩

theorem setVariables_eq (bindings : Table (String × Value) Prod.fst) (pairs : List (String × Value)) (clear : Bool) :
    ∃ answer last, ∀ registry cache,
      setVariables ⟨registry, bindings, cache⟩ pairs clear = (answer, ⟨registry, last, cache⟩) := by
  cases clear with
  | true => exact setEach_eq .empty (mergePairs pairs)
  | false => exact setEach_eq bindings (mergePairs pairs)

/-- Reading a text changes nothing but the cache. -/
theorem compile_snd (session : Session) (text : String) :
    (session.compile text).2 = { session with cache := (session.compile text).2.cache } := by
  unfold compile
  split
  · rfl
  · split <;> rfl

@[simp]
theorem compile_registry (session : Session) (text : String) :
    (session.compile text).2.registry = session.registry :=
  congrArg (·.registry) (compile_snd session text)

@[simp]
theorem compile_bindings (session : Session) (text : String) :
    (session.compile text).2.bindings = session.bindings :=
  congrArg (·.bindings) (compile_snd session text)

/-- The environment is made of the variables alone. -/
theorem environment_eq_of_bindings_eq {session other : Session} (h : session.bindings = other.bindings) :
    session.environment = other.environment := by
  unfold environment
  rw [h]

theorem execute_snd (session : Session) (text : String) : (session.execute text).2 = (session.compile text).2 := by
  unfold execute
  split <;> simp [*]

/-- A command reads a text, or it empties the cache, or it leaves the cache with the operators and functions as they
are. Only definitions change those. -/
theorem perform_cases (session : Session) (command : Command) :
    (∃ text, (command = .compile text ∨ command = .execute text) ∧
      (session.perform command).2 = (session.compile text).2) ∨
    (session.perform command).2.cache = session.cache.clear ∧
      (command.defines = false → (session.perform command).2.registry = session.registry) ∨
    (session.perform command).2.cache = session.cache ∧
      ∃ raises, (session.perform command).2.registry = session.registry.setDivision raises := by
  cases command with
  | execute text => exact .inl ⟨text, .inr rfl, execute_snd session text⟩
  | compile text => exact .inl ⟨text, .inl rfl, rfl⟩
  | setVariable name value =>
    refine .inr (.inr ⟨?_, session.registry.divisionRaises, ?_⟩) <;> simp only [perform, setVariable] <;> split <;> rfl
  | setVariables pairs clear =>
    obtain ⟨answer, last, h⟩ := setVariables_eq session.bindings pairs clear
    have h := h session.registry session.cache
    refine .inr (.inr ⟨?_, session.registry.divisionRaises, ?_⟩) <;> simp only [perform] <;> rw [h] <;> rfl
  | removeVariable name | removeVariables => exact .inr (.inr ⟨rfl, session.registry.divisionRaises, rfl⟩)
  | addOperator draft =>
    simp only [perform, addOperator]
    split
    · exact .inr (.inr ⟨rfl, session.registry.divisionRaises, rfl⟩)
    · exact .inr (.inl ⟨rfl, fun h => by cases h⟩)
  | addFunction name callable arity =>
    simp only [perform, addFunction]
    split
    · exact .inr (.inr ⟨rfl, session.registry.divisionRaises, rfl⟩)
    · split
      · exact .inr (.inr ⟨rfl, session.registry.divisionRaises, rfl⟩)
      · exact .inr (.inl ⟨rfl, fun h => by cases h⟩)
  | setDivision raises => exact .inr (.inr ⟨rfl, raises, rfl⟩)
  | clearCache => exact .inr (.inl ⟨rfl, fun _ => rfl⟩)

/-- A command that defines nothing changes at most the policy on zero divisors. -/
theorem perform_registry (session : Session) {command : Command} (hd : command.defines = false) :
    ∃ raises, (session.perform command).2.registry = session.registry.setDivision raises := by
  rcases perform_cases session command with ⟨text, -, h⟩ | ⟨-, h⟩ | ⟨-, h⟩
  · exact ⟨session.registry.divisionRaises, by rw [h, compile_registry]; rfl⟩
  · exact ⟨session.registry.divisionRaises, h hd⟩
  · exact h

theorem run_registry (session : Session) {commands : List Command}
    (hd : ∀ command ∈ commands, command.defines = false) :
    ∃ raises, (session.run commands).2.registry = session.registry.setDivision raises := by
  induction commands generalizing session with
  | nil => exact ⟨session.registry.divisionRaises, rfl⟩
  | cons command commands ih =>
    obtain ⟨raises, h⟩ := perform_registry session (hd command List.mem_cons_self)
    obtain ⟨last, hl⟩ := ih (session.perform command).2 fun c hc => hd c (List.mem_cons_of_mem command hc)
    rw [h] at hl
    exact ⟨last, hl⟩

/-- A new session has the standard registry, an empty cache and variables that do not depend on the capacity. -/
theorem start_eq (settings : Settings) (raises : Option Bool) :
    ∃ bindings, ∀ capacity, start settings capacity raises =
      ⟨.standard settings (raises.getD settings.divisionRaises), bindings,
        .empty (capacity.or settings.cacheCapacity)⟩ := by
  obtain ⟨answer, last, h⟩ := setVariables_eq .empty standardVariables false
  exact ⟨last, fun capacity => congrArg Prod.snd (h _ _)⟩

/-! ## The capacity -/

theorem compile_capacity (session : Session) (text : String) :
    (session.compile text).2.cache.capacity = session.cache.capacity := by
  unfold compile
  split
  · rfl
  · split
    · rfl
    · simp only [Cache.store]
      split
      · rfl
      · split
        · rfl
        · split <;> rfl

/-- No command changes the capacity. -/
theorem perform_capacity (session : Session) (command : Command) :
    (session.perform command).2.cache.capacity = session.cache.capacity := by
  rcases perform_cases session command with ⟨text, -, h⟩ | ⟨h, -⟩ | ⟨h, -⟩
  · rw [h, compile_capacity]
  · rw [h]
    rfl
  · rw [h]

end Formula.Session

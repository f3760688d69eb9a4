import Formula.Proofs.CacheCoherence
import Formula.Proofs.StandardCallables

/-!
# The policy on zero divisors

A token on a stack asks for an operand or for a call (`Evaluation.Asked`); the policy is looked at when the call is
made, and by the division only. So the runs of a text under the two policies keep the same stacks up to the first call
that divides by zero (`Evaluation.differOnlyIf_foldlM`). There the strict run ends; before it the runs fail
with the same faults, and without it they end with the same number (`Evaluation.differOnlyIf_ofText`). In a session the
policy that was set last counts, also for texts that the cache has (`Session.run_policies`).
-/

namespace Formula

/-! ## Calls -/

namespace Callable

/-- With these operands the division divides by zero: they are doubles, and the second is zero. -/
def DividesByZero (callable : Callable) (args : List Value) : Prop :=
  callable = .division ∧ ∃ a b x y, args = [a, b] ∧ a.toFloat = .ok x ∧ b.toFloat = .ok y ∧ (y == 0.0) = true

theorem quotient_of_ne_zero {b : Float} (hb : (b == 0.0) = false) (raises : Bool) (a : Float) :
    quotient raises a b = .ok (a / b) := by
  simp [quotient, hb]

theorem quotient_of_zero {b : Float} (hb : (b == 0.0) = true) (a : Float) :
    quotient true a b = .error .divisionByZero ∧ ∃ x, quotient false a b = .ok x := by
  simp only [quotient, hb, if_true]
  refine ⟨trivial, ?_⟩
  by_cases ha : (a == 0.0 || a.isNaN) = true
  · exact ⟨_, by rw [if_neg (by simp), if_pos ha]⟩
  · exact ⟨_, by rw [if_neg (by simp), if_neg ha]⟩

theorem call_division_of_toFloat {a b : Value} {x y : Float} (ha : a.toFloat = .ok x) (hb : b.toFloat = .ok y)
    (raises : Bool) : division.call raises [a, b] = (quotient raises x y).map .float := by
  simp only [call, ofBinary?, ha, hb]
  show (quotient raises x y >>= fun z => pure (Value.float z)) = _
  cases quotient raises x y <;> rfl

/-- The division is called with two doubles, or it complains about its arguments whatever the policy. -/
theorem call_division_cases (args : List Value) :
    (∃ a b x y, args = [a, b] ∧ a.toFloat = .ok x ∧ b.toFloat = .ok y) ∨
      ∃ cause, ∀ raises, division.call raises args = .error (.complaint cause) := by
  simp only [call]
  unfold ofBinary?
  split
  · rename_i a b
    cases hx : a.toFloat with
    | error cause => exact .inr ⟨cause, fun _ => rfl⟩
    | ok x =>
      cases hy : b.toFloat with
      | error cause => exact .inr ⟨cause, fun _ => rfl⟩
      | ok y => exact .inl ⟨a, b, x, y, rfl, hx, hy⟩
  · exact .inr ⟨_, fun _ => rfl⟩

/-- A zero divisor is refused under the strict policy, and under the lenient one there is a quotient. -/
theorem call_of_dividesByZero {callable : Callable} {args : List Value} (h : callable.DividesByZero args) :
    callable.call true args = .error .divisionByZero ∧ ∃ x, callable.call false args = .ok (.float x) := by
  obtain ⟨rfl, a, b, x, y, rfl, hx, hy, hzero⟩ := h
  obtain ⟨hstrict, z, hlenient⟩ := quotient_of_zero hzero x
  refine ⟨?_, z, ?_⟩
  · rw [call_division_of_toFloat hx hy, hstrict]
    rfl
  · rw [call_division_of_toFloat hx hy, hlenient]
    rfl

/-- Without a zero divisor the policy does not matter, and nothing is refused as one. -/
theorem call_of_not_dividesByZero {callable : Callable} {args : List Value} (h : ¬ callable.DividesByZero args)
    (hc : callable ≠ .division → ∀ raises args, callable.call raises args ≠ .error .divisionByZero) :
    callable.call true args = callable.call false args ∧ callable.call false args ≠ .error .divisionByZero := by
  cases callable with
  | ofFunction compute => exact ⟨rfl, hc (by rintro ⟨⟩) false args⟩
  | division =>
    rcases call_division_cases args with ⟨a, b, x, y, rfl, hx, hy⟩ | ⟨cause, hcause⟩
    · have hzero : (y == 0.0) = false := by
        rw [← Bool.not_eq_true]
        exact fun hzero => h ⟨rfl, a, b, x, y, rfl, hx, hy, hzero⟩
      simp [call_division_of_toFloat hx hy, quotient_of_ne_zero hzero, Except.map]
    · simp [hcause]

end Callable

/-! ## Outcomes under the two policies -/

namespace Evaluation

/-- The outcomes under the strict and the lenient policy differ only if a zero divisor is met: then the strict one is
the fault for it. The lenient one never is. -/
structure DifferOnlyIf {α : Type} (strict lenient : Except Fault α) (divides : Prop) : Prop where
  same : strict ≠ .error (.refused .divisionByZero) → lenient = strict
  lenient_ne : lenient ≠ .error (.refused .divisionByZero)
  strict_iff : strict = .error (.refused .divisionByZero) ↔ divides

namespace DifferOnlyIf

variable {α β : Type} {strict lenient : Except Fault α} {divides : Prop}

/-- A computation that meets no zero divisor. -/
theorem of_failsOnly {outcome : Except Fault α} (h : FailsOnly Fault.isOfText outcome) :
    DifferOnlyIf outcome outcome False where
  same _ := rfl
  lenient_ne := h _
  strict_iff := iff_false_intro (h _)

theorem congr {other : Prop} (h : DifferOnlyIf strict lenient divides) (he : divides ↔ other) :
    DifferOnlyIf strict lenient other :=
  ⟨h.same, h.lenient_ne, h.strict_iff.trans he⟩

/-- Up to the first zero divisor two computations go on from the same results. -/
theorem bind {f g : α → Except Fault β} {later : α → Prop} (h : DifferOnlyIf strict lenient divides)
    (hl : ∀ a, lenient = .ok a → DifferOnlyIf (f a) (g a) (later a)) :
    DifferOnlyIf (strict >>= f) (lenient >>= g) (divides ∨ ∃ a, lenient = .ok a ∧ later a) := by
  by_cases hd : divides
  · -- The strict computation has ended; of the lenient one it only matters that it does not fail in this way.
    have hstrict := h.strict_iff.2 hd
    refine ⟨?_, ?_, ?_⟩
    · rw [hstrict]
      exact fun hne => absurd rfl hne
    · cases lenient with
      | error fault => exact fun he => h.lenient_ne (congrArg Except.error (Except.error.inj he))
      | ok a => exact (hl a rfl).lenient_ne
    · rw [hstrict]
      exact iff_of_true rfl (.inl hd)
  · obtain rfl : lenient = strict := h.same fun he => hd (h.strict_iff.1 he)
    cases lenient with
    | error fault =>
      have hne : fault ≠ .refused .divisionByZero := fun he => h.lenient_ne (congrArg Except.error he)
      refine ⟨fun _ => rfl, fun he => hne (Except.error.inj he), ?_⟩
      refine iff_of_false (fun he => hne (Except.error.inj he)) ?_
      rintro (hd' | ⟨a, ha, -⟩)
      · exact hd hd'
      · cases ha
    | ok a => exact (hl a rfl).congr (by simp [hd])

end DifferOnlyIf

theorem invoke_ne {raises : Bool} {callable : Callable} {args : List Value}
    (h : callable.call raises args ≠ .error .divisionByZero) (name : String) :
    invoke raises name callable args ≠ .error (.refused .divisionByZero) := by
  unfold invoke
  split
  · rintro ⟨⟩
  · rename_i refusal _ hcall
    intro he
    obtain rfl : refusal = .divisionByZero := Fault.refused.inj (Except.error.inj he)
    exact h hcall
  · split
    · split <;> rintro ⟨⟩
    · rintro ⟨⟩

theorem differOnlyIf_invoke {callable : Callable}
    (hc : callable ≠ .division → ∀ raises args, callable.call raises args ≠ .error .divisionByZero) (name : String)
    (args : List Value) :
    DifferOnlyIf (invoke true name callable args) (invoke false name callable args) (callable.DividesByZero args) := by
  by_cases h : callable.DividesByZero args
  · obtain ⟨hstrict, x, hlenient⟩ := Callable.call_of_dividesByZero h
    have hs : invoke true name callable args = .error (.refused .divisionByZero) := by simp only [invoke, hstrict]
    refine ⟨fun hne => absurd hs hne, ?_, iff_of_true hs h⟩
    apply invoke_ne
    rw [hlenient]
    rintro ⟨⟩
  · obtain ⟨hcall, hne⟩ := Callable.call_of_not_dividesByZero h hc
    have hs : invoke true name callable args = invoke false name callable args := by simp only [invoke, hcall]
    refine ⟨fun _ => hs.symm, invoke_ne hne name, iff_of_false ?_ h⟩
    rw [hs]
    exact invoke_ne hne name

variable {registry : Registry} {environment : Environment}

/-! ## Runs under the two policies -/

/-- A call of the division with a zero divisor is asked for. -/
def Asked.DividesByZero : Asked → Prop
  | .operand _ => False
  | .call _ callable args _ => callable.DividesByZero args

/-- What the tokens of a run ask for one after another, as far as the run comes. -/
def asks (registry : Registry) (environment : Environment) (stack : List Operand) : List Token → List Asked
  | [] => []
  | token :: tokens =>
    match ask registry environment stack token with
    | .error _ => []
    | .ok asked =>
      asked ::
        match give registry.divisionRaises stack asked with
        | .error _ => []
        | .ok next => asks registry environment next tokens

theorem exists_mem_asks_cons {P : Asked → Prop} (stack : List Operand) (token : Token) (tokens : List Token) :
    (∃ asked ∈ asks registry environment stack (token :: tokens), P asked) ↔
      (∃ asked, ask registry environment stack token = .ok asked ∧ P asked) ∨
        ∃ next, step registry environment stack token = .ok next ∧
          ∃ asked ∈ asks registry environment next tokens, P asked := by
  rw [step_eq, asks]
  cases ask registry environment stack token with
  | error fault => simp [bind, Except.bind]
  | ok asked =>
    cases hg : give registry.divisionRaises stack asked <;> simp [bind, Except.bind, hg]

/-- The value of a text. -/
def ofText (registry : Registry) (environment : Environment) (text : String) : Except Fault Float :=
  Postfix.compile registry text >>= evaluate registry environment

/-- Under the lenient policy the division is called with a zero divisor somewhere in the run of a text. -/
def MeetsZeroDivisor (registry : Registry) (environment : Environment) (text : String) : Prop :=
  ∃ tokens, Postfix.compile (registry.setDivision false) text = .ok tokens ∧
    ∃ asked ∈ asks (registry.setDivision false) environment [] tokens, asked.DividesByZero

section Policies

variable (hregistry : ∀ callable, registry.Registers callable → callable ≠ .division →
  ∀ raises args, callable.call raises args ≠ .error .divisionByZero)

include hregistry

theorem differOnlyIf_step (stack : List Operand) (token : Token) :
    DifferOnlyIf (step (registry.setDivision true) environment stack token)
      (step (registry.setDivision false) environment stack token)
      (∃ asked, ask registry environment stack token = .ok asked ∧ asked.DividesByZero) := by
  have hask : DifferOnlyIf (ask registry environment stack token) (ask registry environment stack token) False :=
    .of_failsOnly (failsOnly_ask stack token)
  rw [step_eq, step_eq]
  refine (hask.bind fun asked ha => ?_).congr (iff_of_eq (false_or _))
  cases asked with
  | operand operand => exact .of_failsOnly (.ok _ _)
  | call name callable args below =>
    have hinvoke := differOnlyIf_invoke (hregistry callable (registers_of_ask ha)) name args
    refine (hinvoke.bind fun x _ => .of_failsOnly (.ok _ _)).congr ?_
    simp [Asked.DividesByZero]

theorem differOnlyIf_foldlM (tokens : List Token) (stack : List Operand) :
    DifferOnlyIf (tokens.foldlM (step (registry.setDivision true) environment) stack)
      (tokens.foldlM (step (registry.setDivision false) environment) stack)
      (∃ asked ∈ asks (registry.setDivision false) environment stack tokens, asked.DividesByZero) := by
  induction tokens generalizing stack with
  | nil => exact (DifferOnlyIf.of_failsOnly (.ok _ _)).congr (by simp [asks])
  | cons token tokens ih =>
    rw [List.foldlM_cons, List.foldlM_cons]
    refine ((differOnlyIf_step hregistry stack token).bind fun next _ => ih next).congr ?_
    rw [exists_mem_asks_cons]
    rfl

theorem differOnlyIf_ofText (environment : Environment) (text : String) :
    DifferOnlyIf (ofText (registry.setDivision true) environment text)
      (ofText (registry.setDivision false) environment text) (MeetsZeroDivisor registry environment text) := by
  have hcompile : DifferOnlyIf (Postfix.compile (registry.setDivision true) text)
      (Postfix.compile (registry.setDivision false) text) False := by
    rw [Postfix.compile_setDivision, Postfix.compile_setDivision]
    exact .of_failsOnly (Postfix.ofText_compile registry text)
  refine (hcompile.bind fun tokens _ => ?_).congr (iff_of_eq (false_or _))
  refine ((differOnlyIf_foldlM hregistry tokens []).bind fun stack _ => .of_failsOnly (failsOnly_result stack)).congr ?_
  simp

end Policies

end Evaluation

/-! ## Sessions -/

namespace Session

open Evaluation

variable {session : Session}

/-- Sets the policies one after another, each time with the text behind. -/
def policies (text : String) (raises : List Bool) : List Command :=
  raises.flatMap fun raises => [.setDivision raises, .execute text]

/-- The policy that was set last counts, whether the text is in the cache or not. -/
theorem run_policies {registry : Registry}
    (hr : ∀ raises, session.registry.setDivision raises = registry.setDivision raises) (hc : session.Coherent)
    (ht : session.cache.TakesEntries) (text : String) (raises : List Bool) :
    (session.run (policies text raises)).1 = raises.flatMap fun raises =>
      [.ok .done, (ofText (registry.setDivision raises) session.environment text).map .number] := by
  induction raises generalizing session with
  | nil => rfl
  | cons first raises ih =>
    have hset : (session.setDivision first).Coherent := coherent_perform hc (.setDivision first)
    have hset' : (session.setDivision first).cache.TakesEntries := ht
    have htext : ((session.setDivision first).execute text).1 =
        ofText (registry.setDivision first) session.environment text := by
      rw [execute_fst hset hset', ← hr]
      rfl
    let next := ((session.setDivision first).execute text).2
    have hnext : next = ((session.setDivision first).compile text).2 := execute_snd _ text
    have hregistry : ∀ raises, next.registry.setDivision raises = registry.setDivision raises := by
      intro raises
      rw [hnext, compile_registry, ← hr]
      rfl
    have henvironment : next.environment = session.environment :=
      environment_eq_of_bindings_eq (by rw [hnext, compile_bindings]; rfl)
    have hrest := ih hregistry (coherent_perform hset (.execute text)) (takesEntries_perform hset' (.execute text))
    show .ok .done :: ((session.setDivision first).execute text).1.map .number ::
      (next.run (policies text raises)).1 = _
    rw [htext, hrest, henvironment]
    rfl

/-- **The policy on zero divisors changes nothing but what comes of a zero divisor.** Callables other than the division
do not refuse zero divisors. Then a text has the same value or the same fault under the two policies, unless the run
under the lenient one calls the division with a zero divisor; just then the strict run ends with the fault for it. In a
session this is what is answered at every turn of the policy, also when the text is in the cache. -/
theorem policy_matters_only_at_zero (registry : Registry)
    (hregistry : ∀ callable, registry.Registers callable → callable ≠ .division →
      ∀ raises args, callable.call raises args ≠ .error .divisionByZero)
    (environment : Environment) (text : String) :
    DifferOnlyIf (ofText (registry.setDivision true) environment text)
      (ofText (registry.setDivision false) environment text) (MeetsZeroDivisor registry environment text) ∧
    ∀ (settings : Settings) capacity raises, (∀ n ∈ capacity.or settings.cacheCapacity, 0 ≤ n) → ∀ commands,
      let session := ((start settings capacity raises).run commands).2
      session.registry = registry → session.environment = environment → ∀ turns,
        (session.run (policies text turns)).1 = turns.flatMap fun raises =>
          [.ok .done, (ofText (registry.setDivision raises) environment text).map .number] := by
  refine ⟨differOnlyIf_ofText hregistry environment text, ?_⟩
  intro settings capacity raises hn commands session hr he turns
  obtain ⟨hc, ht⟩ := coherent_run_start settings capacity raises hn commands
  subst he
  exact run_policies (fun _ => by rw [hr]) hc ht text turns

/-- The text is in the cache before the policy is turned. -/
theorem policy_matters_only_at_zero_quotient :
    (∀ callable, (Registry.standard .shipped true).Registers callable → callable ≠ .division →
      ∀ raises args, callable.call raises args ≠ .error .divisionByZero) ∧
    let session := ((start .shipped none none).run [.execute "-6/0"]).2
    MeetsZeroDivisor (.standard .shipped true) session.environment "-6/0" ∧
      (session.run (policies "-6/0" [false, true])).1 =
        [.ok .done, .ok (.number (-1.0 / 0.0)), .ok .done, .error (.refused .divisionByZero)] := by
  have hregistry : ∀ callable, (Registry.standard .shipped true).Registers callable → callable ≠ .division →
      ∀ raises args, callable.call raises args ≠ .error .divisionByZero :=
    fun callable h => (Registry.complains_of_registers h).call_ne
  refine ⟨hregistry, ?_⟩
  intro session
  have hr : session.registry = .standard .shipped true := by
    obtain ⟨bindings, hs⟩ := start_eq .shipped none
    show (execute _ "-6/0").2.registry = _
    rw [execute_snd, compile_registry, hs]
    rfl
  obtain ⟨hdiffer, hturns⟩ := policy_matters_only_at_zero _ hregistry session.environment "-6/0"
  have hstrict : ofText ((Registry.standard .shipped true).setDivision true) session.environment "-6/0" =
      .error (.refused .divisionByZero) := by decide +kernel
  have hlenient : ofText ((Registry.standard .shipped true).setDivision false) session.environment "-6/0" =
      .ok (-1.0 / 0.0) := eq_ok_of_toOption (by decide +kernel)
  refine ⟨hdiffer.strict_iff.1 hstrict, ?_⟩
  rw [hturns .shipped none none (by simp [Settings.shipped]) [.execute "-6/0"] hr rfl [false, true]]
  simp only [List.flatMap_cons, List.flatMap_nil, hstrict, hlenient]
  rfl

end Session

end Formula

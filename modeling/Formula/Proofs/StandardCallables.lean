import Formula.Proofs.Containment
import Formula.Proofs.StandardRegistry

/-!
# What the standard callables refuse

The callables that make doubles of their arguments complain about these, and they refuse nothing else unless what they
compute with the doubles does (`Callable.failsOnly_ofUnary`, `Callable.failsOnly_ofBinary?`). So among the standard
callables only the division has a refusal of another kind, that of a zero divisor (`Registry.complains_of_registers`).
Under such a registry evaluation fails with faults of the expression only (`Registry.failsOnly_evaluate_of_complains`).
-/

namespace Formula

theorem FailsOnly.mapError {ε ε' α : Type} {P : ε' → Prop} {f : ε → ε'} (h : ∀ fault, P (f fault))
    (outcome : Except ε α) : FailsOnly P (outcome.mapError f) := by
  cases outcome with
  | error fault => exact .error (h fault)
  | ok a => exact .ok P a

/-! ## Callables of doubles -/

namespace Callable

variable {P : Refusal → Prop}

theorem failsOnly_ofUnary (hc : ∀ cause, P (.complaint cause)) (signature : Signature) (compute : Float → Float)
    (args : List Value) : FailsOnly P (ofUnary signature compute args) := by
  unfold ofUnary
  split
  · exact (FailsOnly.mapError hc _).bind fun _ => .ok P _
  · exact .error (hc _)

theorem failsOnly_ofBinary? (hc : ∀ cause, P (.complaint cause)) {compute : Float → Float → Except Refusal Float}
    (h : ∀ a b, FailsOnly P (compute a b)) (signature : Signature) (args : List Value) :
    FailsOnly P (ofBinary? signature compute args) := by
  unfold ofBinary?
  split
  · refine (FailsOnly.mapError hc _).bind fun x => (FailsOnly.mapError hc _).bind fun y => ?_
    exact (h x y).bind fun _ => .ok P _
  · exact .error (hc _)

theorem failsOnly_ofBinary (hc : ∀ cause, P (.complaint cause)) (signature : Signature)
    (compute : Float → Float → Float) (args : List Value) : FailsOnly P (ofBinary signature compute args) :=
  failsOnly_ofBinary? hc (fun _ _ => .ok P _) signature args

theorem failsOnly_quotient (raises : Bool) (a b : Float) : FailsOnly (· = .divisionByZero) (quotient raises a b) := by
  unfold quotient
  split
  · split
    · exact .error rfl
    · split <;> exact .ok _ _
  · exact .ok _ _

/-- The callable refuses arguments by complaints only, but for the division, which also refuses zero divisors. -/
def Complains (callable : Callable) : Prop :=
  ∀ raises args refusal, callable.call raises args = .error refusal →
    refusal.isComplaint = true ∨ callable = .division ∧ refusal = .divisionByZero

theorem complains_division : division.Complains := by
  intro raises args
  exact failsOnly_ofBinary? (fun _ => .inl rfl)
    (fun a b => (failsOnly_quotient raises a b).mono fun _ hq => .inr ⟨rfl, hq⟩) divisionSignature args

theorem complains_ofUnary (signature : Signature) (compute : Float → Float) :
    (ofFunction (ofUnary signature compute)).Complains := by
  intro raises args
  exact failsOnly_ofUnary (fun _ => .inl rfl) signature compute args

theorem complains_ofBinary (signature : Signature) (compute : Float → Float → Float) :
    (ofFunction (ofBinary signature compute)).Complains := by
  intro raises args
  exact failsOnly_ofBinary (fun _ => .inl rfl) signature compute args

/-- Callables other than the division do not refuse zero divisors. -/
theorem Complains.call_ne {callable : Callable} (h : callable.Complains) (hne : callable ≠ .division) (raises : Bool)
    (args : List Value) : callable.call raises args ≠ .error .divisionByZero := by
  intro hcall
  rcases h raises args .divisionByZero hcall with hcomplaint | ⟨hdivision, -⟩
  · cases hcomplaint
  · exact hne hdivision

end Callable

/-! ## The standard registry -/

namespace Registry

variable {settings : Settings} {raises : Bool}

theorem mem_standardFunctions {name : String} {function : Function}
    (h : (Registry.standard settings raises).functions.find? name = some function) : function ∈ standardFunctions := by
  have hnone : (empty raises).functions.find? name = none := rfl
  rw [standard, find?_foldl_addFunction, functions_foldl_addOperator, hnone, Option.or_none] at h
  exact List.mem_reverse.1 (List.mem_of_find?_eq_some h)

/-- A standard callable is the division or a function of one or two doubles. -/
theorem forall_standard_callables {P : Callable → Prop} (hdivision : P .division)
    (hunary : ∀ signature compute, P (.ofFunction (Callable.ofUnary signature compute)))
    (hbinary : ∀ signature compute, P (.ofFunction (Callable.ofBinary signature compute))) {callable : Callable}
    (h : (Registry.standard settings raises).Registers callable) : P callable := by
  rcases h with ⟨fixity, symbol, op, hf, rfl⟩ | ⟨name, function, hf, rfl⟩
  · have hm : op ∈ settings.operators := mem_standardOperators (Table.mem_of_find? hf)
    obtain ⟨levels, -, hops⟩ := settings.exists_levels
    simp only [hops, Precedences.operators, List.mem_cons, List.not_mem_nil, or_false] at hm
    rcases hm with rfl | rfl | rfl | rfl | rfl | rfl | rfl
    · exact hbinary _ _
    · exact hbinary _ _
    · exact hbinary _ _
    · exact hdivision
    · exact hbinary _ _
    · exact hunary _ _
    · exact hunary _ _
  · have hm : function ∈ standardFunctions := mem_standardFunctions hf
    simp only [standardFunctions, List.mem_cons, List.not_mem_nil, or_false] at hm
    rcases hm with rfl | rfl | rfl | rfl | rfl | rfl | rfl | rfl | rfl | rfl | rfl
    -- The elementary functions come first, then those of two operands.
    iterate 8 exact hunary _ _
    iterate 3 exact hbinary _ _

/-- Every standard callable refuses arguments by complaints only, but for the division. -/
theorem complains_of_registers {callable : Callable} (h : (Registry.standard settings raises).Registers callable) :
    callable.Complains :=
  forall_standard_callables Callable.complains_division Callable.complains_ofUnary Callable.complains_ofBinary h

/-- Under a registry whose callables refuse nothing but arguments and zero divisors, evaluation fails with faults of the
expression only. -/
theorem failsOnly_evaluate_of_complains {registry : Registry}
    (h : ∀ callable, registry.Registers callable → callable.Complains) (environment : Evaluation.Environment)
    (tokens : List Token) : FailsOnly Fault.isLabelled (Evaluation.evaluate registry environment tokens) := by
  refine (Evaluation.failsOnly_evaluate tokens).mono ?_
  rintro fault (hl | ⟨callable, args, refusal, hr, hcall, hc, rfl⟩)
  · exact hl
  · rcases h callable hr _ args refusal hcall with hcomplaint | ⟨-, rfl⟩
    · exact absurd hcomplaint (by simp [hc])
    · rfl

end Registry

end Formula

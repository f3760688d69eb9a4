import Formula.Proofs.Agreement
import Formula.Proofs.CacheCoherence
import Formula.Proofs.StandardRegistry

/-!
# Definitions that a text does not mention

A new operator or function changes what a registry says of its own name and of no other
(`Registry.agreesOn_addOperator`, `Registry.agreesOn_addFunction`). So a text in which the name does not stand keeps its
tokens and its value when the name is defined or defined anew, in every session and whether the text was read before or
not (`Session.answers_of_unmentioned`).
-/

namespace Formula

/-! ## One definition -/

namespace Registry

variable {known : String → Prop}

theorem AgreesOn.refl (registry : Registry) : registry.AgreesOn known registry :=
  ⟨fun _ _ _ => rfl, fun _ _ => rfl, rfl⟩

theorem AgreesOn.trans {registry middle other : Registry} (h : registry.AgreesOn known middle)
    (h' : middle.AgreesOn known other) : registry.AgreesOn known other where
  operators name hk fixity := (h.operators name hk fixity).trans (h'.operators name hk fixity)
  functions name hk := (h.functions name hk).trans (h'.functions name hk)
  divisionRaises := h.divisionRaises.trans h'.divisionRaises

theorem agreesOn_addOperator (registry : Registry) {op : Operator} (h : ¬ known op.symbol) :
    registry.AgreesOn known (registry.addOperator op) where
  operators name hk fixity := by
    have hne : op.symbol ≠ name := fun he => h (he ▸ hk)
    rw [find?_addOperator, if_neg fun hc => hne hc.2]
  functions name _ := by
    unfold addOperator
    split <;> rfl
  divisionRaises := by
    unfold addOperator
    split <;> rfl

theorem agreesOn_addFunction (registry : Registry) {function : Function} (h : ¬ known function.name) :
    registry.AgreesOn known (registry.addFunction function) where
  operators _ _ fixity := by cases fixity <;> rfl
  functions name hk := by
    have hne : function.name ≠ name := fun he => h (he ▸ hk)
    rw [find?_addFunction, if_neg hne]
  divisionRaises := rfl

end Registry

theorem OperatorDraft.symbol_of_check {draft : OperatorDraft} {op : Operator} (h : draft.check = .ok op) :
    op.symbol = draft.symbol := by
  unfold check at h
  split at h
  · cases h
  · split at h
    · split at h <;> cases h
      rfl
    · cases h

theorem FunctionDraft.name_of_check {draft : FunctionDraft} {function : Function} (h : draft.check = .ok function) :
    function.name = draft.name := by
  unfold check at h
  split at h
  · split at h <;> cases h
    rfl
  · cases h

/-! ## Sessions -/

namespace Session

/-- The name that a command defines. -/
def Command.defined? : Command → Option String
  | .addOperator draft => some draft.symbol
  | .addFunction name _ _ => some name
  | _ => none

variable {known : String → Prop}

/-- A definition of an unknown name leaves the variables and all that is known of the registry. -/
theorem agreesOn_perform (session : Session) {command : Command} {name : String} (hd : name ∈ command.defined?)
    (hk : ¬ known name) :
    session.registry.AgreesOn known (session.perform command).2.registry ∧
      (session.perform command).2.bindings = session.bindings := by
  cases command with
  | addOperator draft =>
    obtain rfl : draft.symbol = name := Option.some.inj hd
    simp only [perform, addOperator]
    cases hc : draft.check with
    | error fault => exact ⟨.refl _, rfl⟩
    | ok op => exact ⟨session.registry.agreesOn_addOperator (OperatorDraft.symbol_of_check hc ▸ hk), rfl⟩
  | addFunction name' callable arity =>
    obtain rfl : name' = name := Option.some.inj hd
    simp only [perform, addFunction]
    cases callable with
    | none => exact ⟨.refl _, rfl⟩
    | some callable =>
      dsimp only
      cases hc : (FunctionDraft.mk name' callable arity).check with
      | error fault => exact ⟨.refl _, rfl⟩
      | ok function => exact ⟨session.registry.agreesOn_addFunction (FunctionDraft.name_of_check hc ▸ hk), rfl⟩
  | _ => cases hd

theorem agreesOn_run (session : Session) {definitions : List Command}
    (hd : ∀ command ∈ definitions, ∃ name ∈ command.defined?, ¬ known name) :
    session.registry.AgreesOn known (session.run definitions).2.registry ∧
      (session.run definitions).2.bindings = session.bindings := by
  induction definitions generalizing session with
  | nil => exact ⟨.refl _, rfl⟩
  | cons command definitions ih =>
    obtain ⟨⟨name, hn, hk⟩, hrest⟩ := List.forall_mem_cons.1 hd
    obtain ⟨hregistry, hbindings⟩ := agreesOn_perform session hn hk
    obtain ⟨hregistry', hbindings'⟩ := ih (session.perform command).2 hrest
    exact ⟨hregistry.trans hregistry', hbindings'.trans hbindings⟩

/-- **Definitions that a text does not mention do not change its answers.** Behind any commands, operators and
functions may be added, or replaced, whose names do not stand in the text: its tokens, its value and its faults stay. -/
theorem answers_of_unmentioned (settings : Settings) (capacity : Option Int) (raises : Option Bool)
    (h : ∀ n ∈ capacity.or settings.cacheCapacity, 0 ≤ n) (commands : List Command) (text : String)
    (definitions : List Command) (hd : ∀ command ∈ definitions, ∃ name ∈ command.defined?, ¬ Mentions text name) :
    let session := ((start settings capacity raises).run commands).2
    let next := (session.run definitions).2
    (next.compile text).1 = (session.compile text).1 ∧ (next.execute text).1 = (session.execute text).1 := by
  intro session next
  obtain ⟨hc, ht⟩ := coherent_run_start settings capacity raises h commands
  obtain ⟨hc', ht'⟩ : next.Coherent ∧ next.cache.TakesEntries := coherent_run hc ht definitions
  obtain ⟨hregistry, hbindings⟩ := agreesOn_run session hd
  constructor
  · rw [compile_fst hc' ht', compile_fst hc ht, compile_of_agreesOn hregistry]
  · rw [execute_fst hc' ht', execute_fst hc ht, environment_eq_of_bindings_eq hbindings,
      outcome_of_agreesOn hregistry]

/-- An operator whose symbol starts with one of the text, one that the text does without, and a function. -/
def besides : List Command :=
  [.addOperator ⟨"**", .int 0, .right, .power, 2⟩, .addOperator ⟨"-", .int 9, .left, .add, 2⟩,
    .addFunction "maxi" (some .min) 2]

theorem answers_of_unmentioned_besides :
    (∀ n ∈ (some 1).or Settings.shipped.cacheCapacity, 0 ≤ n) ∧
    (∀ command ∈ besides, ∃ name ∈ command.defined?, ¬ Mentions "2*x + max(x, 3)" name) ∧
    let session := ((start .shipped (some 1) none).run [.setVariable "x" (.int 4), .execute "2*x + max(x, 3)"]).2
    let next := (session.run besides).2
    (next.compile "2*x + max(x, 3)").1 = (session.compile "2*x + max(x, 3)").1 ∧
      (next.execute "2*x + max(x, 3)").1 = .ok 12.0 := by
  have one : ∀ n ∈ (some 1).or Settings.shipped.cacheCapacity, 0 ≤ n := by simp
  have unmentioned : ∀ command ∈ besides, ∃ name ∈ command.defined?, ¬ Mentions "2*x + max(x, 3)" name := by
    refine List.forall_mem_cons.2 ⟨⟨"**", rfl, by decide +kernel⟩, List.forall_mem_cons.2 ⟨⟨"-", rfl, ?_⟩,
      List.forall_mem_singleton.2 ⟨"maxi", rfl, ?_⟩⟩⟩
    · decide +kernel
    · decide +kernel
  obtain ⟨hcompile, hexecute⟩ := answers_of_unmentioned .shipped (some 1) none one
    [.setVariable "x" (.int 4), .execute "2*x + max(x, 3)"] "2*x + max(x, 3)" besides unmentioned
  exact ⟨one, unmentioned, hcompile, hexecute.trans (eq_ok_of_toOption (by decide +kernel))⟩

end Session

end Formula

import Formula.Registry

/-!
# Outcomes

A computation that may fail succeeds only if each of its parts does (`exists_of_bind_eq_ok`), and it fails only with
faults that one of its parts fails with (`FailsOnly.bind`, `FailsOnly.foldlM`). A name is resolved only if the table of
the registry has an entry of that name.
-/

namespace Formula

section

variable {ε α β : Type}

/-- If a computation succeeds, so does its first part, and the rest succeeds on what the first part gives. -/
theorem exists_of_bind_eq_ok {first : Except ε α} {rest : α → Except ε β} {b : β} (h : first >>= rest = .ok b) :
    ∃ a, first = .ok a ∧ rest a = .ok b := by
  cases first with
  | error e => cases h
  | ok a => exact ⟨a, rfl, h⟩

theorem eq_ok_of_toOption {outcome : Except ε α} {a : α} (h : outcome.toOption = some a) : outcome = .ok a := by
  cases outcome with
  | error e => cases h
  | ok b => exact congrArg Except.ok (Option.some.inj h)

/-- Whether a computation fails with a fault is told from the fault alone. -/
instance decidableEqError [DecidableEq ε] (outcome : Except ε α) (fault : ε) : Decidable (outcome = .error fault) :=
  match outcome with
  | .error other => decidable_of_iff (other = fault) ⟨congrArg _, Except.error.inj⟩
  | .ok _ => isFalse fun h => nomatch h

instance decidableEqOk [DecidableEq α] (outcome : Except ε α) (a : α) : Decidable (outcome = .ok a) :=
  match outcome with
  | .error _ => isFalse fun h => nomatch h
  | .ok b => decidable_of_iff (b = a) ⟨congrArg _, Except.ok.inj⟩

theorem length_of_mapM_eq_ok {f : α → Except ε β} {xs : List α} {ys : List β} (h : xs.mapM f = .ok ys) :
    ys.length = xs.length := by
  induction xs generalizing ys with
  | nil => cases h; rfl
  | cons x xs ih =>
    rw [List.mapM_cons] at h
    obtain ⟨y, -, h⟩ := exists_of_bind_eq_ok h
    obtain ⟨rest, hrest, h⟩ := exists_of_bind_eq_ok h
    cases h
    rw [List.length_cons, List.length_cons, ih hrest]

/-- Every item has its result among the results, and every result is one of an item. -/
theorem exists_of_mapM_eq_ok {f : α → Except ε β} {xs : List α} {ys : List β} (h : xs.mapM f = .ok ys) :
    (∀ x ∈ xs, ∃ y ∈ ys, f x = .ok y) ∧ ∀ y ∈ ys, ∃ x ∈ xs, f x = .ok y := by
  induction xs generalizing ys with
  | nil =>
    cases h
    simp
  | cons x xs ih =>
    rw [List.mapM_cons] at h
    obtain ⟨y, hy, h⟩ := exists_of_bind_eq_ok h
    obtain ⟨rest, hrest, h⟩ := exists_of_bind_eq_ok h
    cases h
    obtain ⟨hitems, hresults⟩ := ih hrest
    refine ⟨List.forall_mem_cons.2 ⟨⟨y, List.mem_cons_self, hy⟩, fun x' hx => ?_⟩,
      List.forall_mem_cons.2 ⟨⟨x, List.mem_cons_self, hy⟩, fun y' hy' => ?_⟩⟩
    · obtain ⟨y', hm, he⟩ := hitems x' hx
      exact ⟨y', List.mem_cons_of_mem y hm, he⟩
    · obtain ⟨x', hm, he⟩ := hresults y' hy'
      exact ⟨x', List.mem_cons_of_mem x hm, he⟩

/-- Items and results may be changed together. -/
theorem mapM_map_eq {α' β' : Type} {f : α → Except ε β} {g : α' → Except ε β'} {a : α → α'} {b : β → β'} {xs : List α}
    (h : ∀ x ∈ xs, g (a x) = (f x).map b) : (xs.map a).mapM g = (xs.mapM f).map (List.map b) := by
  induction xs with
  | nil => rfl
  | cons x xs ih =>
    rw [List.map_cons, List.mapM_cons, List.mapM_cons, h x List.mem_cons_self,
      ih fun x' hx => h x' (List.mem_cons_of_mem x hx)]
    cases f x with
    | error fault => rfl
    | ok y => cases xs.mapM f <;> rfl

end

/-! ## Faults that may come -/

section

variable {ε α β : Type} {P Q : ε → Prop}

/-- Every fault that the computation may end with has the property. -/
def FailsOnly (P : ε → Prop) (outcome : Except ε α) : Prop := ∀ fault, outcome = .error fault → P fault

theorem FailsOnly.ok (P : ε → Prop) (a : α) : FailsOnly P (.ok a) := by
  intro fault h
  cases h

theorem FailsOnly.error {fault : ε} (h : P fault) : FailsOnly P (.error fault : Except ε α) := by
  intro other ho
  cases ho
  exact h

theorem FailsOnly.bind_of_ok {first : Except ε α} {rest : α → Except ε β} (h : FailsOnly P first)
    (hr : ∀ a, first = .ok a → FailsOnly P (rest a)) : FailsOnly P (first >>= rest) := by
  cases first with
  | error fault => exact .error (h fault rfl)
  | ok a => exact hr a rfl

theorem FailsOnly.bind {first : Except ε α} {rest : α → Except ε β} (h : FailsOnly P first)
    (hr : ∀ a, FailsOnly P (rest a)) : FailsOnly P (first >>= rest) :=
  h.bind_of_ok fun a _ => hr a

theorem FailsOnly.map {f : α → β} {outcome : Except ε α} (h : FailsOnly P outcome) : FailsOnly P (outcome.map f) := by
  cases outcome with
  | error fault => exact .error (h fault rfl)
  | ok a => exact .ok P (f a)

theorem FailsOnly.mono {outcome : Except ε α} (h : FailsOnly P outcome) (hpq : ∀ fault, P fault → Q fault) :
    FailsOnly Q outcome :=
  fun fault ho => hpq fault (h fault ho)

/-- A walk along a list fails only with what one of its steps fails with. -/
theorem FailsOnly.foldlM {step : β → α → Except ε β} {items : List α}
    (h : ∀ item ∈ items, ∀ b, FailsOnly P (step b item)) (b : β) : FailsOnly P (items.foldlM step b) := by
  induction items generalizing b with
  | nil => exact .ok P b
  | cons item items ih =>
    obtain ⟨hitem, hitems⟩ := List.forall_mem_cons.1 h
    rw [List.foldlM_cons]
    exact (hitem b).bind (ih hitems)

end

namespace Registry

variable {registry : Registry} {fixity : Fixity}

theorem resolveOperator_eq_ok {symbol : String} {op : Operator} :
    registry.resolveOperator fixity symbol = .ok op ↔ (registry.operators fixity).find? symbol = some op := by
  unfold resolveOperator
  cases (registry.operators fixity).find? symbol <;> simp

theorem resolveFunction_eq_ok {name : String} {function : Function} :
    registry.resolveFunction name = .ok function ↔ registry.functions.find? name = some function := by
  unfold resolveFunction
  cases registry.functions.find? name <;> simp

end Registry

end Formula

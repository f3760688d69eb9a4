import Formula.Proofs.SessionRun

/-!
# The cache is transparent

A session is coherent (`Session.Coherent`) if every text in its cache stands with the tokens that reading it anew would
give under the registry as it is now. Every command keeps this (`Session.coherent_perform`): a text is stored with what
was just made of it, a new operator or function empties the cache, and the policy on zero divisors is not looked at when
a text is read (`Postfix.compile_setDivision`).

In a coherent session whose cache takes entries a text is answered as if there were no cache (`Session.compile_fst`,
`Session.execute_fst`), so that sessions which differ in nothing but their caches give the same answers to the same
commands (`Session.run_agrees`).
-/

namespace Formula

/-! ## Texts are read without the policy -/

section Policy

variable (registry : Registry) (raises : Bool)

theorem Infix.readFrom_setDivision (symbols : List String) (before : Option Token.Kind) (position : Nat)
    (text : List Char) :
    readFrom (registry.setDivision raises) symbols before position text =
      readFrom registry symbols before position text := by
  have ht : readToken (registry.setDivision raises) = readToken registry := rfl
  fun_induction readFrom registry symbols before position text with
  | case1 => rw [readFrom]
  | case2 before position first rest hb ih => rw [readFrom, if_pos hb, ih]
  | case3 before position first rest hb fault h => simp only [readFrom, if_neg hb, ht, h]
  | case4 before position first rest hb kind count h fault hf ih =>
    simp only [readFrom, if_neg hb, ht, h, ih, hf]
  | case5 before position first rest hb kind count h tokens hts ih =>
    simp only [readFrom, if_neg hb, ht, h, ih, hts]

theorem Infix.read_setDivision (text : String) : read (registry.setDivision raises) text = read registry text :=
  readFrom_setDivision registry raises registry.symbols none 0 text.toList

theorem Postfix.State.run_setDivision (state : State) (tokens : List Token) :
    state.run (registry.setDivision raises) tokens = state.run registry tokens := by
  induction tokens generalizing state with
  | nil => rfl
  | cons token tokens ih =>
    have hs : state.step (registry.setDivision raises) token = state.step registry token := rfl
    simp only [run, hs, ih]

theorem Postfix.compile_setDivision (text : String) :
    compile (registry.setDivision raises) text = compile registry text := by
  simp only [compile, ofInfix, Infix.read_setDivision, State.run_setDivision]

end Policy

/-! ## Coherence -/

namespace Cache

variable {α : Type} {cache : Cache α} {text : String} {made : α}

/-- Every number of entries from one on is allowed. -/
def TakesEntries (cache : Cache α) : Prop := ∀ capacity ∈ cache.capacity, 0 ≤ capacity

theorem mem_of_find? (h : cache.find? text = some made) : (text, made) ∈ cache.entries := by
  obtain ⟨before, behind, he, -⟩ := List.lookup_eq_some_iff.1 h
  rw [he]
  simp

theorem mem_of_mem_touch {entry : String × α} (h : entry ∈ (cache.touch text made).entries) :
    entry = (text, made) ∨ entry ∈ cache.entries := by
  rcases List.mem_append.1 h with h | h
  · exact .inr (List.mem_filter.1 h).1
  · exact .inl (List.mem_singleton.1 h)

theorem mem_of_mem_store {entry : String × α} (h : entry ∈ (cache.store text made).2.entries) :
    entry = (text, made) ∨ entry ∈ cache.entries := by
  have happ : ∀ {entry}, entry ∈ cache.entries ++ [(text, made)] → entry = (text, made) ∨ entry ∈ cache.entries :=
    fun h => (List.mem_append.1 h).symm.imp_left List.mem_singleton.1
  unfold store at h
  split at h
  · exact happ h
  · split at h
    · cases h
    · split at h
      · exact happ h
      · exact happ (List.mem_of_mem_drop h)

/-- A cache that takes entries stores them without a fault. -/
theorem store_fst (h : cache.TakesEntries) : (cache.store text made).1 = .ok () := by
  unfold store
  split
  · rfl
  · rename_i capacity hc
    rw [if_neg (by have := h capacity hc; omega)]
    split <;> rfl

end Cache

namespace Session

variable {session : Session}

/-- Every text in the cache stands with the tokens that reading it anew gives. -/
def Coherent (session : Session) : Prop :=
  ∀ entry ∈ session.cache.entries, Postfix.compile session.registry entry.1 = .ok entry.2

theorem coherent_compile (h : session.Coherent) (text : String) : (session.compile text).2.Coherent := by
  intro entry he
  rw [compile_snd]
  simp only [compile] at he
  split at he
  · rename_i tokens hf
    rcases Cache.mem_of_mem_touch he with rfl | he
    · exact h _ (Cache.mem_of_find? hf)
    · exact h _ he
  · split at he
    · exact h _ he
    · rename_i tokens hc
      rcases Cache.mem_of_mem_store he with rfl | he
      · exact hc
      · exact h _ he

/-- Every command keeps a session coherent, whether it succeeds or fails. -/
theorem coherent_perform (h : session.Coherent) (command : Command) : (session.perform command).2.Coherent := by
  rcases perform_cases session command with ⟨text, -, hp⟩ | ⟨hp, -⟩ | ⟨hc, raises, hr⟩
  · rw [hp]
    exact coherent_compile h text
  · intro entry he
    rw [hp] at he
    cases he
  · intro entry he
    rw [hc] at he
    rw [hr, Postfix.compile_setDivision]
    exact h entry he

theorem takesEntries_perform (ht : session.cache.TakesEntries) (command : Command) :
    (session.perform command).2.cache.TakesEntries :=
  fun n hn => ht n (perform_capacity session command ▸ hn)

theorem coherent_run (h : session.Coherent) (ht : session.cache.TakesEntries) (commands : List Command) :
    (session.run commands).2.Coherent ∧ (session.run commands).2.cache.TakesEntries :=
  run_induct (P := fun session => session.Coherent ∧ session.cache.TakesEntries)
    (fun _ command ⟨h, ht⟩ => ⟨coherent_perform h command, takesEntries_perform ht command⟩) ⟨h, ht⟩ commands

/-- A coherent session answers a text as if there were no cache. -/
theorem compile_fst (h : session.Coherent) (ht : session.cache.TakesEntries) (text : String) :
    (session.compile text).1 = Postfix.compile session.registry text := by
  unfold compile
  split
  · rename_i tokens hf
    exact (h _ (Cache.mem_of_find? hf)).symm
  · split
    · rename_i fault hc
      exact hc.symm
    · rename_i tokens hc
      rw [hc]
      show (Cache.store _ text tokens).1.map _ = _
      rw [Cache.store_fst (show session.cache.countMiss.TakesEntries from ht)]
      rfl

theorem execute_fst (h : session.Coherent) (ht : session.cache.TakesEntries) (text : String) :
    (session.execute text).1 =
      Postfix.compile session.registry text >>= Evaluation.evaluate session.registry session.environment := by
  have hc := compile_fst h ht text
  have hr := compile_registry session text
  have hb := compile_bindings session text
  unfold execute
  split
  · rename_i fault next he
    rw [he] at hc
    rw [← hc]
    rfl
  · rename_i tokens next he
    rw [he] at hc hr hb
    dsimp only at hc hr hb
    rw [← hc, environment_eq_of_bindings_eq hb.symm, ← hr]
    rfl

/-! ## Sessions with different caches -/

/-- The sessions differ in nothing but their caches. -/
structure Agrees (session other : Session) : Prop where
  registry : session.registry = other.registry
  bindings : session.bindings = other.bindings

/-- Coherent sessions that differ in nothing but their caches answer a command alike, and again differ in nothing but
their caches. -/
theorem perform_agrees {other : Session} (h : session.Agrees other) (hs : session.Coherent) (ho : other.Coherent)
    (hst : session.cache.TakesEntries) (hot : other.cache.TakesEntries) (command : Command) :
    (session.perform command).1 = (other.perform command).1 ∧
      (session.perform command).2.Agrees (other.perform command).2 := by
  obtain ⟨registry, bindings, cache⟩ := session
  obtain ⟨_, _, other⟩ := other
  obtain ⟨rfl, rfl⟩ := h
  cases command with
  | execute text =>
    refine ⟨congrArg (·.map Answer.number) ((execute_fst hs hst text).trans (execute_fst ho hot text).symm), ?_⟩
    show (execute _ text).2.Agrees (execute _ text).2
    rw [execute_snd, execute_snd]
    exact ⟨by simp, by simp⟩
  | compile text =>
    refine ⟨congrArg (·.map Answer.tokens) ((compile_fst hs hst text).trans (compile_fst ho hot text).symm), ?_⟩
    exact ⟨by simp [perform], by simp [perform]⟩
  | setVariable name value =>
    simp only [perform, setVariable]
    split <;> exact ⟨rfl, rfl, rfl⟩
  | setVariables pairs clear =>
    obtain ⟨answer, last, he⟩ := setVariables_eq bindings pairs clear
    simp only [perform, he]
    exact ⟨rfl, rfl, rfl⟩
  | addOperator draft =>
    simp only [perform, addOperator]
    split <;> exact ⟨rfl, rfl, rfl⟩
  | addFunction name callable arity =>
    simp only [perform, addFunction]
    split
    · exact ⟨rfl, rfl, rfl⟩
    · split <;> exact ⟨rfl, rfl, rfl⟩
  | removeVariable name | removeVariables | setDivision raises | clearCache => exact ⟨rfl, rfl, rfl⟩

theorem run_agrees {other : Session} (h : session.Agrees other) (hs : session.Coherent) (ho : other.Coherent)
    (hst : session.cache.TakesEntries) (hot : other.cache.TakesEntries) (commands : List Command) :
    (session.run commands).1 = (other.run commands).1 := by
  induction commands generalizing session other with
  | nil => rfl
  | cons command commands ih =>
    obtain ⟨ha, hn⟩ := perform_agrees h hs ho hst hot command
    have hrest := ih hn (coherent_perform hs command) (coherent_perform ho command)
      (takesEntries_perform hst command) (takesEntries_perform hot command)
    rw [run_cons, run_cons, ha, hrest]

/-! ## Every run of a session -/

section Start

variable (settings : Settings) (capacity : Option Int) (raises : Option Bool)

theorem coherent_start : (start settings capacity raises).Coherent := by
  obtain ⟨bindings, h⟩ := start_eq settings raises
  rw [h]
  intro entry he
  cases he

theorem takesEntries_start (h : ∀ n ∈ capacity.or settings.cacheCapacity, 0 ≤ n) :
    (start settings capacity raises).cache.TakesEntries := by
  obtain ⟨bindings, hs⟩ := start_eq settings raises
  rw [hs]
  exact h

/-- What is known of every session that comes from a new one. -/
theorem coherent_run_start (h : ∀ n ∈ capacity.or settings.cacheCapacity, 0 ≤ n) (commands : List Command) :
    ((start settings capacity raises).run commands).2.Coherent ∧
      ((start settings capacity raises).run commands).2.cache.TakesEntries :=
  coherent_run (coherent_start settings capacity raises) (takesEntries_start settings capacity raises h) commands

/-- **The cache is transparent.** Behind any commands every text in the cache stands with the tokens that reading it
anew gives, so that texts are answered as if there were no cache; and sessions of different capacities give the same
answers to the same commands. -/
theorem cache_transparent (h : ∀ n ∈ capacity.or settings.cacheCapacity, 0 ≤ n) (commands : List Command) :
    let session := ((start settings capacity raises).run commands).2
    (∀ entry ∈ session.cache.entries, Postfix.compile session.registry entry.1 = .ok entry.2) ∧
    (∀ text, (session.compile text).1 = Postfix.compile session.registry text) ∧
    (∀ text, (session.execute text).1 =
      Postfix.compile session.registry text >>= Evaluation.evaluate session.registry session.environment) ∧
    ∀ other : Option Int, (∀ n ∈ other.or settings.cacheCapacity, 0 ≤ n) →
      ((start settings other raises).run commands).1 = ((start settings capacity raises).run commands).1 := by
  intro session
  obtain ⟨hc, ht⟩ := coherent_run_start settings capacity raises h commands
  refine ⟨hc, compile_fst hc ht, execute_fst hc ht, fun other ho => ?_⟩
  obtain ⟨bindings, hs⟩ := start_eq settings raises
  refine run_agrees ⟨?_, ?_⟩ (coherent_start settings other raises) (coherent_start settings capacity raises)
    (takesEntries_start settings other raises ho) (takesEntries_start settings capacity raises h) commands
  · rw [hs, hs]
  · rw [hs, hs]

end Start

/-- An operator is replaced between two looks at the same text. -/
def overriding : List Command :=
  [.execute "2*3+4", .addOperator ⟨"+", .int 5, .left, .add, 2⟩, .execute "2*3+4", .compile "2*(", .execute "7"]

theorem cache_transparent_overriding :
    (∀ n ∈ (some 1).or Settings.shipped.cacheCapacity, 0 ≤ n) ∧
    (∀ n ∈ (some 0).or Settings.shipped.cacheCapacity, 0 ≤ n) ∧
    let session := ((start .shipped (some 1) none).run overriding).2
    (∀ entry ∈ session.cache.entries, Postfix.compile session.registry entry.1 = .ok entry.2) ∧
    (session.compile "2*3+4").1 = Postfix.compile session.registry "2*3+4" ∧
    (session.execute "2*3+4").1 =
      Postfix.compile session.registry "2*3+4" >>= Evaluation.evaluate session.registry session.environment ∧
    ((start .shipped (some 0) none).run overriding).1 = ((start .shipped (some 1) none).run overriding).1 := by
  have one : ∀ n ∈ (some 1).or Settings.shipped.cacheCapacity, 0 ≤ n := by simp
  have zero : ∀ n ∈ (some 0).or Settings.shipped.cacheCapacity, 0 ≤ n := by simp
  obtain ⟨hentries, hcompile, hexecute, hother⟩ := cache_transparent .shipped (some 1) none one overriding
  exact ⟨one, zero, hentries, hcompile _, hexecute _, hother (some 0) zero⟩

end Session

end Formula

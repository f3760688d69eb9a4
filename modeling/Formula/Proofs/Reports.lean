import Formula.CommandLine.Report
import Formula.Proofs.CacheCoherence
import Formula.Proofs.StandardCallables

/-!
# Texts of a request are independent

What a request is told about a text follows from the text, the operators and functions and the variables alone
(`CommandLine.reportOn`), because every text leaves a coherent session that differs in nothing but its cache
(`CommandLine.runText_snd`). Under the standard registry every fault is reported (`CommandLine.exists_reportOn`). So
a request runs through, and its report is put together from those on its texts, each of them evaluated alone
(`CommandLine.run_independent`).
-/

namespace Formula

/-! ## Variables that are numbers -/

theorem mem_of_mem_mergePairs (pairs : List (String × Value)) : ∀ pair ∈ mergePairs pairs, pair ∈ pairs := by
  unfold mergePairs
  refine List.foldlRecOn (motive := fun merged => ∀ pair ∈ merged, pair ∈ pairs) pairs _ ?_ ?_
  · intro pair h
    cases h
  · intro merged hmerged first hfirst pair h
    split at h
    · obtain ⟨old, hold, rfl⟩ := List.mem_map.1 h
      split
      · exact hfirst
      · exact hmerged old hold
    · rcases List.mem_append.1 h with h | h
      · exact hmerged pair h
      · rw [List.mem_singleton.1 h]
        exact hfirst

namespace Session

theorem setEach_of_isNumeric (session : Session) {pairs : List (String × Value)}
    (h : ∀ pair ∈ pairs, pair.2.isNumeric = true) : (session.setEach pairs).1 = .ok () := by
  induction pairs generalizing session with
  | nil => rfl
  | cons pair pairs ih =>
    obtain ⟨hpair, hpairs⟩ := List.forall_mem_cons.1 h
    simp only [setEach, setVariable, hpair, if_true]
    exact ih _ hpairs

/-- Variables are given numbers without a fault. -/
theorem setVariables_of_isNumeric (session : Session) {pairs : List (String × Value)}
    (h : ∀ pair ∈ pairs, pair.2.isNumeric = true) (clear : Bool) : (session.setVariables pairs clear).1 = .ok () :=
  setEach_of_isNumeric _ fun pair hp => h pair (mem_of_mem_mergePairs pairs pair hp)

end Session

namespace CommandLine

/-! ## Reports put together -/

namespace Report

/-- Reports one after another. -/
def concat (reports : List Report) : Report := reports.foldr append empty

@[simp]
theorem concat_cons (report : Report) (reports : List Report) :
    concat (report :: reports) = report.append (concat reports) := rfl

theorem concat_singleton (report : Report) : concat [report] = report := by
  simp [concat, append, empty]

theorem events_concat (reports : List Report) : (concat reports).events = reports.flatMap Report.events := by
  induction reports with
  | nil => rfl
  | cons report reports ih => simp [append, ih]

theorem lines_concat (reports : List Report) : (concat reports).lines = reports.flatMap Report.lines := by
  rw [lines, events_concat, List.filterMap_flatMap]
  rfl

theorem messages_concat (reports : List Report) : (concat reports).messages = reports.flatMap Report.messages := by
  rw [messages, events_concat, List.filterMap_flatMap]
  rfl

theorem failed_concat (reports : List Report) : (concat reports).failed = reports.any Report.failed := by
  induction reports with
  | nil => rfl
  | cons report reports ih => simp [append, ih]

theorem status_eq_one {report : Report} : report.status = 1 ↔ report.failed = true := by
  unfold status
  split <;> simp [*]

end Report

/-! ## One text -/

/-- The report on a text, as it follows from the operators, the functions and the variables. -/
def reportOn (showPostfix : Bool) (registry : Registry) (environment : Evaluation.Environment) (text : String) :
    Except Fault Report :=
  match Postfix.compile registry text with
  | .error fault => reportFault [] text fault
  | .ok tokens =>
    let shown := if showPostfix then [postfixLine text tokens] else []
    match Evaluation.evaluate registry environment tokens with
    | .error fault => reportFault shown text fault
    | .ok value => .ok ⟨shown ++ [resultLine text value], false⟩

variable {session : Session}

theorem runResult_snd (before : List Event) (session : Session) (text : String) :
    (runResult before session text).2 = (session.compile text).2 := by
  rw [← Session.execute_snd]
  unfold runResult
  split <;> simp [*]

/-- What reading a text keeps, evaluating and reporting on a text keeps. -/
theorem runText_induct {P : Session → Prop} (read : ∀ session text, P session → P (session.compile text).2)
    (h : P session) (showPostfix : Bool) (text : String) : P (runText showPostfix session text).2 := by
  have hread := read session text h
  unfold runText
  split
  · split
    · rename_i tokens next he
      rw [he] at hread
      rw [runResult_snd]
      exact read next text hread
    · rename_i fault next he
      rw [he] at hread
      exact hread
  · rw [runResult_snd]
    exact hread

/-- A text leaves a coherent session that differs in nothing but its cache. -/
theorem runText_snd (hc : session.Coherent) (ht : session.cache.TakesEntries) (showPostfix : Bool) (text : String) :
    (runText showPostfix session text).2.Agrees session ∧ (runText showPostfix session text).2.Coherent ∧
      (runText showPostfix session text).2.cache.TakesEntries := by
  refine runText_induct (P := fun next => next.Agrees session ∧ next.Coherent ∧ next.cache.TakesEntries) ?_
    ⟨⟨rfl, rfl⟩, hc, ht⟩ showPostfix text
  rintro next text ⟨hagrees, hc, ht⟩
  refine ⟨⟨?_, ?_⟩, Session.coherent_compile hc text, Session.takesEntries_perform ht (.compile text)⟩
  · rw [Session.compile_registry, hagrees.registry]
  · rw [Session.compile_bindings, hagrees.bindings]

/-- What is said of a text after some events. -/
theorem runResult_fst (hc : session.Coherent) (ht : session.cache.TakesEntries) (before : List Event) (text : String) :
    (runResult before session text).1 =
      match Postfix.compile session.registry text >>= Evaluation.evaluate session.registry session.environment with
      | .error fault => reportFault before text fault
      | .ok value => .ok ⟨before ++ [resultLine text value], false⟩ := by
  rw [← Session.execute_fst hc ht]
  unfold runResult
  split <;> simp [*]

theorem runText_fst (hc : session.Coherent) (ht : session.cache.TakesEntries) (showPostfix : Bool) (text : String) :
    (runText showPostfix session text).1 = reportOn showPostfix session.registry session.environment text := by
  have hcompile := Session.compile_fst hc ht text
  unfold runText reportOn
  split
  · -- The tokens are shown, and then the text is read once more.
    split <;> rename_i next he
    · rw [he] at hcompile
      obtain rfl : (session.compile text).2 = next := by rw [he]
      rw [runResult_fst (Session.coherent_compile hc text) (Session.takesEntries_perform ht (.compile text)),
        Session.compile_registry, Session.environment_eq_of_bindings_eq (Session.compile_bindings session text),
        ← hcompile]
      rfl
    · rw [he] at hcompile
      rw [← hcompile]
  · rw [runResult_fst hc ht]
    cases Postfix.compile session.registry text <;> rfl

theorem exists_reportFault {fault : Fault} (h : fault.isLabelled) (before : List Event) (text : String) :
    ∃ report, reportFault before text fault = .ok report ∧ report.failed = true := by
  obtain ⟨label, hl⟩ := Option.isSome_iff_exists.1 h
  refine ⟨⟨before ++ [.message s!"{text}: {label}: {fault.message}"], true⟩, ?_, rfl⟩
  simp only [reportFault, hl]

/-- If callables refuse nothing but arguments and zero divisors, there is a report on every text. -/
theorem exists_reportOn {registry : Registry} (h : ∀ callable, registry.Registers callable → callable.Complains)
    (environment : Evaluation.Environment) (showPostfix : Bool) (text : String) :
    ∃ report, reportOn showPostfix registry environment text = .ok report ∧
      (report.failed = true ↔ ∃ fault, fault.isLabelled ∧
        Postfix.compile registry text >>= Evaluation.evaluate registry environment = .error fault) := by
  unfold reportOn
  cases hcompile : Postfix.compile registry text with
  | error fault =>
    have hl : fault.isLabelled := (Postfix.ofText_compile registry text fault hcompile).isLabelled
    obtain ⟨report, hreport, hfailed⟩ := exists_reportFault hl [] text
    exact ⟨report, hreport, iff_of_true hfailed ⟨fault, hl, rfl⟩⟩
  | ok tokens =>
    dsimp only
    cases hevaluate : Evaluation.evaluate registry environment tokens with
    | error fault =>
      have hl : fault.isLabelled := Registry.failsOnly_evaluate_of_complains h environment tokens fault hevaluate
      obtain ⟨report, hreport, hfailed⟩ := exists_reportFault hl _ text
      exact ⟨report, hreport, iff_of_true hfailed ⟨fault, hl, hevaluate⟩⟩
    | ok value =>
      refine ⟨_, rfl, iff_of_false (by simp) ?_⟩
      rintro ⟨fault, -, hfault⟩
      rw [show Evaluation.evaluate registry environment tokens = .error fault from hfault] at hevaluate
      cases hevaluate

/-! ## Texts one after another -/

/-- In a coherent session, texts are reported on one after another as on each of them by itself. -/
theorem runTexts_eq (hc : session.Coherent) (ht : session.cache.TakesEntries) {showPostfix : Bool}
    {alone : String → Report}
    (h : ∀ text, reportOn showPostfix session.registry session.environment text = .ok (alone text))
    (texts : List String) : runTexts showPostfix session texts = .ok (.concat (texts.map alone)) := by
  induction texts generalizing session with
  | nil => rfl
  | cons text texts ih =>
    obtain ⟨hagrees, hc', ht'⟩ := runText_snd hc ht showPostfix text
    have hrest := ih hc' ht' (by rwa [hagrees.registry, Session.environment_eq_of_bindings_eq hagrees.bindings])
    have hfirst := (runText_fst hc ht showPostfix text).trans (h text)
    show (runText showPostfix session text).1 >>= (fun report =>
      runTexts showPostfix (runText showPostfix session text).2 texts >>= fun rest => .ok (report.append rest)) = _
    rw [hfirst, hrest]
    rfl

/-! ## Requests -/

/-- The bindings of a request, as variables are given values. -/
def Request.variables (request : Request) : List (String × Value) :=
  request.bindings.map fun binding => (binding.name, .float binding.value)

theorem Request.ready_session (request : Request) :
    request.session.registry = .standard .shipped request.divisionRaises ∧ request.session.Coherent ∧
      request.session.cache.TakesEntries := by
  have hn : ∀ n ∈ (none : Option Int).or Settings.shipped.cacheCapacity, 0 ≤ n := by simp [Settings.shipped]
  refine ⟨?_, Session.coherent_run_start .shipped none (some request.divisionRaises) hn
    [.setVariables request.variables false]⟩
  obtain ⟨bindings, hs⟩ := Session.start_eq .shipped (some request.divisionRaises)
  obtain ⟨answer, last, hv⟩ := Session.setVariables_eq bindings request.variables false
  show (Session.setVariables _ request.variables false).2.registry = _
  rw [hs, hv]
  rfl

/-- **Texts of a request are independent.** The settings are accepted and the variables are given their numbers. Then
there is a report on every text alone, which has the status one just if the text fails, and with a fault of the
expression. The report of the request has all that is written for its texts one after another, in the output, in the
log and in both together, and the status one just if some text has it. -/
theorem run_independent (request : Request) :
    Settings.shipped.check = .ok () ∧
    (∀ session : Session, (session.setVariables standardVariables false).1 = .ok ()) ∧
    (∀ session : Session, (session.setVariables request.variables false).1 = .ok ()) ∧
    ∃ alone : String → Report,
      (∀ text, run { request with expressions := [text] } = .ok (alone text) ∧
        ((alone text).status = 1 ↔ ∃ fault, fault.isLabelled ∧ (request.session.execute text).1 = .error fault)) ∧
      ∃ report, run request = .ok report ∧
        report.events = request.expressions.flatMap (fun text => (alone text).events) ∧
        report.lines = request.expressions.flatMap (fun text => (alone text).lines) ∧
        report.messages = request.expressions.flatMap (fun text => (alone text).messages) ∧
        report.status = if ∃ text ∈ request.expressions, (alone text).status = 1 then 1 else 0 := by
  obtain ⟨hregistry, hc, ht⟩ := request.ready_session
  have hcomplains : ∀ callable, request.session.registry.Registers callable → callable.Complains := by
    rw [hregistry]
    exact fun callable => Registry.complains_of_registers
  obtain ⟨alone, halone⟩ := Classical.axiomOfChoice
    (exists_reportOn hcomplains request.session.environment request.showPostfix)
  have hruns : ∀ texts, run { request with expressions := texts } = .ok (.concat (texts.map alone)) :=
    runTexts_eq hc ht fun text => (halone text).1
  have hvariables : ∀ pair ∈ request.variables, pair.2.isNumeric = true := by
    simp [Request.variables, Value.isNumeric]
  refine ⟨rfl, fun session => session.setVariables_of_isNumeric (by simp [standardVariables, Value.isNumeric]) false,
    fun session => session.setVariables_of_isNumeric hvariables false, alone, fun text => ⟨?_, ?_⟩, _,
    hruns request.expressions, ?_, ?_, ?_, ?_⟩
  · rw [hruns, List.map_singleton, Report.concat_singleton]
  · rw [Report.status_eq_one, (halone text).2, Session.execute_fst hc ht]
  · rw [Report.events_concat, List.flatMap_map]
  · rw [Report.lines_concat, List.flatMap_map]
  · rw [Report.messages_concat, List.flatMap_map]
  · simp only [Report.status_eq_one]
    simp [Report.status, Report.failed_concat]

end CommandLine

end Formula

import DarkFactory.Runner.Scripts

namespace DarkFactory

def Store.checkpointEvents (store : Store) (attemptId : String) : List OutboxEvent :=
  store.outbox.filter fun event => event.causationId = some attemptId && event.payload.resultStatus = .waiting

def Store.outcomeEvents (store : Store) (attemptId : String) : List OutboxEvent :=
  store.outbox.filter fun event => event.causationId = some attemptId && event.payload.resultStatus ≠ .waiting

/-- The operation the advance would execute has a committed result, and one of the two observations does not
    resolve it. -/
structure Replays (input : AdvanceInput) (store : Store) (run : ChangeRun) (stage : Stage) (result : StageResult) :
    Prop where
  loaded : store.load input.runId = some run
  live : runTerminal run.status = false
  current : nextStage run = some stage
  committed : store.committedResult run.id stage (attemptNumberOf run stage) (pinnedRevision input run stage) =
    some result
  unresolved : resolvedWait result run stage input.change input.facts = none ∨
    resolvedWait result run stage input.change input.leasedFacts = none

theorem acquire_idle (resourceType resourceId ownerId : String) {store : Store} (idle : store.leases = [])
    (ttl : Int) (now : Timestamp) :
    ∃ leased, acquire resourceType resourceId ownerId ttl now store = .ok 1 leased ∧
      leased = { store with leases := leased.leases } ∧
      ∀ later : Store, later.leases = leased.leases →
        release resourceType resourceId ownerId 1 later = .ok true { later with leases := [] } := by
  let lease : ExecutionLease :=
    { resourceType, resourceId, ownerId, fencingToken := 1, acquiredAt := now, expiresAt := now + ttl,
      heartbeatAt := now }
  refine ⟨{ store with leases := [lease] }, ?_, rfl, ?_⟩
  · simp [acquire, Outcome.perform, Store.lease, Table.find, Table.insertNew, idle, lease]
  · intro later only
    simp [release, Outcome.perform, Store.lease, Table.find, Table.delete, ExecutionLease.key, only, lease]

theorem advanceableRun_eq {runId : String} {store : Store} {run : ChangeRun}
    (loaded : store.load runId = some run) (live : runTerminal run.status = false) :
    advanceableRun runId store = .ok run store := by
  rw [advanceableRun, Outcome.state_get_bind, loaded]
  simp only [live, Bool.false_eq_true, ↓reduceIte]
  rfl

theorem nextStageToExecute_eq {store : Store} {run : ChangeRun} {stage : Stage}
    (current : nextStage run = some stage) : nextStageToExecute run store = .ok stage store := by
  rw [nextStageToExecute, current]
  rfl

/-- Without a lease in the table a replay writes nothing, whether it is decided before the lease or under it. -/
theorem Replays.inert {input : AdvanceInput} {store : Store} {run : ChangeRun} {stage : Stage}
    {result : StageResult} (replays : Replays input store run stage result) (idle : store.leases = []) :
    advanceRun input store = .ok (replay result stage) store := by
  obtain ⟨loaded, live, current, committed, unresolved⟩ := replays
  rw [advanceRun, Outcome.state_bind_eq (advanceableRun_eq loaded live),
    Outcome.state_bind_eq (nextStageToExecute_eq current), Outcome.state_get_bind, committed, Option.filter_some]
  cases early : resolvedWait result run stage input.change input.facts with
  | none => rfl
  | some resolver =>
    have waits : resolvedWait result run stage input.change input.leasedFacts = none := by
      rcases unresolved with unresolved | unresolved
      · rw [early] at unresolved
        cases unresolved
      · exact unresolved
    simp only [Option.isNone_some, Bool.false_eq_true, ↓reduceIte]
    obtain ⟨leased, taken, leasedEq, freed⟩ := acquire_idle leaseResourceType run.id input.ownerId idle
      input.leaseTtl input.leasedAt
    have reloaded : leased.load input.runId = some run := by
      rw [leasedEq]
      exact loaded
    have again : leased.committedResult run.id stage (attemptNumberOf run stage) (pinnedRevision input run stage) =
        some result := by
      rw [leasedEq]
      exact committed
    have restored : { leased with leases := [] } = store := by
      rw [leasedEq, ← idle]
    rw [advanceLeased, Outcome.state_bind_eq taken, Outcome.state_bind_eq (advanceableRun_eq reloaded live),
      Outcome.state_bind_eq (nextStageToExecute_eq current), Outcome.state_get_bind, again]
    dsimp only
    rw [waits]
    dsimp only
    rw [Outcome.state_bind_eq (freed leased rfl), restored]
    rfl

/-- The id of the event is made of the attempt it completes, with a status added for the outcome of a checkpoint. -/
structure OutboxEvent.NamedBy (event : OutboxEvent) (attemptId : String) (supersedes : Option StageStatus) : Prop where
  causation : event.causationId = some attemptId
  eventId : event.eventId = stageCompletedEventId attemptId supersedes
  outcome : supersedes ≠ none → event.payload.resultStatus ≠ .waiting

/-- The lease table is empty between transactions, and the outbox has one event for each result: that of the
    checkpoint while the attempt is parked, that of the outcome after. -/
structure Published (store : Store) : Prop where
  wellFormed : WellFormed store
  idle : store.leases = []
  eventsUnique : Table.Unique OutboxEvent.eventId store.outbox
  checkpoints : ∀ id, (store.checkpointEvents id).length ≤ 1
  outcomes : ∀ id, (store.outcomeEvents id).length ≤ 1
  recorded : ∀ event ∈ store.outbox, ∃ row ∈ store.results, event.causationId = some row.id ∧
    (event.payload.resultStatus ≠ .waiting → row.status ≠ .waiting)
  named : ∀ event ∈ store.outbox, ∃ attemptId supersedes, event.NamedBy attemptId supersedes

theorem Published.empty : Published {} :=
  ⟨WellFormed.empty, rfl, Table.Unique.nil, fun _ => Nat.zero_le _, fun _ => Nat.zero_le _, by simp, by simp⟩

section Steps

variable {input : AdvanceInput} {before after : Store} {report : RunAdvance} {attempt : Attempted} {row : StageRow}
  {trace : AdvanceTrace}

theorem AdvanceSteps.publishes (steps : AdvanceSteps input before after report attempt row trace)
    (wf : WellFormed before) (idle : before.leases = []) :
    after.leases = [] ∧ ∃ event, after.outbox = before.outbox ++ [event] ∧
      Table.find OutboxEvent.eventId event.eventId before.outbox = none ∧
      (∃ supersedes, event.NamedBy (resultRow attempt.result).id supersedes) ∧
      event.payload.resultStatus = attempt.result.status := by
  obtain ⟨-, -, openingEq⟩ := steps.opened wf
  have runId : attempt.run.id = input.runId := (load_some steps.loaded).choose_spec.2.1
  obtain ⟨leased, taken, leasedEq, freed⟩ := acquire_idle leaseResourceType attempt.run.id input.ownerId idle
    input.leaseTtl input.leasedAt
  have acquired := steps.acquired
  rw [taken] at acquired
  obtain ⟨token, sameLeased⟩ := EStateM.Result.ok.inj acquired
  rw [← sameLeased] at openingEq
  obtain ⟨writes, written, released, leads, releasing⟩ := steps.leads wf
  obtain ⟨leases, event, appended, absent, eventId, causation, status⟩ := leads.publishes
  have opened : trace.opening.leases = leased.leases ∧ trace.opening.outbox = before.outbox := by
    rw [openingEq, leasedEq]
    exact ⟨rfl, rfl⟩
  rw [steps.final_id, ← runId, ← token, freed written (leases.trans opened.1)] at releasing
  obtain ⟨-, rfl⟩ := EStateM.Result.ok.inj releasing
  rw [opened.2] at appended absent
  rw [steps.attemptId_eq wf] at eventId causation
  refine ⟨rfl, event, appended, absent, ⟨_, causation, eventId, ?_⟩, status⟩
  intro resolves
  rw [status]
  by_cases superseded : writes.outcome = .superseded
  · have recording := leads.recording
    rw [superseded] at recording
    exact (recordOutcome_ok recording).2.1
  · exact absurd (if_neg superseded) resolves

end Steps

section Counting

variable {store after : Store} {event : OutboxEvent} {id : String}

theorem checkpointEvents_snoc (appended : after.outbox = store.outbox ++ [event]) :
    after.checkpointEvents id = store.checkpointEvents id ++
      if event.causationId = some id ∧ event.payload.resultStatus = .waiting then [event] else [] := by
  simp [Store.checkpointEvents, appended, List.filter_append, List.filter_singleton]

theorem outcomeEvents_snoc (appended : after.outbox = store.outbox ++ [event]) :
    after.outcomeEvents id = store.outcomeEvents id ++
      if event.causationId = some id ∧ event.payload.resultStatus ≠ .waiting then [event] else [] := by
  simp [Store.outcomeEvents, appended, List.filter_append, List.filter_singleton]

theorem Published.no_checkpoint (published : Published store) (absent : ∀ row ∈ store.results, row.id ≠ id) :
    store.checkpointEvents id = [] := by
  rw [Store.checkpointEvents, List.filter_eq_nil_iff]
  intro event member matched
  obtain ⟨row, held, causation, -⟩ := published.recorded event member
  simp only [causation, Option.some.injEq, Bool.and_eq_true, decide_eq_true_eq] at matched
  exact absent row held matched.1

theorem Published.no_outcome (published : Published store)
    (parked : ∀ row ∈ store.results, row.id = id → row.status = .waiting) : store.outcomeEvents id = [] := by
  rw [Store.outcomeEvents, List.filter_eq_nil_iff]
  intro event member matched
  obtain ⟨row, held, causation, final⟩ := published.recorded event member
  simp only [causation, Option.some.injEq, Bool.and_eq_true, decide_eq_true_eq] at matched
  exact final matched.2 (parked row held matched.1)

end Counting

section Steps

variable {input : AdvanceInput} {before after : Store} {report : RunAdvance} {attempt : Attempted} {row : StageRow}
  {trace : AdvanceTrace}

/-- The result that is there when a decision is recorded is a checkpoint, and the decision is its outcome. -/
theorem AdvanceSteps.parked (steps : AdvanceSteps input before after report attempt row trace)
    (wf : WellFormed before) {held : StageResultRow} (member : held ∈ before.results)
    (same : held.id = (resultRow attempt.result).id) :
    held.status = .waiting ∧ attempt.result.status ≠ .waiting := by
  obtain ⟨reached, effect, -⟩ := steps.effect wf
  obtain ⟨outcome, noted, recording, kept, -⟩ := effect.recording
  have guard := (recordOutcome_ok recording).2
  cases outcome with
  | replayed => exact absurd rfl kept
  | stored => exact absurd same (Table.find_none.mp guard held member)
  | superseded =>
    obtain ⟨final, row, found, waiting⟩ := guard
    obtain ⟨there, here⟩ := Table.find_some found
    rw [wf.resultsUnique.eq member there (same.trans here.symm)]
    exact ⟨waiting, final⟩

theorem AdvanceSteps.published (steps : AdvanceSteps input before after report attempt row trace)
    (published : Published before) : Published after := by
  have wf := published.wellFormed
  obtain ⟨reached, effect, -⟩ := steps.effect wf
  obtain ⟨idle, event, appended, absent, ⟨supersedes, named⟩, status⟩ := steps.publishes wf published.idle
  have causation := named.causation
  have results := effect.results wf
  constructor
  · exact effect.wellFormed wf
  · exact idle
  · have unique : Table.Unique OutboxEvent.eventId (Table.insertNew OutboxEvent.eventId event before.outbox) :=
      published.eventsUnique.insertNew
    rw [Table.insertNew, absent] at unique
    rw [appended]
    exact unique
  · intro id
    rw [checkpointEvents_snoc appended]
    by_cases own : event.causationId = some id ∧ event.payload.resultStatus = .waiting
    · rw [if_pos own, published.no_checkpoint]
      · simp
      · intro held member same
        rw [causation, Option.some.injEq] at own
        rw [status] at own
        exact (steps.parked wf member (same.trans own.1.symm)).2 own.2
    · rw [if_neg own, List.append_nil]
      exact published.checkpoints id
  · intro id
    rw [outcomeEvents_snoc appended]
    by_cases own : event.causationId = some id ∧ event.payload.resultStatus ≠ .waiting
    · rw [if_pos own, published.no_outcome]
      · simp
      · intro held member same
        rw [causation, Option.some.injEq] at own
        exact (steps.parked wf member (same.trans own.1.symm)).1
    · rw [if_neg own, List.append_nil]
      exact published.outcomes id
  · intro item member
    rw [appended, List.mem_append, List.mem_singleton] at member
    rcases member with earlier | rfl
    · obtain ⟨held, there, named, final⟩ := published.recorded item earlier
      by_cases same : held.id = (resultRow attempt.result).id
      · refine ⟨resultRow attempt.result, (results _).mpr (Or.inr rfl), by rw [named, same], ?_⟩
        intro _
        exact (steps.parked wf there same).2
      · exact ⟨held, (results held).mpr (Or.inl ⟨there, same⟩), named, final⟩
    · refine ⟨resultRow attempt.result, (results _).mpr (Or.inr rfl), causation, ?_⟩
      rw [status]
      exact id
  · intro item member
    rw [appended, List.mem_append, List.mem_singleton] at member
    rcases member with earlier | rfl
    · exact published.named item earlier
    · exact ⟨_, supersedes, named⟩

end Steps

theorem createRun_quiet {input : CreateInput} {before after : Store} {run : ChangeRun}
    (done : createRun input before = .ok run after) :
    after = { before with executions := after.executions, stages := after.stages } := by
  rcases createRun_writes done with rfl | ⟨-, row, creating⟩
  · rfl
  · rw [(getOrCreateStage_ok creating).1]

/-- With no lease in the table an advance leaves the store as it is, or goes through the steps of a decision. -/
theorem advanceRun_idle {input : AdvanceInput} {before after : Store} {report : RunAdvance} (wf : WellFormed before)
    (idle : before.leases = []) (faithful : Faithful input) (done : advanceRun input before = .ok report after) :
    after = before ∨ ∃ attempt row trace, AdvanceSteps input before after report attempt row trace := by
  rcases advanceRun_steps wf faithful done with ⟨-, same | ⟨token, leased, released, acquired, releasing⟩⟩ | steps
  · exact Or.inl same
  · obtain ⟨taken, takes, takenEq, freed⟩ := acquire_idle leaseResourceType input.runId input.ownerId idle
      input.leaseTtl input.leasedAt
    rw [takes] at acquired
    obtain ⟨rfl, rfl⟩ := EStateM.Result.ok.inj acquired
    rw [freed taken rfl] at releasing
    obtain ⟨-, left⟩ := EStateM.Result.ok.inj releasing
    rw [takenEq, ← idle] at left
    exact Or.inl left.symm
  · exact Or.inr steps

theorem Published.frame {before after : Store} (published : Published before) (wf : WellFormed after)
    (leases : after.leases = before.leases) (outbox : after.outbox = before.outbox)
    (results : after.results = before.results) : Published after := by
  constructor
  · exact wf
  · rw [leases]
    exact published.idle
  · rw [outbox]
    exact published.eventsUnique
  · intro id
    rw [Store.checkpointEvents, outbox]
    exact published.checkpoints id
  · intro id
    rw [Store.outcomeEvents, outbox]
    exact published.outcomes id
  · rw [outbox, results]
    exact published.recorded
  · rw [outbox]
    exact published.named

theorem afterDrive_published {before : Store} (drive : Drive) (published : Published before)
    (faithful : drive.faithful) : Published (afterDrive before drive) := by
  have wf := published.wellFormed
  have sound := afterDrive_wellFormed wf drive faithful
  cases drive with
  | create input =>
    rcases afterDrive_create input before with same | ⟨run, creating⟩
    · rw [same]
      exact published
    · have quiet := createRun_quiet creating
      exact published.frame sound (by rw [quiet]) (by rw [quiet]) (by rw [quiet])
  | advance input =>
    rcases afterDrive_advance input before with same | ⟨report, advancing⟩
    · rw [same]
      exact published
    rcases advanceRun_idle wf published.idle faithful advancing with same | ⟨attempt, row, trace, steps⟩
    · rw [same]
      exact published
    · exact steps.published published

theorem driven_published {drives : List Drive} (faithful : ∀ drive ∈ drives, drive.faithful) :
    Published (driven drives) := by
  have along : Trace.Along afterDrive (fun _ drive => drive.faithful) {} drives :=
    Trace.along_of_forall fun drive member _ => faithful drive member
  exact Trace.invariant (fun _ drive held met => afterDrive_published drive held met) Published.empty along

/-- The store after any creations and faithful advances. A repeat of an operation that has its result returns
    it and leaves the store as it is, with no lease in it; and the outbox has at most one event for the checkpoint
    of an attempt and one for its outcome, all under different ids. -/
theorem replays_inert_events_once {drives : List Drive} (faithful : ∀ drive ∈ drives, drive.faithful) :
    (∀ input run stage result, Replays input (driven drives) run stage result →
      advanceRun input (driven drives) = .ok (replay result stage) (driven drives) ∧
        (driven drives).lease leaseResourceType input.runId = none) ∧
    (∀ id, ((driven drives).checkpointEvents id).length ≤ 1 ∧ ((driven drives).outcomeEvents id).length ≤ 1) ∧
    ((driven drives).outbox.map (·.eventId)).Nodup := by
  have published := driven_published faithful
  refine ⟨?_, fun id => ⟨published.checkpoints id, published.outcomes id⟩, published.eventsUnique⟩
  intro input run stage result replays
  refine ⟨replays.inert published.idle, ?_⟩
  rw [Store.lease, published.idle]
  rfl

def specificationParked (at_ : Timestamp) : AdvanceInput :=
  scripted quickRun.runId at_ "c1" { status := .waiting, nextAction := .waitForInput "waiting for the approval" }

/-- The parked specification replays its checkpoint until the approval is observed. -/
theorem parked_specification_replays :
    ∃ run result, Replays (specificationParked 2) (driven [.create quickRun, .advance (specificationParked 1)]) run
        .specification result ∧ result.status = .waiting ∧
      advanceRun (specificationParked 2) (driven [.create quickRun, .advance (specificationParked 1)]) =
        .ok (replay result .specification) (driven [.create quickRun, .advance (specificationParked 1)]) := by
  have faithful : ∀ drive ∈ [Drive.create quickRun, .advance (specificationParked 1)], drive.faithful := by
    simp only [List.forall_mem_cons, List.not_mem_nil, false_implies, implies_true, and_true]
    exact ⟨trivial, scripted_faithful _ _ _ _⟩
  have parked : ((driven [.create quickRun, .advance (specificationParked 1)]).load quickRun.runId).bind (fun run =>
      ((driven [.create quickRun, .advance (specificationParked 1)]).committedResult run.id .specification
        (attemptNumberOf run .specification) (pinnedRevision (specificationParked 2) run .specification)).map
          fun result => (runTerminal run.status, nextStage run, result.status)) =
        some (false, some .specification, .waiting) := by decide +kernel
  obtain ⟨run, loaded, there⟩ := Option.bind_eq_some_iff.mp parked
  obtain ⟨result, committed, facts⟩ := Option.map_eq_some_iff.mp there
  simp only [Prod.mk.injEq] at facts
  obtain ⟨live, current, waiting⟩ := facts
  have replays : Replays (specificationParked 2) (driven [.create quickRun, .advance (specificationParked 1)]) run
      .specification result :=
    ⟨loaded, live, current, committed, Or.inl (resolvedWait_without_facts _ _ _ _)⟩
  exact ⟨run, result, replays, waiting, ((replays_inert_events_once faithful).1 _ _ _ _ replays).1⟩

end DarkFactory

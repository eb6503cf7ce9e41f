import DarkFactory.Stages.Agreement

namespace DarkFactory

structure PhaseFacts where
  decisions : List Decision
  revisions : Phase → Option String

def currentRevisionOf (facts : PhaseFacts) (artifacts : Bool) (stage : Stage) (headSha : Option String)
    (decision : Decision) : Option String :=
  let decided := decisionPhase decision
  if stage = .specification && designPhases.contains decided &&
      ((facts.revisions decided).isSome || artifacts) then
    facts.revisions decided
  else headSha

def storeDecision (facts : PhaseFacts) (artifacts : Bool) (stage : Stage) (headSha : Option String)
    (decision : Decision) : Bool :=
  decision.outcome = .waived ||
    (decision.commitSha.isSome && decision.commitSha = currentRevisionOf facts artifacts stage headSha decision)

def waitingPhaseOf (history : List StageResult) (stage : Stage) : Option Phase :=
  match history.reverse.find? (·.stage = stage) with
  | some result => if result.status = .waiting then result.phase else none
  | none => none

/-- The round the parked attempt belongs to: the phase its checkpoint names, else the first one that
    is not settled. -/
def waitingRound (route : Route) (facts : PhaseFacts) (stage : Stage) (history : List StageResult) :
    Option Phase :=
  if stage = .specification then
    some ((waitingPhaseOf history stage).getD (specificationPhase route facts.decisions facts.revisions))
  else none

/-- The provider's observation with the decisions, the rounds and the rework orders of the store. -/
def withStoreFacts (observation : GateObservation) (facts : PhaseFacts) (artifacts : Bool) (stage : Stage)
    (route : Route) (history : List StageResult) (orders : Phase → List ReworkOrder) : GateObservation :=
  let phase := waitingRound route facts stage history
  { headSha := observation.headSha
    merged := observation.merged
    pipelineStatus := observation.pipelineStatus
    approvals := observation.approvals ++
      facts.decisions.filter (storeDecision facts artifacts stage observation.headSha)
    reworkOrders := orders (phase.getD (stagePhase stage))
    phase
    nextPhase := phase.bind (nextSpecificationPhase route) }

/-- Every required phase carries a human approval bound to the current revision of its artifacts. -/
def PhasesApproved (route : Route) (facts : PhaseFacts) : Prop :=
  ∀ phase ∈ specificationPhases route, ∃ decision ∈ phaseDecisions facts.decisions phase,
    decision.decidedBy = .human ∧ decision.outcome = .approved ∧
      revisionState decision.commitSha (facts.revisions phase) = .current

/-- The revision the control points of the specification stage are checked at. -/
def designSha (human : Finset Gate) (observation : GateObservation) (attempt : WaitingAttempt) : Option String :=
  let reason := humanReason observation
  if (sortedGates human).any (fun gate => (humanGateResult gate observation reason).status = .passed) then
    shaOr observation.headSha (some attempt.inputRevision)
  else some attempt.inputRevision

def designAdvances (run : ChangeRun) (observation : GateObservation) (attempt : WaitingAttempt)
    (decisions : List Decision) : Prop :=
  let human := requiredHumanGates run.route .specification (riskClassOf run)
  (observation.merged = true ∨ pendingReworkOrder observation = none) ∧
    routeAllowsRisk run.route (riskClassOf run) = true ∧
    continuationViolations run.budget attempt.now = [] ∧
    autonomyBudgetReason run = none ∧
    ∀ gate ∈ human, (decisions ++ observation.approvals).any
      (approvesAt (designSha human observation attempt) gate) = true

theorem specification_human (route : Route) (riskClass : RiskClass) :
    requiredHumanGates route .specification riskClass = requiredGates route .specification := by
  cases route <;> cases riskClass <;> decide

theorem specification_purely_human (route : Route) (riskClass : RiskClass) :
    isPurelyHumanGated route .specification riskClass = true := by
  cases route <;> cases riskClass <;> decide

theorem specification_next (route : Route) :
    (routeProfile route).nextStage .specification = some .planning := by
  cases route <;> rfl

theorem specification_controlPoints (route : Route) (riskClass : RiskClass) (accepted : Gate → Prop) :
    (∀ point ∈ requiredControlPoints route .specification riskClass, accepted (controlPointBinding point).gate) ↔
      ∀ gate ∈ requiredHumanGates route .specification riskClass, accepted gate := by
  have points : (requiredControlPoints route .specification riskClass).map (fun point =>
      (controlPointBinding point).gate) =
        sortedGates (requiredHumanGates route .specification riskClass) := by
    cases route <;> cases riskClass <;> decide
  simp only [← mem_sortedGates, ← points, List.mem_map, forall_exists_index, and_imp,
    forall_apply_eq_imp_iff₂]

theorem phase_gate_human {route : Route} {phase : Phase} {gate : Gate} (riskClass : RiskClass)
    (required : phase ∈ specificationPhases route) (own : gateOfPhase phase = some gate) :
    gate ∈ requiredHumanGates route .specification riskClass := by
  revert required own
  rw [specification_human]
  cases route <;> cases phase <;> cases gate <;> decide

theorem phase_design {route : Route} {phase : Phase} (required : phase ∈ specificationPhases route) :
    designPhases.contains phase = true := by
  revert required
  cases route <;> cases phase <;> decide

theorem last_round (route : Route) :
    ∃ phase gate, (specificationPhases route).getLast? = some phase ∧ phase ∈ specificationPhases route ∧
      gateOfPhase phase = some gate ∧ nextSpecificationPhase route phase = none := by
  cases route with
  | quick => exact ⟨.architecture, .specification, by decide⟩
  | standard | architecture | foundation => exact ⟨.interface, .ui, by decide⟩

section Round

variable {run : ChangeRun} {facts : PhaseFacts} {observation : GateObservation} {attempt : WaitingAttempt}
  {history : List StageResult} {orders : Phase → List ReworkOrder}

theorem storeDecision_current {route : Route} {phase : Phase} {decision : Decision}
    (required : phase ∈ specificationPhases route) (own : decisionPhase decision = phase)
    (current : revisionState decision.commitSha (facts.revisions phase) = .current) (headSha : Option String) :
    storeDecision facts true .specification headSha decision = true := by
  have design := phase_design required
  subst own
  simp only [storeDecision, currentRevisionOf, design, decide_true, Bool.or_true, Bool.and_self, ↓reduceIte]
  obtain ⟨revision, bound, known⟩ := revisionState_current.mp current
  simp [bound, known]

theorem settling_last_round {phase : Phase} {gate : Gate} {observed : GateObservation}
    {headSha : Option String} (riskClass : RiskClass)
    (approved : PhasesApproved run.route facts) (required : phase ∈ specificationPhases run.route)
    (own : gateOfPhase phase = some gate) (round : observed.phase = some phase)
    (folded : ∀ decision ∈ facts.decisions,
      storeDecision facts true .specification headSha decision = true → decision ∈ observed.approvals) :
    (settlingDecision observed (requiredHumanGates run.route .specification riskClass)).isSome = true := by
  obtain ⟨decision, listed, -, outcome, current⟩ := approved phase required
  simp only [phaseDecisions, own, List.mem_filter, Bool.and_eq_true, decide_eq_true_eq] at listed
  obtain ⟨recorded, onGate, ofPhase⟩ := listed
  have present := folded decision recorded (storeDecision_current required ofPhase current headSha)
  simp only [settlingDecision, List.find?_isSome, List.mem_reverse]
  refine ⟨decision, present, ?_⟩
  simp [outcome, onGate, phase_gate_human riskClass required own, round, ofPhase]

theorem withStoreFacts_resolved (approved : PhasesApproved run.route facts)
    (last : waitingRound run.route facts .specification history = (specificationPhases run.route).getLast?) :
    gateResolved (some (withStoreFacts observation facts true .specification run.route history orders))
      .specification run.route (riskClassOf run) = true := by
  obtain ⟨phase, gate, final, required, own, -⟩ := last_round run.route
  have settled : (settlingDecision (withStoreFacts observation facts true .specification run.route history
      orders) (requiredHumanGates run.route .specification (riskClassOf run))).isSome = true := by
    apply settling_last_round _ approved required own (last.trans final)
    intro decision recorded (kept : storeDecision facts true .specification observation.headSha decision = true)
    simp [withStoreFacts, recorded, kept]
  simp [gateResolved, specification_purely_human, settled]

def designResult (run : ChangeRun) (observed : GateObservation) (attempt : WaitingAttempt) : StageResult :=
  let human := requiredHumanGates run.route .specification (riskClassOf run)
  { attemptResult run .specification attempt .succeeded (.executeStage .planning (some (humanReason observed)))
    with
    gateResults := (sortedGates human).map (humanGateResult · observed (humanReason observed))
    phase := observed.phase }

theorem resolveHumanGated_last {observed : GateObservation} (ended : observed.nextPhase = none)
    (unordered : observed.merged = true ∨ pendingReworkOrder observed = none) :
    resolveHumanGated run .specification observed attempt (riskClassOf run) =
      .ok { result := designResult run observed attempt, mergeContext := none } := by
  have ordered : (!observed.merged && (pendingReworkOrder observed).isSome) = false := by
    rcases unordered with merged | none
    · simp [merged]
    · simp [none]
  simp only [resolveHumanGated, ordered, Bool.false_eq_true, ↓reduceIte, specification_next, ended]
  split
  · rename_i impossible
    cases impossible
  · rfl

theorem humanGateResult_satisfied (gate : Gate) (observed : GateObservation) (reason : String) :
    gateSatisfied (humanGateResult gate observed reason).status = true := by
  simp only [humanGateResult]
  split <;> rfl

theorem humanGateResult_gate (gate : Gate) (observed : GateObservation) (reason : String) :
    (humanGateResult gate observed reason).gate = gate := by
  simp only [humanGateResult]
  split <;> rfl

theorem humanGateResult_sha (gate : Gate) (observed : GateObservation) (reason : String) :
    (humanGateResult gate observed reason).sha = observed.headSha := by
  simp only [humanGateResult]
  split <;> rfl

theorem designResult_gates (observed : GateObservation) :
    unsatisfiedGates run.route .specification (designResult run observed attempt).gateResults = [] := by
  rw [unsatisfiedGates_empty]
  intro gate required
  rw [← specification_human run.route (riskClassOf run), ← mem_sortedGates] at required
  refine gateOpen_of_satisfied ?_ (List.mem_map_of_mem required) (humanGateResult_gate _ _ _)
  intro item member
  obtain ⟨found, -, rfl⟩ := List.mem_map.mp member
  exact humanGateResult_satisfied _ _ _

theorem designResult_sha {current : ChangeRun} (same : SameTerms run current) (observed : GateObservation) :
    controlPointSha current (designResult run observed attempt) =
      designSha (requiredHumanGates run.route .specification (riskClassOf run)) observed attempt := by
  simp only [controlPointSha, same.route, same.riskClass, designSha]
  split
  · rename_i item found
    obtain ⟨gate, listed, rfl⟩ := List.mem_map.mp (List.mem_of_find?_eq_some found)
    have passed := List.find?_some found
    simp only [Bool.and_eq_true, decide_eq_true_eq] at passed
    have some_passed : (sortedGates (requiredHumanGates run.route .specification (riskClassOf run))).any
        (fun gate => (humanGateResult gate observed (humanReason observed)).status = .passed) = true :=
      List.any_eq_true.mpr ⟨gate, listed, by simpa using passed.2⟩
    rw [if_pos some_passed, humanGateResult_sha]
    rfl
  · rename_i absent
    have none_passed : ¬ (sortedGates (requiredHumanGates run.route .specification (riskClassOf run))).any
        (fun gate => (humanGateResult gate observed (humanReason observed)).status = .passed) = true := by
      intro some_passed
      obtain ⟨gate, listed, passed⟩ := List.any_eq_true.mp some_passed
      have refused := List.find?_eq_none.mp absent _ (List.mem_map_of_mem listed)
      rw [humanGateResult_gate] at refused
      have human := (mem_sortedGates _ _).mp listed
      simp only [decide_eq_true_eq] at passed
      exact refused (by simp [designResult, attemptResult, human, passed])
    rw [if_neg none_passed]
    rfl

theorem designVerdict {current : ChangeRun} (same : SameTerms run current)
    (risky : isR2OrHigher (riskClassOf run) = true) (observed : GateObservation) (decisions : List Decision) :
    (∃ reached, executeVerdict current (designResult run observed attempt) .planning attempt.now decisions =
        .ok reached ∧ reached.nextStage = some .planning) ↔
      routeAllowsRisk run.route (riskClassOf run) = true ∧ continuationViolations run.budget attempt.now = [] ∧
        autonomyBudgetReason run = none ∧
        ∀ gate ∈ requiredHumanGates run.route .specification (riskClassOf run),
          decisions.any (approvesAt (designSha (requiredHumanGates run.route .specification (riskClassOf run))
            observed attempt) gate) = true := by
  have stopped : firstStopReason [blockReason current .specification
        (designResult run observed attempt).gateResults attempt.now,
      escalationReason current (designResult run observed attempt) decisions] = none ↔
      continuationViolations run.budget attempt.now = [] ∧ routeAllowsRisk run.route (riskClassOf run) = true ∧
        (∀ gate ∈ requiredHumanGates run.route .specification (riskClassOf run),
          decisions.any (approvesAt (designSha (requiredHumanGates run.route .specification (riskClassOf run))
            observed attempt) gate) = true) ∧ autonomyBudgetReason run = none := by
    have escalations : (designResult run observed attempt).escalations = [] := rfl
    have stage : (designResult run observed attempt).stage = .specification := rfl
    have autonomy : autonomyBudgetReason current = autonomyBudgetReason run := by
      simp [autonomyBudgetReason, same.contract, same.stages]
    simp only [firstStopReason_none, List.mem_cons, List.not_mem_nil, or_false, forall_eq_or_imp, forall_eq,
      blockReason_none, escalationReason_none, riskEscalationViolation_none, missingControlPoints_empty,
      same.route, same.riskClass, same.budget, risky, forall_const, designResult_gates, designResult_sha same,
      escalations, stage, autonomy, true_and, and_assoc]
    rw [specification_controlPoints run.route (riskClassOf run) (fun gate => decisions.any (approvesAt (designSha
      (requiredHumanGates run.route .specification (riskClassOf run)) observed attempt) gate) = true)]
  have next : (routeProfile current.route).nextStage .specification = some .planning := specification_next _
  have stage : (designResult run observed attempt).stage = .specification := rfl
  simp only [executeVerdict, stage, next, ne_eq, not_true_eq_false, ↓reduceIte]
  by_cases free : firstStopReason [blockReason current .specification
        (designResult run observed attempt).gateResults attempt.now,
      escalationReason current (designResult run observed attempt) decisions] = none
  · obtain ⟨funded, allowed, points, autonomy⟩ := stopped.mp free
    simp only [free]
    exact ⟨fun _ => ⟨allowed, funded, autonomy, points⟩, fun _ => ⟨_, rfl, rfl⟩⟩
  · obtain ⟨reason, found⟩ := Option.ne_none_iff_exists'.mp free
    simp only [found, Except.ok.injEq, exists_eq_left', Verdict.blocked, reduceCtorEq, false_iff, not_and]
    intro allowed funded autonomy points
    exact free (stopped.mpr ⟨funded, allowed, points, autonomy⟩)

theorem planResult_action {stage : Stage} {plan : ReworkDecision} {result : StageResult}
    (made : planResult run stage attempt plan = .ok result) :
    result.stage = stage ∧
      ((∃ reason, result.nextAction = .stop .blocked reason) ∨ ∃ action, result.nextAction = .rework action) := by
  unfold planResult at made
  cases outcome : plan.outcome with
  | blocked =>
    simp only [outcome, Except.ok.injEq] at made
    subst made
    exact ⟨rfl, Or.inl ⟨plan.reason, rfl⟩⟩
  | rework =>
    simp only [outcome] at made
    obtain ⟨action, -, rest⟩ := Outcome.bind_ok.mp made
    cases rest
    exact ⟨rfl, Or.inr ⟨action, rfl⟩⟩

theorem resolveReworkOrder_stays {observed : GateObservation} {resolution : GateResolution}
    {context : Option MergeRequestContext} {decisions : List Decision} {decision : FlowDecision}
    {after : ChangeRun}
    (made : resolveReworkOrder run .specification observed attempt = .ok resolution)
    (applied : applyResult resolution.result history attempt.now context decisions run = .ok decision after) :
    decision.nextStage ≠ some .planning := by
  obtain ⟨plan, -, rest⟩ := Outcome.bind_ok.mp made
  obtain ⟨result, planned, ended⟩ := Outcome.bind_ok.mp rest
  cases ended
  obtain ⟨own, action⟩ := planResult_action planned
  obtain ⟨-, -, -, index, entered, reached, -, computed, rfl, -⟩ := applyResult_ok applied
  rcases action with ⟨reason, stop⟩ | ⟨round, rework⟩
  · simp only [verdict, stop, Except.ok.injEq] at computed
    subst computed
    simp [stopVerdict, Verdict.decision]
  · simp only [verdict, rework, Except.ok.injEq] at computed
    subst computed
    simp only [reworkVerdict, Verdict.decision]
    split
    · simp [Verdict.blocked]
    · split
      · simp [Verdict.blocked]
      · simp [own, reworkTarget]

end Round

/-- Approved design phases leave the specification stage exactly when, besides the ordinary limits, every
    human gate of the stage also carries an approval bound to the one revision the flow checks. -/
theorem approved_phases_advance_iff (run : ChangeRun) (change : Change) (checkpoint : StageResult)
    (observation : GateObservation) (facts : PhaseFacts) (orders : Phase → List ReworkOrder)
    (attempt : WaitingAttempt) (history : List StageResult) (context : Option MergeRequestContext)
    (decisions : List Decision)
    (parked : Parked run .specification attempt.attemptNumber)
    (risky : isR2OrHigher (riskClassOf run) = true)
    (approved : PhasesApproved run.route facts)
    (last : waitingRound run.route facts .specification history = (specificationPhases run.route).getLast?) :
    let observed := withStoreFacts observation facts true .specification run.route history orders
    entersStage .planning (resumeDecision run .specification change checkpoint observed attempt history context
        decisions) = true ↔
      designAdvances run observed attempt decisions := by
  intro observed
  have resolved : gateResolved (some observed) .specification run.route (riskClassOf run) = true :=
    withStoreFacts_resolved approved last
  have ended : observed.nextPhase = none := by
    obtain ⟨phase, gate, final, -, -, none⟩ := last_round run.route
    simp [observed, withStoreFacts, last, final, none]
  have build : buildGateResolution run .specification change checkpoint observed attempt history =
      resolveHumanGated run .specification observed attempt (riskClassOf run) := by
    simp [buildGateResolution, resolved, specification_purely_human]
  by_cases unordered : observed.merged = true ∨ pendingReworkOrder observed = none
  · obtain ⟨index, current, same, applied⟩ := parked.applied
      (show (designResult run observed attempt).stage = .specification from rfl) rfl rfl rfl rfl history
      attempt.now (Option.or none context) (decisions ++ observed.approvals)
    have built := build.trans (resolveHumanGated_last ended unordered)
    rw [resumeDecision_eq built applied, entersStage_map]
    simp only [designAdvances, unordered, true_and]
    exact designVerdict same risky observed (decisions ++ observed.approvals)
  · have stays : ¬ designAdvances run observed attempt decisions := fun advances => unordered advances.1
    have ordered : (!observed.merged && (pendingReworkOrder observed).isSome) = true := by
      simp only [not_or, Bool.not_eq_true] at unordered
      simp [unordered.1, Option.isSome_iff_ne_none, unordered.2]
    have order : resolveHumanGated run .specification observed attempt (riskClassOf run) =
        resolveReworkOrder run .specification observed attempt := by
      simp only [resolveHumanGated, ordered, ↓reduceIte]
    simp only [stays, iff_false, Bool.not_eq_true, resumeDecision, build, order, Bind.bind, Except.bind]
    cases made : resolveReworkOrder run .specification observed attempt with
    | error failure => rfl
    | ok resolution =>
      dsimp only
      split
      · rename_i decision after applied
        simpa [entersStage] using resolveReworkOrder_stays made applied
      · rfl

def r2Contract : ImplementationContract := { r3Contract with riskClass := .r2 }

def designRound (revision : String) (status : StageStatus) : StageRun :=
  { id := s!"run_1:specification:{revision}", stage := .specification, status, inputRevision := some revision }

def designRun : ChangeRun :=
  { id := "run_1", changeId := "change-1", route := .standard, provider := .github, status := .waiting
    stages := [designRound "c0" .succeeded, designRound "c1" .succeeded, designRound "c2" .waiting]
    implementationContract := some r2Contract }

def designCheckpoint : StageResult :=
  { stage := .specification, runId := "run_1", changeId := "change-1", inputRevision := some "c2"
    status := .waiting, nextAction := .requestApproval .ui none none, phase := some .interface, producedAt := 0 }

def phaseApproval (phase : Phase) (gate : Gate) (revision : String) : Decision :=
  { id := s!"decision-{phase.value}", gate, outcome := .approved, decidedBy := .human, decidedAt := 0
    commitSha := some revision, phase := some phase }

def approvedDesign (requirements architecture interface : String) : PhaseFacts :=
  { decisions := [phaseApproval .requirements .specification requirements,
      phaseApproval .architecture .specification architecture, phaseApproval .interface .ui interface]
    revisions := fun
      | .requirements => some requirements
      | .architecture => some architecture
      | .interface => some interface
      | _ => none }

def designHead (sha : String) : GateObservation := { headSha := some sha, merged := false, pipelineStatus := none }

theorem approvedDesign_approved (requirements architecture interface : String) :
    PhasesApproved .standard (approvedDesign requirements architecture interface) := by
  intro phase required
  have phases : specificationPhases .standard = [.requirements, .architecture, .interface] := by decide
  rw [phases] at required
  simp only [List.mem_cons, List.not_mem_nil, or_false] at required
  rcases required with rfl | rfl | rfl <;>
    simp [approvedDesign, phaseDecisions, gateOfPhase, decisionPhase, phaseApproval, revisionState]

theorem designRun_parked : Parked designRun .specification 1 := ⟨rfl, 2, _, rfl, rfl, rfl, rfl⟩

theorem design_in_one_commit_advances :
    entersStage .planning (resumeDecision designRun .specification { id := "change-1", riskClass := .r2 }
      designCheckpoint (withStoreFacts (designHead "c3") (approvedDesign "c3" "c3" "c3") true .specification
        .standard [designCheckpoint] (fun _ => [])) ⟨1, "c2", 0⟩ [designCheckpoint] none []) = true :=
  (approved_phases_advance_iff designRun { id := "change-1", riskClass := .r2 } designCheckpoint
    (designHead "c3") (approvedDesign "c3" "c3" "c3") (fun _ => []) ⟨1, "c2", 0⟩ [designCheckpoint] none []
    designRun_parked (by decide) (approvedDesign_approved _ _ _) (by decide)).mpr
      ⟨by decide, by decide, by decide, by decide, by decide⟩

/-- Every phase is approved at its own revision, and the flow still misses the `problem` point: no
    approval of the specification gate is bound to the head. -/
theorem approved_phases_blocked :
    Parked designRun .specification 1 ∧ riskClassOf designRun = .r2 ∧
      PhasesApproved .standard (approvedDesign "c1" "c2" "c3") ∧
      waitingRound .standard (approvedDesign "c1" "c2" "c3") .specification [designCheckpoint] =
        some .interface ∧
      nextSpecificationPhase .standard .interface = none ∧
      entersStage .planning (resumeDecision designRun .specification { id := "change-1", riskClass := .r2 }
        designCheckpoint (withStoreFacts (designHead "c3") (approvedDesign "c1" "c2" "c3") true .specification
          .standard [designCheckpoint] (fun _ => [])) ⟨1, "c2", 0⟩ [designCheckpoint] none []) = false := by
  refine ⟨designRun_parked, ?_, approvedDesign_approved _ _ _, ?_, ?_, ?_⟩ <;> decide +kernel

end DarkFactory

import DarkFactory.Runner.Work

namespace DarkFactory

def phaseStage : Phase → Option Stage
  | .initiative => none
  | .requirements => some .specification
  | .architecture => some .specification
  | .interface => some .specification
  | .plan => some .planning
  | .execution => some .construction
  | .demonstration => some .reviewVerification
  | .delivery => some .release
  | .done => none

/-- The statuses the projection takes for work in flight; a failed stage is not among them. -/
def activeStageStatus (status : StageStatus) : Bool :=
  status = .pending || status = .inProgress || status = .waiting || status = .blocked

def shownStage (run : ChangeRun) : Option Stage :=
  match run.stages.find? fun item => activeStageStatus item.status with
  | some item => some item.stage
  | none => run.stages.getLast?.map (·.stage)

def currentPhase (run : Option ChangeRun) (decisions : List Decision) (revisions : Phase → Option String) : Phase :=
  match run with
  | none => .initiative
  | some run =>
    if run.status = .succeeded then .done
    else
      match shownStage run with
      | none => .initiative
      | some stage =>
        if stage = .specification then specificationPhase run.route decisions revisions else stagePhase stage

/-- The stage of the phase the operator is shown is the stage the driver executes next. -/
def ViewAgrees (run : ChangeRun) : Prop :=
  ∀ decisions revisions, phaseStage (currentPhase (some run) decisions revisions) = nextStage run

section View

variable {run : ChangeRun} {stage : Stage}

theorem phaseStage_stagePhase (stage : Stage) : phaseStage (stagePhase stage) = some stage := by
  cases stage <;> rfl

theorem specificationPhase_stage (route : Route) (decisions : List Decision) (revisions : Phase → Option String) :
    phaseStage (specificationPhase route decisions revisions) = some .specification := by
  have own : ∀ phase ∈ specificationPhases route, phaseStage phase = some .specification := by
    cases route <;> decide
  have last : phaseStage ((specificationPhases route).getLastD .requirements) = some .specification := by
    cases route <;> decide
  unfold specificationPhase
  dsimp only
  cases found : (specificationPhases route).find? fun phase =>
      decide ((phaseSettlement decisions phase (revisions phase)).1 = .open) with
  | none => exact last
  | some phase => exact own phase (List.mem_of_find?_eq_some found)

theorem currentPhase_stage (unfinished : run.status ≠ .succeeded) (decisions : List Decision)
    (revisions : Phase → Option String) :
    phaseStage (currentPhase (some run) decisions revisions) = shownStage run := by
  simp only [currentPhase, if_neg unfinished]
  cases shownStage run with
  | none => rfl
  | some stage =>
    dsimp only
    split
    · rename_i specification
      rw [specification]
      exact specificationPhase_stage _ _ _
    · exact phaseStage_stagePhase stage

/-- Among occurrences in the order of the route, the first active one is of the least stage that has one. -/
theorem shownStage_active (sorted : run.stages.Pairwise fun left right => stageIndex left.stage ≤ stageIndex right.stage)
    {item : StageRun} (listed : item ∈ run.stages) (active : activeStageStatus item.status = true)
    (least : ∀ other ∈ run.stages, activeStageStatus other.status = true →
      stageIndex item.stage ≤ stageIndex other.stage) : shownStage run = some item.stage := by
  unfold shownStage
  cases found : run.stages.find? fun item => activeStageStatus item.status with
  | none => exact absurd active (List.find?_eq_none.mp found item listed)
  | some first =>
    obtain ⟨status, before, after, split, earlier⟩ := List.find?_eq_some_iff_append.mp found
    have bound := least first (List.mem_of_find?_eq_some found) status
    rw [split] at listed sorted
    rcases List.mem_append.mp listed with inside | behind
    · have inactive := earlier item inside
      rw [active] at inactive
      cases inactive
    · rcases List.mem_cons.mp behind with rfl | later
      · rfl
      · have order := (List.pairwise_cons.mp (List.pairwise_append.mp sorted).2.1).1 item later
        exact congrArg some (stageIndex_injective (Nat.le_antisymm order bound))

theorem shownStage_last (sorted : run.stages.Pairwise fun left right => stageIndex left.stage ≤ stageIndex right.stage)
    {item : StageRun} (listed : item ∈ run.stages)
    (inactive : ∀ other ∈ run.stages, activeStageStatus other.status = false)
    (greatest : ∀ other ∈ run.stages, stageIndex other.stage ≤ stageIndex item.stage) :
    shownStage run = some item.stage := by
  have none_ : (run.stages.find? fun item => activeStageStatus item.status) = none := by
    rw [List.find?_eq_none]
    intro other member active
    rw [inactive other member] at active
    cases active
  rw [shownStage, none_]
  rcases List.eq_nil_or_concat' run.stages with empty | ⟨before, last, split⟩
  · rw [empty] at listed
    cases listed
  have bound := greatest last (by simp [split])
  rw [split, List.getLast?_concat, Option.map_some]
  rw [split] at listed sorted
  rcases List.mem_append.mp listed with inside | same
  · have order := (List.pairwise_append.mp sorted).2.2 item inside last (List.mem_singleton_self last)
    rw [stageIndex_injective (Nat.le_antisymm bound order)]
  · rw [List.mem_singleton.mp same]

end View

/-- The rows of a run whose driver works at a stage: nothing is open before it; past it there is at most the review
    that failed and sent the run back; and what is in flight shows, unless the stage is the last that has a row. -/
structure AtStage (store : Store) (runId : String) (stage : Stage) : Prop where
  occupied : ∃ row, store.Opens runId stage row
  least : ∀ other row, store.Opens runId other row → stageIndex stage ≤ stageIndex other
  ahead : ∀ row ∈ store.stages, row.executionId = runId → stageIndex stage < stageIndex row.stage →
    stage = .construction ∧ row.stage = .reviewVerification ∧ row.status = .failed
  review : ∀ row ∈ store.stages, ∀ other ∈ store.stages, row.executionId = runId → other.executionId = runId →
    row.stage = .reviewVerification → other.stage = .reviewVerification → row = other
  shown : (∃ row, store.Opens runId stage row ∧ row.status ≠ .failed) ∨
    ∀ row ∈ store.stages, row.executionId = runId → stageIndex row.stage ≤ stageIndex stage

def InView (store : Store) : Prop :=
  ∀ runId execution, store.execution runId = some execution → runTerminal execution.status = false →
    ∃ stage, AtStage store runId stage

section Rows

variable {store after : Store} {runId : String} {run : ChangeRun} {stage : Stage}

theorem activeStageStatus_iff {status : StageStatus} :
    activeStageStatus status = true ↔ stageTerminal status = false ∧ status ≠ .failed := by
  cases status <;> decide

theorem open_iff {row : StageRow} : row.open = true ↔ stageTerminal row.status = false := by
  rw [StageRow.open, Bool.not_eq_true']

theorem idxOf_stageSequence (stage : Stage) : stageSequence.idxOf stage = stageIndex stage := by
  cases stage <;> rfl

theorem stages_sorted (loaded : store.load runId = some run) :
    run.stages.Pairwise fun left right => stageIndex left.stage ≤ stageIndex right.stage := by
  obtain ⟨execution, -, -, -, -, rows⟩ := load_some loaded
  rw [rows, List.pairwise_map]
  refine (runRows_sorted store runId execution.route).imp ?_
  intro left right order
  rw [rowBefore_iff, routeProfile_stages, idxOf_stageSequence, idxOf_stageSequence] at order
  rcases order with earlier | ⟨same, -⟩
  · exact Nat.le_of_lt earlier
  · exact Nat.le_of_eq same

theorem AtStage.nextStage (here : AtStage store runId stage) (loaded : store.load runId = some run) :
    nextStage run = some stage :=
  (nextStage_opens loaded).mpr ⟨here.occupied, here.least⟩

theorem AtStage.shownStage (here : AtStage store runId stage) (loaded : store.load runId = some run) :
    shownStage run = some stage := by
  have sorted := stages_sorted loaded
  have least (other : StageRun) (listed : other ∈ run.stages) (active : activeStageStatus other.status = true) :
      stageIndex stage ≤ stageIndex other.stage := by
    obtain ⟨row, member, owner, rfl⟩ := (mem_stages loaded).mp listed
    obtain ⟨live, -⟩ := activeStageStatus_iff.mp active
    exact here.least row.stage row ⟨member, owner, rfl, open_iff.mpr live⟩
  by_cases visible : ∃ row, store.Opens runId stage row ∧ row.status ≠ .failed
  · obtain ⟨row, opens, unfailed⟩ := visible
    have listed : row.stageRun ∈ run.stages := (mem_stages loaded).mpr ⟨row, opens.member, opens.owner, rfl⟩
    have live : stageTerminal row.status = false := open_iff.mp opens.live
    rw [← opens.own]
    refine shownStage_active sorted listed (activeStageStatus_iff.mpr ⟨live, unfailed⟩) ?_
    intro other member active
    have bound := least other member active
    rw [← opens.own] at bound
    exact bound
  · have last := here.shown.resolve_left visible
    obtain ⟨row, opens⟩ := here.occupied
    have listed : row.stageRun ∈ run.stages := (mem_stages loaded).mpr ⟨row, opens.member, opens.owner, rfl⟩
    rw [← opens.own]
    refine shownStage_last sorted listed ?_ ?_
    · intro other member
      rw [← Bool.not_eq_true]
      intro active
      have bound := least other member active
      obtain ⟨held, there, owner, rfl⟩ := (mem_stages loaded).mp member
      obtain ⟨live, unfailed⟩ := activeStageStatus_iff.mp active
      have same := stageIndex_injective (Nat.le_antisymm bound (last held there owner))
      exact visible ⟨held, ⟨there, owner, same.symm, open_iff.mpr live⟩, unfailed⟩
    · intro other member
      obtain ⟨held, there, owner, rfl⟩ := (mem_stages loaded).mp member
      have bound := last held there owner
      rw [← opens.own] at bound
      exact bound

theorem InView.agrees (view : InView store) (loaded : store.load runId = some run)
    (live : runTerminal run.status = false) : ViewAgrees run := by
  obtain ⟨execution, found, -, -, status, -⟩ := load_some loaded
  obtain ⟨stage, here⟩ := view runId execution found (status ▸ live)
  have unfinished : run.status ≠ .succeeded := by
    intro done
    rw [done] at live
    cases live
  intro decisions revisions
  rw [currentPhase_stage unfinished, here.shownStage loaded, here.nextStage loaded]

theorem AtStage.congr (here : AtStage store runId stage)
    (rows : ∀ row : StageRow, row.executionId = runId → (row ∈ after.stages ↔ row ∈ store.stages)) :
    AtStage after runId stage := by
  refine ⟨?_, ?_, ?_, ?_, ?_⟩
  · obtain ⟨row, opened⟩ := here.occupied
    exact ⟨row, (opens_congr rows).mpr opened⟩
  · intro other row opened
    exact here.least other row ((opens_congr rows).mp opened)
  · intro row member owner later
    exact here.ahead row ((rows row owner).mp member) owner later
  · intro row member other listed owner owner' first second
    exact here.review row ((rows row owner).mp member) other ((rows other owner').mp listed) owner owner' first second
  · refine here.shown.imp ?_ ?_
    · rintro ⟨row, opened, unfailed⟩
      exact ⟨row, (opens_congr rows).mpr opened, unfailed⟩
    · intro last row member owner
      exact last row ((rows row owner).mp member) owner

end Rows

def Attempted.isLast (attempt : Attempted) : Bool :=
  attempt.run.stages.all fun item => stageIndex item.stage ≤ stageIndex attempt.stage

def Attempted.otherShown (attempt : Attempted) : Bool :=
  attempt.run.stages.any fun item =>
    item.stage = attempt.stage && activeStageStatus item.status && inFlight attempt.run attempt.stage ≠ some item

/-- A result that moves on leaves no open occurrence of its stage behind; one that starts a round of its own stage
    gives it a revision that the stage has not had, or else is not hidden by what is there anyway. -/
def KeepsView (input : AdvanceInput) (store : Store) (attempt : Attempted) : Prop :=
  match attempt.result.nextAction.type with
  | .executeStage | .merge => SoleInFlight attempt.run attempt.stage
  | .rework => reworkTarget attempt.stage = attempt.stage →
      Unused input store attempt.stage ∨ attempt.isLast = true ∨ attempt.otherShown = true
  | .phaseRound => Unused input store attempt.stage ∨ attempt.hasOther = true
  | _ => True

def Drive.keepsView (store : Store) : Drive → Prop
  | .create _ => True
  | .advance input => ∀ attempt report decision target, attempted input store = some attempt →
      reportOf input store = some report → report.decision = some decision → decision.nextStage = some target →
      KeepsView input store attempt

section Effect

variable {input : AdvanceInput} {before after : Store} {attempt : Attempted} {row : StageRow} {reached : Verdict}
  {target : Stage}

theorem AdvanceEffect.review_after (effect : AdvanceEffect input before after attempt row reached)
    (wf : WellFormed before) (here : AtStage before input.runId attempt.stage)
    (first : attempt.starts reached = some .reviewVerification →
      ∀ old ∈ before.stages, old.executionId = input.runId → old.stage ≠ .reviewVerification) :
    ∀ item ∈ after.stages, ∀ other ∈ after.stages, item.executionId = input.runId →
      other.executionId = input.runId → item.stage = .reviewVerification → other.stage = .reviewVerification →
      item = other := by
  obtain ⟨settled, settles, rows⟩ := effect.rows wf
  have none_ (started : Stage) (starts : attempt.starts reached = some started) (item : StageRow)
      (listed : (item ∈ before.stages ∧ item.id ≠ row.id) ∨ item = settled) (owner : item.executionId = input.runId)
      (own : item.stage = .reviewVerification) (same : started = .reviewVerification) : False := by
    subst same
    rcases listed with ⟨member, -⟩ | rfl
    · exact first starts item member owner own
    · exact first starts row effect.member effect.owner (settles.stage_eq ▸ own)
  have apart (item : StageRow) (member : item ∈ before.stages) (owner : item.executionId = input.runId)
      (own : item.stage = .reviewVerification) (executed : settled.stage = .reviewVerification) : item.id = row.id := by
    rw [settles.stage_eq] at executed
    rw [here.review item member row effect.member owner effect.owner own executed]
  intro item member other listed owner owner' own own'
  rcases (rows item).mp member with ⟨old, distinct⟩ | rfl | ⟨started, starts, -, rfl⟩
  · rcases (rows other).mp listed with ⟨old', -⟩ | rfl | ⟨started, starts, -, rfl⟩
    · exact here.review item old other old' owner owner' own own'
    · exact absurd (apart item old owner own own') distinct
    · exact (none_ started starts item (Or.inl ⟨old, distinct⟩) owner own own').elim
  · rcases (rows other).mp listed with ⟨old', distinct⟩ | rfl | ⟨started, starts, -, rfl⟩
    · exact absurd (apart other old' owner' own' own) distinct
    · rfl
    · exact (none_ started starts item (Or.inr rfl) owner own own').elim
  · rcases (rows other).mp listed with old' | rfl | ⟨started', starts', -, rfl⟩
    · exact (none_ started starts other (Or.inl old') owner' own' own).elim
    · exact (none_ started starts other (Or.inr rfl) owner' own' own).elim
    · rw [starts, Option.some.injEq] at starts'
      rw [starts']

/-- A decision that starts nothing elsewhere leaves the run at its stage, as long as that is occupied and shows. -/
theorem AdvanceEffect.atSame (effect : AdvanceEffect input before after attempt row reached)
    (wf : WellFormed before) (here : AtStage before input.runId attempt.stage)
    (starts : ∀ started, attempt.starts reached = some started →
      started = attempt.stage ∧ attempt.stage ≠ .reviewVerification)
    (occupied : ∃ item, after.Opens input.runId attempt.stage item)
    (shown : (∃ item, after.Opens input.runId attempt.stage item ∧ item.status ≠ .failed) ∨
      ∀ item ∈ before.stages, item.executionId = input.runId → stageIndex item.stage ≤ stageIndex attempt.stage) :
    AtStage after input.runId attempt.stage := by
  obtain ⟨settled, settles, rows⟩ := effect.rows wf
  have settledStage : settled.stage = attempt.stage := settles.stage_eq.trans effect.own
  refine ⟨occupied, ?_, ?_, ?_, ?_⟩
  · intro other item opened
    rcases (rows item).mp opened.member with ⟨old, -⟩ | rfl | ⟨started, begins, -, rfl⟩
    · exact here.least other item ⟨old, opened.owner, opened.own, opened.live⟩
    · rw [← opened.own, settledStage]
    · rw [← opened.own]
      exact Nat.le_of_eq (congrArg stageIndex (starts started begins).1.symm)
  · intro item member owner later
    rcases (rows item).mp member with ⟨old, -⟩ | rfl | ⟨started, begins, -, rfl⟩
    · exact here.ahead item old owner later
    · rw [settledStage] at later
      omega
    · rw [show (startedRow input started).stage = attempt.stage from (starts started begins).1] at later
      omega
  · refine effect.review_after wf here fun begins => ?_
    obtain ⟨same, other⟩ := starts .reviewVerification begins
    exact absurd same.symm other
  · refine shown.imp id fun last item member owner => ?_
    rcases (rows item).mp member with ⟨old, -⟩ | rfl | ⟨started, begins, -, rfl⟩
    · exact last item old owner
    · rw [settledStage]
    · exact Nat.le_of_eq (congrArg stageIndex (starts started begins).1)

theorem AdvanceEffect.parked_view (effect : AdvanceEffect input before after attempt row reached)
    (wf : WellFormed before) (here : AtStage before input.runId attempt.stage) (next : reached.nextStage = none)
    (status : reached.stageStatus = .blocked ∨ reached.stageStatus = .waiting) :
    AtStage after input.runId attempt.stage := by
  obtain ⟨settled, settles, rows⟩ := effect.rows wf
  have live : stageTerminal settled.status = false ∧ settled.status ≠ .failed := by
    rw [settles.status_eq]
    rcases status with status | status <;> rw [status] <;> decide
  have opened : after.Opens input.runId attempt.stage settled :=
    ⟨(rows settled).mpr (Or.inr (Or.inl rfl)), settles.executionId_eq.trans effect.owner,
      settles.stage_eq.trans effect.own, open_iff.mpr live.1⟩
  refine effect.atSame wf here ?_ ⟨settled, opened⟩ (Or.inl ⟨settled, opened, live.2⟩)
  intro started begins
  rw [starts_next begins] at next
  cases next

theorem AdvanceEffect.round_view (effect : AdvanceEffect input before after attempt row reached)
    (wf : WellFormed before) (here : AtStage before input.runId attempt.stage)
    (next : reached.nextStage = some attempt.stage) (elsewhere : attempt.stage ≠ .reviewVerification)
    (unused : Unused input before attempt.stage) : AtStage after input.runId attempt.stage := by
  have opened : after.Opens input.runId attempt.stage (startedRow input attempt.stage) :=
    effect.started_open wf ((effect.starts_iff next).mpr ⟨Or.inl rfl, rfl⟩) unused
  refine effect.atSame wf here ?_ ⟨_, opened⟩ (Or.inl ⟨_, opened, ?_⟩)
  · intro started begins
    exact ⟨((effect.starts_iff next).mp begins).2, elsewhere⟩
  · rw [show (startedRow input attempt.stage).status = .pending from rfl]
    decide

theorem AdvanceEffect.isLast_iff (effect : AdvanceEffect input before after attempt row reached) :
    attempt.isLast = true ↔
      ∀ item ∈ before.stages, item.executionId = input.runId → stageIndex item.stage ≤ stageIndex attempt.stage := by
  simp only [Attempted.isLast, List.all_eq_true, decide_eq_true_eq]
  constructor
  · intro last item member owner
    exact last item.stageRun ((mem_stages effect.loaded).mpr ⟨item, member, owner, rfl⟩)
  · intro last stageRun listed
    obtain ⟨item, member, owner, rfl⟩ := (mem_stages effect.loaded).mp listed
    exact last item member owner

theorem AdvanceEffect.otherShown_open (effect : AdvanceEffect input before after attempt row reached)
    (wf : WellFormed before) (other : attempt.otherShown = true) :
    ∃ item, after.Opens input.runId attempt.stage item ∧ item.status ≠ .failed := by
  obtain ⟨stageRun, listed, facts⟩ := List.any_eq_true.mp other
  simp only [Bool.and_eq_true, decide_eq_true_eq] at facts
  obtain ⟨⟨own, active⟩, apart⟩ := facts
  obtain ⟨item, member, owner, rfl⟩ := (mem_stages effect.loaded).mp listed
  obtain ⟨live, unfailed⟩ := activeStageStatus_iff.mp active
  have opened : before.Opens input.runId attempt.stage item := ⟨member, owner, own, open_iff.mpr live⟩
  refine ⟨item, effect.stays_open wf opened fun same => ?_, unfailed⟩
  rw [wf.stagesUnique.eq member effect.member same] at apart
  exact apart effect.flight

/-- A rework round of the own stage shows, or the failed occurrence is the last thing there is to show. -/
theorem AdvanceEffect.rework_view (effect : AdvanceEffect input before after attempt row reached)
    (wf : WellFormed before) (here : AtStage before input.runId attempt.stage)
    (next : reached.nextStage = some attempt.stage) (elsewhere : attempt.stage ≠ .reviewVerification)
    (failed : reached.stageStatus = .failed)
    (keeps : Unused input before attempt.stage ∨ attempt.isLast = true ∨ attempt.otherShown = true) :
    AtStage after input.runId attempt.stage := by
  rcases keeps with unused | keeps
  · exact effect.round_view wf here next elsewhere unused
  have starts (started : Stage) (begins : attempt.starts reached = some started) :
      started = attempt.stage ∧ attempt.stage ≠ .reviewVerification :=
    ⟨((effect.starts_iff next).mp begins).2, elsewhere⟩
  rcases keeps with last | other
  · exact effect.atSame wf here starts (effect.settled_open wf (by rw [failed]; rfl))
      (Or.inr (effect.isLast_iff.mp last))
  · obtain ⟨item, opened, unfailed⟩ := effect.otherShown_open wf other
    exact effect.atSame wf here starts ⟨item, opened⟩ (Or.inl ⟨item, opened, unfailed⟩)

theorem AdvanceEffect.phase_view (effect : AdvanceEffect input before after attempt row reached)
    (wf : WellFormed before) (here : AtStage before input.runId attempt.stage)
    (next : reached.nextStage = some attempt.stage) (specification : attempt.stage = .specification)
    (keeps : Unused input before attempt.stage ∨ attempt.hasOther = true) :
    AtStage after input.runId attempt.stage := by
  have elsewhere : attempt.stage ≠ .reviewVerification := by
    rw [specification]
    decide
  rcases keeps with unused | other
  · exact effect.round_view wf here next elsewhere unused
  have last (item : StageRow) (member : item ∈ before.stages) (owner : item.executionId = input.runId) :
      stageIndex item.stage ≤ stageIndex attempt.stage := by
    by_contra later
    have building := (here.ahead item member owner (not_le.mp later)).1
    rw [specification] at building
    cases building
  obtain ⟨stageRun, listed, facts⟩ := List.any_eq_true.mp other
  obtain ⟨active, apart⟩ := Bool.and_eq_true_iff.mp facts
  obtain ⟨item, opened, rfl⟩ :=
    (opens_stageRun effect.loaded).mp ⟨listed, activeAt_iff.mpr ⟨rfl, active⟩⟩
  have stays := effect.stays_open wf opened fun same => by
    rw [wf.stagesUnique.eq opened.member effect.member same] at apart
    exact of_decide_eq_true apart effect.flight
  have own : item.stage = attempt.stage :=
    stageIndex_injective (Nat.le_antisymm (last item opened.member opened.owner) (here.least _ item opened))
  have there : after.Opens input.runId attempt.stage item := ⟨stays.member, stays.owner, own, stays.live⟩
  exact effect.atSame wf here (fun started begins => ⟨((effect.starts_iff next).mp begins).2, elsewhere⟩)
    ⟨item, there⟩ (Or.inr last)

/-- A stage left without an open occurrence hands on to the next one: to the review that failed, or to a new row. -/
theorem AdvanceEffect.left_view (effect : AdvanceEffect input before after attempt row reached)
    (wf : WellFormed before) (here : AtStage before input.runId attempt.stage)
    (next : reached.nextStage = some target) (forward : stageIndex target = stageIndex attempt.stage + 1)
    (closed : reached.stageStatus = .succeeded) (sole : SoleInFlight attempt.run attempt.stage) :
    AtStage after input.runId target := by
  obtain ⟨settled, settles, rows⟩ := effect.rows wf
  rw [effect.sole_iff wf] at sole
  have elsewhere : target ≠ attempt.stage := by
    rintro rfl
    omega
  have settledStage : settled.stage = attempt.stage := settles.stage_eq.trans effect.own
  have least (other : Stage) (item : StageRow) (opened : after.Opens input.runId other item) :
      stageIndex target ≤ stageIndex other := by
    rcases (rows item).mp opened.member with ⟨old, apart⟩ | rfl | ⟨started, begins, -, rfl⟩
    · have before_ : before.Opens input.runId other item := ⟨old, opened.owner, opened.own, opened.live⟩
      have bound := here.least other item before_
      by_cases same : other = attempt.stage
      · exact absurd (sole item (same ▸ before_)) apart
      · have distinct : stageIndex other ≠ stageIndex attempt.stage := fun equal => same (stageIndex_injective equal)
        omega
    · have live := open_iff.mp opened.live
      rw [settles.status_eq, closed] at live
      cases live
    · rw [← opened.own]
      exact Nat.le_of_eq (congrArg stageIndex ((effect.starts_iff next).mp begins).2.symm)
  cases flight : inFlight attempt.run target with
  | some current =>
    obtain ⟨held, member, owner, own, live, -⟩ := inFlight_row effect.loaded flight
    obtain ⟨building, review, -⟩ := here.ahead held member owner (by rw [own]; omega)
    have last : target = .reviewVerification := own.symm.trans review
    have starts : attempt.starts reached = none := by
      rw [Option.eq_none_iff_forall_ne_some]
      intro started begins
      rcases ((effect.starts_iff next).mp begins).1 with same | idle
      · exact elsewhere same
      · rw [flight] at idle
        cases idle
    have stays : after.Opens input.runId target held := by
      refine effect.stays_open wf ⟨member, owner, own, live⟩ fun same => elsewhere ?_
      rw [← own, wf.stagesUnique.eq member effect.member same, effect.own]
    have bound (item : StageRow) (listed : item ∈ after.stages) (owned : item.executionId = input.runId) :
        stageIndex item.stage ≤ stageIndex target := by
      rcases (rows item).mp listed with ⟨old, -⟩ | rfl | ⟨started, begins, -, -⟩
      · by_contra later
        have ahead := (here.ahead item old owned (by omega)).2.1
        rw [ahead, last] at later
        exact later (Nat.le_refl _)
      · rw [settledStage]
        omega
      · rw [starts] at begins
        cases begins
    refine ⟨⟨held, stays⟩, least, ?_, ?_, Or.inr bound⟩
    · intro item listed owned later
      have most := bound item listed owned
      omega
    · refine effect.review_after wf here fun begins => ?_
      rw [starts] at begins
      cases begins
  | none =>
    have none_ (item : StageRow) (member : item ∈ before.stages) (owner : item.executionId = input.runId) :
        stageIndex item.stage ≤ stageIndex attempt.stage := by
      by_contra later
      obtain ⟨building, review, failed⟩ := here.ahead item member owner (not_le.mp later)
      have own : item.stage = target := by
        apply stageIndex_injective
        rw [forward, building, review]
        rfl
      exact (inFlight_none_opens effect.loaded).mp flight item
        ⟨member, owner, own, open_iff.mpr (by rw [failed]; rfl)⟩
    have unused : Unused input before target := by
      intro item member owner own
      have bound := none_ item member owner
      rw [own] at bound
      omega
    have opened : after.Opens input.runId target (startedRow input target) :=
      effect.started_open wf ((effect.starts_iff next).mpr ⟨Or.inr flight, rfl⟩) unused
    refine ⟨⟨_, opened⟩, least, ?_, ?_, Or.inl ⟨_, opened, ?_⟩⟩
    · intro item listed owner later
      rcases (rows item).mp listed with ⟨old, -⟩ | rfl | ⟨started, begins, -, rfl⟩
      · have bound := none_ item old owner
        omega
      · rw [settledStage] at later
        omega
      · rw [show (startedRow input started).stage = target from ((effect.starts_iff next).mp begins).2] at later
        omega
    · refine effect.review_after wf here fun begins old member owner own => ?_
      have bound := none_ old member owner
      rw [own, ((effect.starts_iff next).mp begins).2] at bound
      omega
    · rw [show (startedRow input target).status = .pending from rfl]
      decide

/-- A review that sends the run back leaves the one failed row ahead of the construction, or stays the stage there is
    to go on with when the construction has no revision to start at. -/
theorem AdvanceEffect.back_view (effect : AdvanceEffect input before after attempt row reached)
    (wf : WellFormed before) (here : AtStage before input.runId attempt.stage)
    (next : reached.nextStage = some .construction) (reviewed : attempt.stage = .reviewVerification)
    (failed : reached.stageStatus = .failed) :
    ∃ stage, AtStage after input.runId stage := by
  obtain ⟨settled, settles, rows⟩ := effect.rows wf
  have settledStage : settled.stage = .reviewVerification := (settles.stage_eq.trans effect.own).trans reviewed
  have settledFailed : settled.status = .failed := settles.status_eq.trans failed
  have most (item : StageRow) (member : item ∈ before.stages) (owner : item.executionId = input.runId) :
      stageIndex item.stage ≤ stageIndex .reviewVerification := by
    by_contra later
    have building := (here.ahead item member owner (by rw [reviewed]; exact not_le.mp later)).1
    rw [reviewed] at building
    cases building
  have review := effect.review_after wf here fun begins => by
    have same := ((effect.starts_iff next).mp begins).2
    cases same
  have old_least (other : Stage) (item : StageRow) (opened : before.Opens input.runId other item) :
      stageIndex .reviewVerification ≤ stageIndex other := reviewed ▸ here.least other item opened
  have executed : after.Opens input.runId .reviewVerification settled :=
    ⟨(rows settled).mpr (Or.inr (Or.inl rfl)), settles.executionId_eq.trans effect.owner, settledStage,
      open_iff.mpr (by rw [settledFailed]; rfl)⟩
  by_cases started : startedRow input .construction ∈ after.stages
  · have opened : after.Opens input.runId .construction (startedRow input .construction) := ⟨started, rfl, rfl, rfl⟩
    refine ⟨.construction, ⟨_, opened⟩, ?_, ?_, review, Or.inl ⟨_, opened, ?_⟩⟩
    · intro other item held
      rcases (rows item).mp held.member with ⟨old, -⟩ | rfl | ⟨stage, begins, -, rfl⟩
      · have bound := old_least other item ⟨old, held.owner, held.own, held.live⟩
        simp only [stageIndex] at bound ⊢
        omega
      · rw [← held.own, settledStage]
        decide
      · rw [← held.own]
        exact Nat.le_of_eq (congrArg stageIndex ((effect.starts_iff next).mp begins).2.symm)
    · intro item listed owner later
      rcases (rows item).mp listed with ⟨old, apart⟩ | rfl | ⟨stage, begins, -, rfl⟩
      · have bound := most item old owner
        have own : item.stage = .reviewVerification := by
          apply stageIndex_injective
          simp only [stageIndex] at bound later ⊢
          omega
        exact absurd (congrArg StageRow.id (here.review item old row effect.member owner effect.owner own
          (effect.own.trans reviewed))) apart
      · exact ⟨rfl, settledStage, settledFailed⟩
      · rw [show (startedRow input stage).stage = .construction from ((effect.starts_iff next).mp begins).2] at later
        exact absurd later (Nat.lt_irrefl _)
    · rw [show (startedRow input .construction).status = .pending from rfl]
      decide
  · have unstarted (item : StageRow) (listed : item ∈ after.stages) :
        (item ∈ before.stages ∧ item.id ≠ row.id) ∨ item = settled := by
      rcases (rows item).mp listed with old | same | ⟨stage, begins, -, rfl⟩
      · exact Or.inl old
      · exact Or.inr same
      · rw [((effect.starts_iff next).mp begins).2] at listed
        exact absurd listed started
    have bound (item : StageRow) (listed : item ∈ after.stages) (owner : item.executionId = input.runId) :
        stageIndex item.stage ≤ stageIndex .reviewVerification := by
      rcases unstarted item listed with ⟨old, -⟩ | rfl
      · exact most item old owner
      · rw [settledStage]
    refine ⟨.reviewVerification, ⟨settled, executed⟩, ?_, ?_, review, Or.inr bound⟩
    · intro other item held
      rcases unstarted item held.member with ⟨old, -⟩ | rfl
      · exact old_least other item ⟨old, held.owner, held.own, held.live⟩
      · rw [← held.own, settledStage]
    · intro item listed owner later
      exact absurd (bound item listed owner) (not_le.mpr later)

theorem AdvanceEffect.view (effect : AdvanceEffect input before after attempt row reached) (wf : WellFormed before)
    (here : AtStage before input.runId attempt.stage) (live : runTerminal reached.runStatus = false)
    (keeps : ∀ target, reached.nextStage = some target → KeepsView input before attempt) :
    ∃ stage, AtStage after input.runId stage := by
  have stage_eq := effect.answers.stage_eq
  cases next : reached.nextStage with
  | none =>
    have status : reached.stageStatus = .blocked ∨ reached.stageStatus = .waiting := by
      have reaches := effect.reaches
      cases reaches with
      | blocked => exact Or.inl rfl
      | parked | deferred => exact Or.inr rfl
      | released => cases live
      | stopped outcome =>
        cases outcome with
        | blocked => exact Or.inl rfl
        | failed | canceled => cases live
      | left | reworked | nextPhase => cases next
    exact ⟨_, effect.parked_view wf here next status⟩
  | some target =>
    have kept := keeps target next
    rcases effect.reaches.next next with ⟨leaves, verdict⟩ | ⟨action, asked, -, failed, rfl⟩ |
      ⟨phase, reason, asked, -, rfl⟩
    · have forward := nextStage_some leaves.successor
      rw [stage_eq] at forward
      have sole : SoleInFlight attempt.run attempt.stage := by
        cases leaves with
        | executed reason action _ _ => simpa only [KeepsView, action, NextAction.type] using kept
        | merged request reason action _ _ _ => simpa only [KeepsView, action, NextAction.type] using kept
      exact ⟨_, effect.left_view wf here next forward (by rw [verdict]; rfl) sole⟩
    · rw [stage_eq] at next
      by_cases own : reworkTarget attempt.stage = attempt.stage
      · have elsewhere : attempt.stage ≠ .reviewVerification := by
          intro reviewed
          rw [reviewed] at own
          cases own
        simp only [KeepsView, asked, NextAction.type] at kept
        rw [own] at next
        exact ⟨_, effect.rework_view wf here next elsewhere failed (kept own)⟩
      · have reviewed : attempt.stage = .reviewVerification := by
          revert own
          cases attempt.stage <;> decide
        rw [reviewed] at next
        exact effect.back_view wf here next reviewed failed
    · rw [stage_eq] at next
      have specification : attempt.stage = .specification := by
        have listed : (flowTransitions attempt.stage).contains .phaseRound = true := by
          have table := effect.listed
          rw [asked] at table
          exact table
        revert listed
        cases attempt.stage <;> decide
      simp only [KeepsView, asked, NextAction.type] at kept
      exact ⟨_, effect.phase_view wf here next specification kept⟩

end Effect

theorem afterDrive_inView {before : Store} (drive : Drive) (wf : WellFormed before) (view : InView before)
    (faithful : drive.faithful) (keeps : drive.keepsView before) : InView (afterDrive before drive) := by
  intro id execution found live
  rcases afterDrive_cases wf drive faithful with frame | ⟨input, -, effect⟩ |
    ⟨input, report, attempt, row, reached, rfl, advanced, effect, decided⟩
  · rw [Store.execution, frame.executions] at found
    obtain ⟨stage, here⟩ := view id execution found live
    exact ⟨stage, here.congr fun row _ => by rw [frame.stages]⟩
  · obtain ⟨first, made, rows⟩ := effect.rows
    by_cases own : id = input.runId
    · subst own
      have absent (row : StageRow) (member : row ∈ before.stages) (owner : row.executionId = input.runId) : False :=
        wf.stageOwners row member (owner ▸ effect.fresh)
      have only (row : StageRow) (member : row ∈ (afterDrive before drive).stages)
          (owner : row.executionId = input.runId) : row = first := by
        rcases (rows row).mp member with old | same
        · exact (absent row old owner).elim
        · exact same
      have opened : (afterDrive before drive).Opens input.runId .specification first :=
        ⟨(rows first).mpr (Or.inr rfl), by rw [made]; rfl, by rw [made]; rfl, by rw [made]; rfl⟩
      refine ⟨.specification, ⟨first, opened⟩, fun other row _ => Nat.zero_le _, ?_, ?_, Or.inl ⟨first, opened, ?_⟩⟩
      · intro row member owner later
        rw [only row member owner, opened.own] at later
        exact absurd later (Nat.lt_irrefl _)
      · intro row member other listed owner owner' _ _
        rw [only row member owner, only other listed owner']
      · rw [made]
        exact fun failed => by cases failed
    · rw [effect.execution_other id own] at found
      obtain ⟨stage, here⟩ := view id execution found live
      exact ⟨stage, here.congr fun row owner => effect.rows_other owner own⟩
  · rcases effect.execution_cases found with ⟨rfl, status⟩ | ⟨own, kept⟩
    · obtain ⟨run, stage, loaded, unfinished, -⟩ := attempted_some effect.plan
      obtain ⟨old, there, -, -, same, -⟩ := load_some loaded
      obtain ⟨current, here⟩ := view input.runId old there (same ▸ unfinished)
      have at_ : current = attempt.stage := by
        have next := here.nextStage effect.loaded
        rw [effect.current, Option.some.injEq] at next
        exact next.symm
      subst at_
      refine effect.view wf here (status ▸ live) fun target next => ?_
      have reported : reportOf input before = some report := by rw [reportOf, advanced]
      exact keeps attempt report _ target effect.plan reported decided next
    · obtain ⟨stage, here⟩ := view id execution kept live
      exact ⟨stage, here.congr fun item owner => effect.rows_other wf owner own⟩

/-- Over any creations and faithful advances, each of which keeps the view, the operator is shown for every run that
    has not ended the phase of the stage that the driver executes next. -/
theorem view_follows_driver {drives : List Drive}
    (along : Trace.Along afterDrive (fun store drive => drive.faithful ∧ drive.keepsView store) {} drives)
    {runId : String} {run : ChangeRun} (loaded : (driven drives).load runId = some run)
    (live : runTerminal run.status = false) : ViewAgrees run := by
  have step (store : Store) (drive : Drive) (kept : WellFormed store ∧ InView store)
      (met : drive.faithful ∧ drive.keepsView store) :
      WellFormed (afterDrive store drive) ∧ InView (afterDrive store drive) :=
    ⟨afterDrive_wellFormed kept.1 drive met.1, afterDrive_inView drive kept.1 kept.2 met.1 met.2⟩
  have start : WellFormed {} ∧ InView {} := ⟨WellFormed.empty, fun _ _ found => by cases found⟩
  exact (Trace.invariant step start along).2.agrees loaded live

/-- A first rework round of the specification keeps the view. -/
theorem reworked_specification_shown : ∃ run,
    (driven [.create quickRun, .advance specificationRework]).load quickRun.runId = some run ∧ ViewAgrees run := by
  have facts : (attempted specificationRework (driven [.create quickRun])).map (fun attempt =>
        (attempt.result.nextAction.type, attempt.stage)) = some (.rework, .specification) ∧
      Unused specificationRework (driven [.create quickRun]) .specification ∧
      ((driven [.create quickRun, .advance specificationRework]).load quickRun.runId).map
        (fun run => runTerminal run.status) = some false := by decide +kernel
  obtain ⟨plan, unused, reached⟩ := facts
  have along : Trace.Along afterDrive (fun store drive => drive.faithful ∧ drive.keepsView store) {}
      [.create quickRun, .advance specificationRework] := by
    refine ⟨⟨trivial, trivial⟩, ⟨scripted_faithful _ _ _ _, ?_⟩, trivial⟩
    intro attempt report decision target planned _ _ _
    change attempted specificationRework (driven [.create quickRun]) = some attempt at planned
    rw [planned, Option.map_some, Option.some.injEq, Prod.mk.injEq] at plan
    rw [KeepsView, plan.1, plan.2]
    exact fun _ => Or.inl unused
  obtain ⟨run, loaded, unfinished⟩ := Option.map_eq_some_iff.mp reached
  exact ⟨run, loaded, view_follows_driver along loaded unfinished⟩

/-- The specification of the reworked round is accepted: the operator is shown the plan, the driver goes back to the
    specification that the rework left failed. -/
theorem accepted_round_shows_plan :
    ¬ ∀ drives : List Drive, (∀ drive ∈ drives, drive.faithful) → ∀ runId run,
      (driven drives).load runId = some run → runTerminal run.status = false → ViewAgrees run := by
  intro agrees
  let drives : List Drive := [.create quickRun, .advance specificationRework, .advance (specificationAccepted "c2")]
  have faithful : ∀ drive ∈ drives, drive.faithful := by
    simp only [drives, List.forall_mem_cons, List.not_mem_nil, false_implies, implies_true, and_true]
    exact ⟨trivial, scripted_faithful _ _ _ _, scripted_faithful _ _ _ _⟩
  have facts : ((driven drives).load quickRun.runId).map (fun run =>
      (runTerminal run.status, nextStage run, phaseStage (currentPhase (some run) [] fun _ => none))) =
        some (false, some .specification, some .planning) := by decide +kernel
  obtain ⟨run, loaded, facts⟩ := Option.map_eq_some_iff.mp facts
  simp only [Prod.mk.injEq] at facts
  obtain ⟨live, next, shown⟩ := facts
  have same := agrees drives faithful quickRun.runId run loaded live [] fun _ => none
  rw [shown, next] at same
  cases same

end DarkFactory

import DarkFactory.Runner.Scripts

namespace DarkFactory

def WaitFacts.resolve (facts : WaitFacts) (run : ChangeRun) (stage : Stage) (change : Change) : Bool :=
  if stage = .release then releaseResolved (facts.release.bind fun observe => observe run stage change)
  else gateResolved (facts.gate.bind fun observe => observe run stage change) stage run.route (riskClassOf run)

theorem resolvedWait_isSome {checkpoint : StageResult} {run : ChangeRun} {stage : Stage} {change : Change}
    {facts : WaitFacts} (waits : checkpoint.status = .waiting)
    (resolves : facts.resolve run stage change = true) :
    (resolvedWait checkpoint run stage change facts).isSome = true := by
  simp only [resolvedWait, waits, ne_eq, not_true_eq_false, ↓reduceIte]
  unfold WaitFacts.resolve at resolves
  by_cases release : stage = .release
  · rw [if_pos release] at resolves
    rw [if_pos release, if_pos resolves, Option.isSome_map]
    cases observed : facts.release.bind fun observe => observe run stage change with
    | none => simp [observed, releaseResolved] at resolves
    | some observation => rfl
  · rw [if_neg release] at resolves
    rw [if_neg release, if_pos resolves, Option.isSome_map]
    cases observed : facts.gate.bind fun observe => observe run stage change with
    | none => simp [observed, gateResolved] at resolves
    | some observation => rfl

def Checkpointed (store : Store) (row : StageRow) : Prop :=
  ∃ checkpoint, store.committedResult row.executionId row.stage (max row.attemptCount 1) row.inputRevision =
    some checkpoint ∧ checkpoint.status = .waiting

structure Resumable (store : Store) : Prop where
  wellFormed : WellFormed store
  checkpointed : ∀ row ∈ store.stages, row.status = .waiting → Checkpointed store row

/-- No merge the transaction applies is left to the human by the merge policy. A result that the flow table
    refuses is not applied, whatever it asks for. -/
def Drive.mergesDecided (store : Store) : Drive → Prop
  | .create _ => True
  | .advance input => ∀ attempt, attempted input store = some attempt → FlowAccepts attempt.result →
      ¬ DefersMerge attempt.charged attempt.result input.now attempt.mergeContext

theorem Reaches.waiting {run : ChangeRun} {result : StageResult} {now : Timestamp}
    {history : List StageResult} {context : Option MergeRequestContext} {decisions : List Decision}
    {reached : Verdict} (reaches : Reaches run result now history context decisions reached)
    (waits : reached.stageStatus = .waiting) : result.status = .waiting ∨ DefersMerge run result now context := by
  cases reaches with
  | parked same => exact Or.inl same
  | deferred action defers => exact Or.inr defers
  | blocked | left | reworked | nextPhase | released => cases waits
  | stopped outcome => cases outcome <;> cases waits

section Effect

variable {input : AdvanceInput} {before after : Store} {attempt : Attempted} {row : StageRow} {reached : Verdict}

theorem AdvanceEffect.counted (effect : AdvanceEffect input before after attempt row reached) :
    max (max row.attemptCount attempt.attemptNumber) 1 = attempt.attemptNumber := by
  have number : attempt.attemptNumber = if retryableStage row.status then max row.attemptCount 1 + 1
      else max row.attemptCount 1 := by
    rw [effect.number, attemptNumberOf, effect.flight]
    rfl
  rw [number]
  split <;> omega

theorem AdvanceEffect.committed (effect : AdvanceEffect input before after attempt row reached)
    (wf : WellFormed before) :
    after.committedResult input.runId attempt.stage attempt.attemptNumber attempt.inputRevision =
      some attempt.result := by
  have member : resultRow attempt.result ∈ after.results := (effect.results wf _).mpr (Or.inr rfl)
  exact (effect.wellFormed wf).committed_of_row member effect.answers

theorem AdvanceEffect.committed_other (effect : AdvanceEffect input before after attempt row reached)
    (wf : WellFormed before) {other : StageRow} (member : other ∈ before.stages) (apart : other.id ≠ row.id)
    {number : Nat} {result : StageResult}
    (committed : before.committedResult other.executionId other.stage number other.inputRevision = some result) :
    after.committedResult other.executionId other.stage number other.inputRevision = some result := by
  obtain ⟨held, listed, rfl, sound, answers⟩ := wf.committed_row committed
  refine (effect.wellFormed wf).committed_of_row ((effect.results wf held).mpr (Or.inl ⟨listed, ?_⟩)) answers
  intro same
  rw [sound.columns, answers.rowId, effect.answers.rowId] at same
  obtain ⟨keys, -⟩ := attemptId_injective same
  apply apart
  rw [wf.stageKeys other member, wf.stageKeys row effect.member, effect.owner, effect.own, ← effect.revision]
  exact keys

theorem AdvanceEffect.resumable (effect : AdvanceEffect input before after attempt row reached)
    (resumable : Resumable before)
    (decided : ¬ DefersMerge attempt.charged attempt.result input.now attempt.mergeContext) :
    Resumable after := by
  have wf := resumable.wellFormed
  obtain ⟨settled, settles, rows⟩ := effect.rows wf
  refine ⟨effect.wellFormed wf, ?_⟩
  intro item member waits
  rcases (rows item).mp member with ⟨kept, apart⟩ | rfl | ⟨stage, -, -, rfl⟩
  · obtain ⟨checkpoint, committed, same⟩ := resumable.checkpointed item kept waits
    exact ⟨checkpoint, effect.committed_other wf kept apart committed, same⟩
  · rw [settles.status_eq] at waits
    rcases effect.reaches.waiting waits with same | defers
    · refine ⟨attempt.result, ?_, same⟩
      rw [settles.executionId_eq, settles.stage_eq, settles.inputRevision_eq, settles.attemptCount_eq,
        effect.counted, effect.owner, effect.own, ← effect.revision]
      exact effect.committed wf
    · exact absurd defers decided
  · cases waits

end Effect

theorem afterDrive_resumable {before : Store} (drive : Drive) (resumable : Resumable before)
    (faithful : drive.faithful) (decided : drive.mergesDecided before) : Resumable (afterDrive before drive) := by
  have wf := resumable.wellFormed
  rcases afterDrive_cases wf drive faithful with frame | ⟨input, -, effect⟩ |
    ⟨input, report, attempt, row, reached, rfl, -, effect, -⟩
  · refine ⟨frame.wellFormed wf, ?_⟩
    intro row member waits
    rw [frame.stages] at member
    obtain ⟨checkpoint, committed, same⟩ := resumable.checkpointed row member waits
    refine ⟨checkpoint, ?_, same⟩
    rw [Store.committedResult, Store.attemptRows, frame.results]
    exact committed
  · obtain ⟨first, rfl, rows⟩ := effect.rows
    refine ⟨effect.wellFormed, ?_⟩
    intro row member waits
    rcases (rows row).mp member with listed | rfl
    · obtain ⟨checkpoint, committed, same⟩ := resumable.checkpointed row listed waits
      refine ⟨checkpoint, ?_, same⟩
      rw [Store.committedResult, Store.attemptRows, effect.results]
      exact committed
    · cases waits
  · exact effect.resumable resumable (decided attempt effect.plan effect.accepted)

/-- In every state of a run of transactions that leave no merge to the human, the result the driver
    reads back for a waiting stage is its checkpoint, and a resolving observation resumes it. -/
theorem parked_run_resumable {drives : List Drive}
    (along : Trace.Along afterDrive (fun store drive => drive.faithful ∧ drive.mergesDecided store) {} drives)
    {runId : String} {run : ChangeRun} {stage : Stage} {current : StageRun}
    (loaded : (driven drives).load runId = some run) (flight : inFlight run stage = some current)
    (waits : current.status = .waiting) (input : AdvanceInput) :
    ∃ checkpoint, (driven drives).committedResult run.id stage (attemptNumberOf run stage)
        (pinnedRevision input run stage) = some checkpoint ∧ checkpoint.status = .waiting ∧
      ∀ facts : WaitFacts, facts.resolve run stage input.change = true →
        (resolvedWait checkpoint run stage input.change facts).isSome = true := by
  have resumable : Resumable (driven drives) :=
    Trace.invariant (fun store drive held met => afterDrive_resumable drive held met.1 met.2)
      ⟨WellFormed.empty, by simp⟩ along
  obtain ⟨execution, -, same, -⟩ := load_some loaded
  obtain ⟨row, member, owner, own, -, rfl⟩ := inFlight_row loaded flight
  obtain ⟨checkpoint, committed, waiting⟩ := resumable.checkpointed row member waits
  refine ⟨checkpoint, ?_, waiting, fun facts resolves => resolvedWait_isSome waiting resolves⟩
  have number : attemptNumberOf run stage = max row.attemptCount 1 := by
    simp only [attemptNumberOf, flight, waits, retryableStage, reduceCtorEq, decide_false, Bool.or_self,
      Bool.false_eq_true, ↓reduceIte]
    rfl
  have pinned : pinnedRevision input run stage = row.inputRevision := by
    rw [pinnedRevision, flight]
    rfl
  rw [same, number, pinned, ← owner, ← own]
  exact committed

def parkedReview : List Drive :=
  quickToReview ++ [.advance (scripted quickRun.runId 4 "c4"
    { status := .waiting, nextAction := .waitForInput "waiting for the review" })]

def deferredReview : List Drive :=
  quickToReview ++ [.advance (scripted quickRun.runId 4 "c4"
    { status := .succeeded, nextAction := .merge changeRequest none
      gateResults := [Gate.passed .review, Gate.passed .verification] })]

theorem scripted_mergesDecided {runId : String} {at_ : Timestamp} {revision : String} {answer : Answer}
    (store : Store) (other : answer.nextAction.type ≠ .merge) :
    (Drive.advance (scripted runId at_ revision answer)).mergesDecided store := by
  intro attempt planned accepted defers
  obtain ⟨context, answered⟩ := scripted_attempted planned
  obtain ⟨⟨request, reason, merge⟩, -⟩ := defers
  rw [answered] at merge
  exact other (by rw [show answer.nextAction = _ from merge]; rfl)

theorem parked_review_resumable :
    ∃ checkpoint, ((driven parkedReview).load quickRun.runId).bind (fun run =>
        (driven parkedReview).committedResult run.id .reviewVerification
          (attemptNumberOf run .reviewVerification) "c3") = some checkpoint ∧ checkpoint.status = .waiting := by
  have parked : ((driven parkedReview).load quickRun.runId).bind (fun run =>
      (inFlight run .reviewVerification).map fun current => (current.status, current.inputRevision)) =
        some (.waiting, some "c3") := by decide +kernel
  obtain ⟨run, loaded, there⟩ := Option.bind_eq_some_iff.mp parked
  obtain ⟨current, flight, facts⟩ := Option.map_eq_some_iff.mp there
  obtain ⟨waits, pinned⟩ := Prod.mk.inj facts
  have along : Trace.Along afterDrive (fun store drive => drive.faithful ∧ drive.mergesDecided store) {}
      parkedReview := by
    apply Trace.along_of_forall
    simp only [parkedReview, quickToReview, List.cons_append, List.nil_append, List.forall_mem_cons,
      List.not_mem_nil, false_implies, implies_true, and_true]
    refine ⟨fun _ => ⟨trivial, trivial⟩, ?_, ?_, ?_, ?_⟩ <;> intro store <;>
      exact ⟨scripted_faithful _ _ _ _, scripted_mergesDecided store (by decide)⟩
  obtain ⟨checkpoint, committed, waiting, -⟩ := parked_run_resumable along loaded flight waits
    (scripted quickRun.runId 5 "c5" { status := .failed, nextAction := .stop .failed "" })
  refine ⟨checkpoint, ?_, waiting⟩
  rw [loaded, Option.bind_some]
  simpa [pinnedRevision, flight, pinned] using committed

/-- A merge left to the human parks the run on a result that no observation resolves. -/
theorem deferred_review_replays :
    (∀ drive ∈ deferredReview, drive.faithful) ∧
      ((driven deferredReview).load quickRun.runId).bind (fun run =>
        (inFlight run .reviewVerification).map fun current => (nextStage run, current.status,
          ((driven deferredReview).committedResult run.id .reviewVerification
            (attemptNumberOf run .reviewVerification) (current.inputRevision.getD "")).map (·.status))) =
        some (some .reviewVerification, .waiting, some .succeeded) := by
  refine ⟨?_, by decide +kernel⟩
  simp only [deferredReview, quickToReview, List.cons_append, List.nil_append, List.forall_mem_cons,
    List.not_mem_nil, false_implies, implies_true, and_true]
  exact ⟨trivial, scripted_faithful _ _ _ _, scripted_faithful _ _ _ _, scripted_faithful _ _ _ _,
    scripted_faithful _ _ _ _⟩

end DarkFactory

import DarkFactory.Runner.Attempted

namespace DarkFactory

section Rows

variable {route : Route} {left middle right : StageRow}

theorem rowBefore_iff :
    rowBefore route left right = true ↔
      (routeProfile route).stages.idxOf left.stage < (routeProfile route).stages.idxOf right.stage ∨
        (routeProfile route).stages.idxOf left.stage = (routeProfile route).stages.idxOf right.stage ∧
          (left.createdAt < right.createdAt ∨ left.createdAt = right.createdAt ∧ left.id ≤ right.id) := by
  simp [rowBefore]

theorem rowBefore_total (left right : StageRow) :
    rowBefore route left right = true ∨ rowBefore route right left = true := by
  rw [rowBefore_iff, rowBefore_iff]
  have places := lt_trichotomy ((routeProfile route).stages.idxOf left.stage)
    ((routeProfile route).stages.idxOf right.stage)
  have times := lt_trichotomy left.createdAt right.createdAt
  have ids := String.le_total left.id right.id
  tauto

theorem rowBefore_trans (first : rowBefore route left middle = true)
    (second : rowBefore route middle right = true) : rowBefore route left right = true := by
  rw [rowBefore_iff] at first second ⊢
  rcases first with place | ⟨place, time | ⟨time, id⟩⟩
  · rcases second with place' | ⟨place', -⟩ <;> left <;> omega
  · rcases second with place' | ⟨place', time' | ⟨time', -⟩⟩
    · exact Or.inl (place ▸ place')
    · exact Or.inr ⟨place.trans place', Or.inl (lt_trans time time')⟩
    · exact Or.inr ⟨place.trans place', Or.inl (time' ▸ time)⟩
  · rcases second with place' | ⟨place', time' | ⟨time', id'⟩⟩
    · exact Or.inl (place ▸ place')
    · exact Or.inr ⟨place.trans place', Or.inl (time ▸ time')⟩
    · exact Or.inr ⟨place.trans place', Or.inr ⟨time.trans time', String.le_trans id id'⟩⟩

theorem rowBefore_antisymm (first : rowBefore route left right = true)
    (second : rowBefore route right left = true) : left.id = right.id := by
  rw [rowBefore_iff] at first second
  rcases first with place | ⟨place, time | ⟨time, id⟩⟩
  · omega
  · rcases second with place' | ⟨-, time' | ⟨time', -⟩⟩
    · omega
    · exact absurd time' (lt_asymm time)
    · exact absurd time (time' ▸ lt_irrefl _)
  · rcases second with place' | ⟨-, time' | ⟨-, id'⟩⟩
    · omega
    · exact absurd time' (time ▸ lt_irrefl _)
    · exact String.le_antisymm id id'

theorem rowBefore_refl (row : StageRow) : rowBefore route row row = true :=
  (rowBefore_total row row).elim id id

theorem rowBefore_swap (apart : left.id ≠ right.id) :
    rowBefore route left right = true ↔ rowBefore route right left = false := by
  constructor
  · intro first
    rw [Bool.eq_false_iff]
    intro second
    exact apart (rowBefore_antisymm first second)
  · intro behind
    rcases rowBefore_total left right with first | second
    · exact first
    · rw [behind] at second
      cases second

theorem rowBefore_congr {other : StageRow} (stage : other.stage = left.stage) (id : other.id = left.id)
    (createdAt : other.createdAt = left.createdAt) :
    rowBefore route other right = rowBefore route left right := by
  simp only [rowBefore, stage, id, createdAt]

end Rows

theorem runRows_sorted (store : Store) (runId : String) (route : Route) :
    (store.runRows runId route).Pairwise fun left right => rowBefore route left right = true := by
  have : Std.Total fun left right : StageRow => rowBefore route left right = true := ⟨rowBefore_total⟩
  have : IsTrans StageRow fun left right => rowBefore route left right = true :=
    ⟨fun _ _ _ first second => rowBefore_trans first second⟩
  exact List.pairwise_insertionSort _ _

structure Store.Opens (store : Store) (runId : String) (stage : Stage) (row : StageRow) : Prop where
  member : row ∈ store.stages
  owner : row.executionId = runId
  own : row.stage = stage
  live : row.open = true

theorem opens_congr {store after : Store} {runId : String} {stage : Stage} {row : StageRow}
    (rows : ∀ row : StageRow, row.executionId = runId → (row ∈ after.stages ↔ row ∈ store.stages)) :
    after.Opens runId stage row ↔ store.Opens runId stage row := by
  constructor
  · rintro ⟨member, owner, own, live⟩
    exact ⟨(rows row owner).mp member, owner, own, live⟩
  · rintro ⟨member, owner, own, live⟩
    exact ⟨(rows row owner).mpr member, owner, own, live⟩

section Loaded

variable {store : Store} {runId : String} {run : ChangeRun} {stage : Stage}

theorem mem_stages (loaded : store.load runId = some run) {stageRun : StageRun} :
    stageRun ∈ run.stages ↔ ∃ row ∈ store.stages, row.executionId = runId ∧ row.stageRun = stageRun := by
  obtain ⟨execution, -, -, -, -, rows⟩ := load_some loaded
  simp only [rows, List.mem_map, mem_runRows, and_assoc]

theorem opens_stageRun (loaded : store.load runId = some run) {stageRun : StageRun} :
    (stageRun ∈ run.stages ∧ activeAt stage stageRun = true) ↔
      ∃ row, store.Opens runId stage row ∧ row.stageRun = stageRun := by
  rw [mem_stages loaded]
  constructor
  · rintro ⟨⟨row, member, owner, rfl⟩, active⟩
    obtain ⟨own, live⟩ := activeAt_stageRun.mp active
    exact ⟨row, ⟨member, owner, own, live⟩, rfl⟩
  · rintro ⟨row, ⟨member, owner, own, live⟩, rfl⟩
    exact ⟨⟨row, member, owner, rfl⟩, activeAt_stageRun.mpr ⟨own, live⟩⟩

theorem nextStage_opens (loaded : store.load runId = some run) :
    nextStage run = some stage ↔
      (∃ row, store.Opens runId stage row) ∧
        ∀ other row, store.Opens runId other row → stageIndex stage ≤ stageIndex other := by
  rw [nextStage_eq_some]
  constructor
  · rintro ⟨⟨item, there⟩, least⟩
    obtain ⟨row, opens, -⟩ := (opens_stageRun loaded).mp there
    refine ⟨⟨row, opens⟩, ?_⟩
    intro other held opened
    obtain ⟨listed, active⟩ := (opens_stageRun loaded).mpr ⟨held, opened, rfl⟩
    obtain ⟨own, live⟩ := activeAt_iff.mp active
    rw [← own]
    exact least held.stageRun listed live
  · rintro ⟨⟨row, opens⟩, least⟩
    refine ⟨⟨row.stageRun, (opens_stageRun loaded).mpr ⟨row, opens, rfl⟩⟩, ?_⟩
    intro item listed live
    obtain ⟨held, opened, rfl⟩ := (opens_stageRun loaded).mp ⟨listed, activeAt_iff.mpr ⟨rfl, live⟩⟩
    exact least _ held opened

theorem inFlight_none_opens (loaded : store.load runId = some run) :
    inFlight run stage = none ↔ ∀ row, ¬ store.Opens runId stage row := by
  rw [inFlight_none]
  constructor
  · intro idle row opens
    obtain ⟨listed, active⟩ := (opens_stageRun loaded).mpr ⟨row, opens, rfl⟩
    rw [idle _ listed] at active
    cases active
  · intro none item listed
    rw [← Bool.not_eq_true]
    intro active
    obtain ⟨row, opens, -⟩ := (opens_stageRun loaded).mp ⟨listed, active⟩
    exact none row opens

theorem inFlight_opens (wf : WellFormed store) (loaded : store.load runId = some run) {row : StageRow}
    (opens : store.Opens runId stage row) :
    inFlight run stage = some row.stageRun ↔
      ∀ other, store.Opens runId stage other → rowBefore run.route other row = true := by
  obtain ⟨execution, -, -, route, -, rows⟩ := load_some loaded
  let live := (store.runRows runId run.route).filter (activeAt stage ∘ StageRow.stageRun)
  have flight : inFlight run stage = live.getLast?.map StageRow.stageRun := by
    rw [inFlight_getLast, rows, ← route, List.filter_map, List.getLast?_map]
  have listed (other : StageRow) : other ∈ live ↔ store.Opens runId stage other := by
    simp only [live, List.mem_filter, mem_runRows, Function.comp_apply, activeAt_stageRun]
    exact ⟨fun ⟨⟨member, owner⟩, own, open_⟩ => ⟨member, owner, own, open_⟩,
      fun ⟨member, owner, own, open_⟩ => ⟨⟨member, owner⟩, own, open_⟩⟩
  have last : live.getLast? = some row ↔ row ∈ live ∧ ∀ other ∈ live, rowBefore run.route other row = true := by
    apply Last.getLast_sorted ((runRows_sorted store runId run.route).filter _) (rowBefore_refl row)
    intro other there first second
    exact wf.stagesUnique.eq ((listed other).mp there).member opens.member (rowBefore_antisymm first second)
  have same : live.getLast?.map StageRow.stageRun = some row.stageRun ↔ live.getLast? = some row := by
    rw [Option.map_eq_some_iff]
    constructor
    · rintro ⟨other, final, equal⟩
      have there := (listed other).mp (List.mem_of_getLast? final)
      rw [final, wf.stagesUnique.eq there.member opens.member (congrArg StageRun.id equal)]
    · intro final
      exact ⟨row, final, rfl⟩
  rw [flight, same, last]
  simp only [listed]
  exact ⟨fun both => both.2, fun before => ⟨opens, before⟩⟩

end Loaded

end DarkFactory

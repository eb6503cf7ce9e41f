import DarkFactory.Stages.Phases
import DarkFactory.Changes.Run

namespace DarkFactory

inductive QuestionStatus | «open» | answered | resolved | stale
  deriving DecidableEq, Repr

structure Question where
  id : String
  changeId : String
  phase : Phase
  blocking : Bool
  status : QuestionStatus := .open
  deriving DecidableEq, Repr

def Question.blocksGate (question : Question) : Bool := question.blocking && question.status = .open

inductive UiRequirementSource | route | agent | operator | default
  deriving DecidableEq, Repr

structure UiRequirement where
  required : Bool
  source : UiRequirementSource
  reason : Option String := none
  deriving DecidableEq, Repr

structure GateReason where
  what : String
  how : String
  deriving DecidableEq, Repr

structure PhaseGate where
  changeId : String
  phase : Phase
  gate : Option Gate
  available : Bool
  reasons : List GateReason
  currentRevision : Option String
  approved : Bool
  waived : Bool
  deriving DecidableEq, Repr

/-- The route has no `ui` gate, so the interface phase asks for nothing. -/
def routeFree (phase : Phase) (route : Option Route) : Bool :=
  phase = .interface && route.any fun route => !uiRequiredByRoute route

/-- Who says whether the interface applies: the route, a waiver, the architect, else the default. -/
def uiView (phase : Phase) (route : Option Route) (waiver : Option Decision)
    (uiRequirement : Option UiRequirement) : UiRequirement :=
  if routeFree phase route then
    { required := false, source := .route
      reason := some ("Маршрут " ++ (route.map Route.value).getD "" ++ " не требует гейта ui") }
  else
    match waiver, uiRequirement with
    | some waiver, _ => { required := false, source := .operator, reason := waiver.comment }
    | none, some stated => stated
    | none, none => { required := true, source := .default }

def confirmSkip (changeId : String) (view : UiRequirement) : GateReason where
  what := "UI не требуется по предложению архитектора: " ++
    (view.reason.filter (· ≠ "")).getD "основание не указано"
  how := "Подтвердите пропуск: factory change approve --id " ++ changeId ++
    " --phase interface --waive --comment «…» или POST /changes/" ++ changeId ++
    "/approvals \x7b\"gate\": \"ui\", \"phase\": \"interface\", \"outcome\": \"waived\", \"comment\": …\x7d."

def blockedByQuestions (changeId : String) (blocking : List Question) : GateReason where
  what := "Блокирующих вопросов без ответа: " ++ toString blocking.length ++ " (" ++
    Text.join ", " ((blocking.take 3).map Question.id) ++ (if 3 < blocking.length then " …" else "") ++ ")"
  how := "Ответьте: factory change answer --id " ++ changeId ++ " --question <id> --value …" ++
    " или POST /changes/" ++ changeId ++ "/questions/\x7bid\x7d/answer."

def revisionReasons (changeId : String) (phase : Phase) (route : Option Route) (missing : Bool)
    (view : UiRequirement) : List GateReason :=
  if routeFree phase route then
    [{ what := "UI не требуется: маршрут задачи не содержит гейта ui"
       how := "Решение здесь не требуется; фаза пропущена политикой маршрута." }]
  else if missing then
    if phase = .interface && !view.required then [confirmSkip changeId view]
    else
      [{ what := "Артефактов фазы ещё нет: агент не создал ревизию"
         how := "Запустите фазу: factory run advance --change-id " ++ changeId ++ "." }]
  else []

def roundReasons (changeId : String) (orders : List ReworkOrder) (budget : Option BudgetSnapshot) :
    List GateReason :=
  if orders.any fun order => order.status = .pending then
    [{ what := "Отправлено на доработку: раунд ещё не запущен"
       how := "Запустите раунд: factory run advance --change-id " ++ changeId ++ "." }]
  else if orders.any fun order => order.status = .inProgress then
    [{ what := "Идёт доработка (раунд " ++ toString ((budget.map BudgetSnapshot.usedReworkRounds).getD 0) ++
         " из " ++ toString ((budget.map BudgetSnapshot.maxReworkRounds).getD 3) ++ ")"
       how := "Дождитесь результата раунда; затем проверьте сводку агента." }]
  else []

def phaseGate (changeId : String) (phase : Phase) (questions : List Question) (orders : List ReworkOrder)
    (decisions : List Decision) (currentRevision : Option String) (budget : Option BudgetSnapshot)
    (revisionObservable : Bool) (route : Option Route) (uiRequirement : Option UiRequirement) : PhaseGate :=
  let own := phaseDecisions decisions phase
  let waived := own.any fun decision => decision.outcome = .waived
  let waiver := own.reverse.find? fun decision => decision.outcome = .waived
  let view := uiView phase route waiver uiRequirement
  let blocking := questions.filter Question.blocksGate
  let reasons :=
    (if (gateOfPhase phase).isNone then
      [{ what := "Фаза «" ++ phase.value ++ "» не имеет гейта согласования"
         how := "Перейдите к следующей фазе; решение здесь не требуется." }]
    else []) ++
    revisionReasons changeId phase route (currentRevision.isNone && revisionObservable && !waived) view ++
    (if blocking.isEmpty then [] else [blockedByQuestions changeId blocking]) ++
    roundReasons changeId orders budget
  { changeId, phase, gate := gateOfPhase phase, available := reasons.isEmpty, reasons, currentRevision
    approved := own.any fun decision =>
      decision.outcome = .approved && revisionState decision.commitSha currentRevision = .current
    waived }

end DarkFactory

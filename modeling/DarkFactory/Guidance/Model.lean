import DarkFactory.Conversations.PhaseGate
import DarkFactory.Runner.PhaseView

namespace DarkFactory

inductive GuidanceActor | operator | agent | ci | factory | external
  deriving DecidableEq, Repr

inductive ProductStatus | created | validating | ready | error
  deriving DecidableEq, Repr

def ProductStatus.value : ProductStatus → String
  | .created => "created"
  | .validating => "validating"
  | .ready => "ready"
  | .error => "error"

inductive Scenario | full | specsOnly
  deriving DecidableEq, Repr

def phaseLabel : Phase → String
  | .initiative => "Инициатива"
  | .requirements => "Требования"
  | .architecture => "Архитектура"
  | .interface => "Интерфейс"
  | .plan => "План"
  | .execution => "Исполнение"
  | .demonstration => "Демонстрация и проверка"
  | .delivery => "Доставка"
  | .done => "Завершено"

def gateLabel : Gate → String
  | .specification => "требования"
  | .planning => "план"
  | .code => "код"
  | .ui => "интерфейс"
  | .review => "ревью"
  | .verification => "проверку"
  | .release => "релиз"

/-- A phase without a label of its own shows its lowered name. -/
def phaseGateLabel : Phase → String
  | .requirements => "требования"
  | .architecture => "архитектуру"
  | .interface => "интерфейс"
  | .plan => "план"
  | .demonstration => "результат"
  | .delivery => "доставку"
  | .initiative => "инициатива"
  | .execution => "исполнение"
  | .done => "завершено"

structure GuidanceAction where
  label : String
  cli : Option String := none
  api : Option String := none
  enabled : Bool := true
  reason : Option String := none
  deriving DecidableEq, Repr

structure GuidanceBlocker where
  what : String
  who : GuidanceActor
  how : String
  deriving DecidableEq, Repr

structure Guidance where
  phase : Option Phase
  headline : String
  why : String
  primary : GuidanceAction
  secondary : List GuidanceAction := []
  blockers : List GuidanceBlocker := []
  after : Option String := none
  deriving DecidableEq, Repr

def Guidance.actions (guidance : Guidance) : List GuidanceAction := guidance.primary :: guidance.secondary

structure GuidedChange extends Change where
  productId : Option String := none
  scenario : Scenario := .full
  deriving DecidableEq, Repr

structure GuidedProduct where
  id : String
  status : ProductStatus
  deriving DecidableEq, Repr

/-- The gate of the phase with the counts that the operator sees; `staleApprovals` are the approvals in that state. -/
structure GuidedGate extends PhaseGate where
  uiRequirement : Option UiRequirement := none
  staleApprovals : Nat := 0
  blockingQuestions : Nat := 0
  openQuestions : Nat := 0
  openComments : Nat := 0
  addressedComments : Nat := 0
  detachedComments : Nat := 0
  reworkInProgress : Bool := false
  reworkRoundsUsed : Nat := 0
  reworkRoundsMax : Nat := 3
  deriving DecidableEq, Repr

def phaseOfRun (run : ChangeRun) : Phase :=
  if run.status = .succeeded then .done else ((shownStage run).map stagePhase).getD .initiative

namespace Guidance

variable (change : GuidedChange) (run : ChangeRun)

def status : GuidanceAction :=
  { label := "Показать состояние", cli := some s!"factory run status --run-id {run.id}"
    api := some s!"GET /runs/{run.id}" }

def advance : GuidanceAction :=
  { label := "Продолжить запуск", cli := some s!"factory run advance --run-id {run.id}" }

def withdraw : GuidanceAction :=
  { label := "Снять запуск", cli := some s!"factory run withdraw --run-id {run.id}"
    api := some s!"POST /runs/{run.id}/withdraw" }

def advanceChange (label : String) : GuidanceAction :=
  { advance run with label, cli := some s!"factory run advance --change-id {change.id}" }

def openChange (label : String) : GuidanceAction :=
  { label, cli := some s!"factory change status --id {change.id}", api := some s!"GET /changes/{change.id}" }

def stopReason : Option NextAction → Option String
  | some (.stop _ reason) => some reason
  | _ => none

/-- The first letter in upper case; `upper` is `str.upper` of one character. -/
def sentence (upper : Char → String) (text : String) : String :=
  match text.toList with
  | [] => text
  | first :: rest => upper first ++ String.ofList rest

def afterPhase : Phase → String
  | .requirements => "После согласования: архитектура и ADR (раунд архитектора)."
  | .architecture => "После согласования: интерфейс — сценарии и экраны (раунд" ++
      " дизайнера); для backend-only изменения — подтверждение пропуска UI."
  | .interface => "После согласования: план (Implementation Contract и задачи)."
  | .plan => "После утверждения: автономное исполнение."
  | .demonstration => "После принятия: merge и доставка в dev."
  | .delivery => "После доставки: baseline подтверждён, задача закрыта."
  | phase => s!"Следующая фаза после «{phaseLabel phase}»."

def nextRound (phase next : Phase) (reason : Option String) (blockers : List GuidanceBlocker) : Guidance :=
  { phase
    headline := s!"Следующий раунд: «{phaseLabel next}»"
    why := textOr reason s!"Фаза согласована; агент готовит «{phaseLabel next}»."
    primary := advanceChange change run s!"Запустить раунд «{phaseLabel next}»"
    secondary := [status run, withdraw run]
    blockers
    after := some s!"После раунда: результат фазы «{phaseLabel next}» и её согласование." }

def approveUi : GuidanceAction :=
  { label := "Подтвердить пропуск UI"
    cli := some s!"factory change approve --id {change.id} --phase interface --waive --comment …"
    api := some s!"POST /changes/{change.id}/approvals" }

def approve (phase : Phase) : GuidanceAction :=
  { label := s!"Согласовать {phaseGateLabel phase}"
    cli := some s!"factory change approve --id {change.id} --phase {phase.value}"
    api := some s!"POST /changes/{change.id}/approvals" }

def rework (phase : Phase) : GuidanceAction :=
  { label := "На доработку", cli := some s!"factory change rework --id {change.id} --phase {phase.value} …"
    api := some s!"POST /changes/{change.id}/rework-orders" }

def questions : GuidanceAction :=
  { label := "Ответить на вопросы", cli := some s!"factory change status --id {change.id}"
    api := some s!"GET /changes/{change.id}/questions?status=open" }

def artifacts : GuidanceAction :=
  { label := "Посмотреть артефакты", cli := some s!"factory change artifacts --id {change.id} list"
    api := some s!"GET /changes/{change.id}/artifacts" }

def alternative : GuidanceAction :=
  { label := "Запросить альтернативу"
    cli := some s!"factory change alternative --id {change.id} --decision <adr-id> --instruction …"
    api := some (s!"POST /changes/{change.id}/decisions/" ++ "\x7bdecision_id\x7d/alternative") }

def uiNotRequired (phase : Phase) (gate : GuidedGate) : Option UiRequirement :=
  gate.uiRequirement.filter fun view => phase = .interface && !view.required && view.source = .agent && !gate.waived

def gateCounts (gate : GuidedGate) : String :=
  s!"вопросов без ответа: {gate.openQuestions} (блокирующих {gate.blockingQuestions});" ++
    s!" открытых замечаний: {gate.openComments}" ++
    (if gate.addressedComments = 0 then "" else s!", ждут повторной проверки: {gate.addressedComments}") ++
    (if gate.detachedComments = 0 then "" else s!"; отвязанных замечаний: {gate.detachedComments}") ++
    (if gate.staleApprovals = 0 then "" else s!"; прежних согласований неактуально: {gate.staleApprovals}")

def waitingReason : NextAction → Option String
  | .requestApproval _ _ reason => reason
  | .waitForInput reason => some reason
  | _ => none

def approval (upper : Char → String) (phase : Phase) (gate : GuidedGate) (waitingOn : NextAction)
    (blockers : List GuidanceBlocker) : Guidance :=
  let label := phaseLabel phase
  let own := if phase = .architecture then [alternative change] else []
  let blockers := (gate.reasons.map fun reason => ⟨reason.what, .operator, reason.how⟩).reverse ++ blockers
  match uiNotRequired phase gate with
  | some view =>
    { phase
      headline := "Фаза «Интерфейс» не требуется: подтвердите пропуск"
      why := "Архитектор указал ui: not_required — " ++ textOr view.reason "основание не указано" ++ "." ++
        " Проверки axe и визуальной регрессии не проводятся."
      primary := approveUi change
      secondary := [rework change phase, artifacts change, withdraw run]
      blockers
      after := some "После подтверждения: план (Implementation Contract и задачи)." }
  | none =>
    if gate.approved || gate.waived then
      { phase
        headline := if gate.approved then s!"Фаза «{label}» согласована на текущей ревизии"
          else s!"Фаза «{label}» пропущена с основанием"
        why := if gate.approved then s!"Решение записано на ревизии {Text.shown gate.currentRevision}; {gateCounts gate}."
          else s!"Пропуск фазы записан оператором; {gateCounts gate}."
        primary := advanceChange change run "Продолжить после согласования"
        secondary := own ++ [rework change phase, artifacts change, status run]
        blockers
        after := some (afterPhase phase) }
    else if !gate.available then
      let first := (gate.reasons.head?.map GateReason.what).getD "гейт недоступен"
      { phase
        headline := s!"Фаза «{label}»: нужно решение, гейт пока закрыт"
        why := s!"{sentence upper first}; {gateCounts gate}."
        primary := if gate.blockingQuestions = 0 then
            { approve change phase with enabled := false, reason := some first }
          else questions change
        secondary := own ++ [rework change phase, artifacts change, withdraw run]
        blockers
        after := some s!"После снятия причин: согласование «{label}» или доработка." }
    else
      { phase
        headline := s!"Фаза «{label}» готова к согласованию"
        why := sentence upper (textOr (waitingReason waitingOn) "агент подготовил результат") ++ s!"; {gateCounts gate}."
        primary := approve change phase
        secondary := own ++ [rework change phase, artifacts change, withdraw run]
        blockers := ⟨s!"Нужно решение человека: согласовать «{label}»", .operator,
          s!"Просмотрите артефакты на ревизии {Text.shown gate.currentRevision} и запишите решение" ++
            " (согласовать / на доработку)."⟩ :: blockers
        after := some (afterPhase phase) }

def requestText (changeRequest : Option ChangeRequestRef) : String :=
  match changeRequest with
  | none => "change request"
  | some ref =>
    s!"CR #{ref.number}" ++ match ref.url.filter (· ≠ "") with
      | some url => s!" ({url})"
      | none => ""

def waiting (phase : Phase) (waitingOn : Option NextAction) (blockers : List GuidanceBlocker) : Guidance :=
  let label := phaseLabel phase
  match waitingOn with
  | some (.requestApproval gate _ reason) =>
    { phase
      headline := s!"Фаза «{label}» готова к согласованию"
      why := textOr reason s!"Агент подготовил результат; ожидается решение по гейту {gate.value}."
      primary := { label := s!"Согласовать {gateLabel gate}", api := some s!"POST /changes/{change.id}/approvals" }
      secondary := [{ advance run with label := "Продолжить после решения" }, withdraw run]
      blockers := ⟨s!"Нужно решение человека: согласовать {gateLabel gate}", .operator,
        "Просмотрите результат фазы и запишите решение (approve/reject) на" ++ " текущей ревизии."⟩ :: blockers
      after := some s!"После согласования: следующая фаза после «{label}»." }
  | some (.waitForCi reason changeRequest) =>
    { phase
      headline := s!"Фаза «{label}»: ожидается CI"
      why := reason
      primary := { advance run with label := "Продолжить по результату CI" }
      secondary := [status run, withdraw run]
      blockers := ⟨s!"Ожидается CI: {reason}", .ci,
        s!"Дождитесь зелёного CI на {requestText changeRequest}; затем продолжите запуск."⟩ :: blockers
      after := some "Зелёный CI продвинет запуск; красный — новая попытка или доработка." }
  | some (.waitForInput reason) =>
    { phase
      headline := s!"Фаза «{label}» ждёт ввода оператора"
      why := reason
      primary := advance run
      secondary := [status run, withdraw run]
      blockers := ⟨s!"Нужен ввод оператора: {reason}", .operator,
        "Дайте недостающий ввод и продолжите запуск."⟩ :: blockers
      after := some "После ввода агент продолжит стадию." }
  | some (.phaseRound next reason) => nextRound change run phase next reason blockers
  | some (.rework action) =>
    { phase
      headline := s!"Доработка {action.round} из {action.maxRounds}"
      why := action.reason
      primary := { advance run with label := "Запустить доработку" }
      secondary := [status run, withdraw run]
      blockers
      after := some "После доработки: повторная проверка результата." }
  | some (.merge changeRequest reason) =>
    { phase
      headline := "Готово к merge"
      why := textOr reason "Проверки пройдены; решение о merge — за человеком."
      primary := { label := "Смержить CR", enabled := false
                   reason := some "Помощник merge появится в M5 (T112–T113); пока — merge в провайдере." }
      secondary := [{ advance run with label := "Продолжить после merge" }, status run]
      blockers := ⟨s!"Нужен merge CR #{changeRequest.number} человеком (ADR-011)", .operator,
        "Проверьте чек-лист и смержите CR; фабрика продолжит по наблюдаемому" ++ " merge."⟩ :: blockers
      after := some "После merge: доставка в dev." }
  | some (.release environment reason) =>
    { phase
      headline := s!"Доставка в {environment}"
      why := textOr reason "Релиз продвинут; ожидается наблюдаемое состояние."
      primary := { advance run with label := "Продолжить по наблюдению" }
      secondary := [status run, withdraw run]
      blockers := ⟨s!"Ожидается доставка в {environment}", .external,
        "Дождитесь синхронизации GitOps и smoke, затем продолжите запуск."⟩ :: blockers
      after := some "После smoke: подтверждение baseline и закрытие." }
  | some (.executeStage ..) | some (.stop ..) | none =>
    { phase
      headline := s!"Фаза «{label}» ожидает"
      why := "Причина ожидания не записана в последнем результате стадии."
      primary := advance run
      secondary := [status run, withdraw run]
      blockers := ⟨"Запуск ожидает внешнего события", .external,
        "Продолжите запуск, когда событие наступит, или снимите его."⟩ :: blockers }

def asksOperator : Option NextAction → Option NextAction
  | some (.requestApproval gate requestedFrom reason) => some (.requestApproval gate requestedFrom reason)
  | some (.waitForInput reason) => some (.waitForInput reason)
  | _ => none

/-- The parked round is settled already, and the decisions read as the next phase. -/
def settledPhase (waitingOn : Option NextAction) (known waitingPhase : Option Phase) : Option Phase :=
  waitingPhase.filter fun settled => known.any (· ≠ settled) && (asksOperator waitingOn).isSome

def ofStatus (upper : Char → String) (phase : Phase) (waitingOn : Option NextAction) (gate : Option GuidedGate)
    (known waitingPhase : Option Phase) (blockers : List GuidanceBlocker) : Guidance :=
  let label := phaseLabel phase
  match run.status with
  | .pending | .running =>
    match gate.filter (·.reworkInProgress) with
    | some gate =>
      { phase
        headline := s!"Доработка «{label}»: раунд {gate.reworkRoundsUsed}" ++ s!" из {gate.reworkRoundsMax}"
        why := "Замечания и ответы переданы агенту; раунд исполняется следующим" ++ " запуском стадии."
        primary := advanceChange change run "Выполнить раунд доработки"
        secondary := [status run, withdraw run]
        blockers
        after := some ("После раунда: сводка агента «что изменил / что осталось» и повторное" ++ " согласование.") }
    | none =>
      { phase
        headline := s!"Идёт фаза «{label}»"
        why := "Агент работает; результат появится по завершении стадии."
        primary := { status run with label := "Обновить состояние" }
        secondary := [withdraw run]
        blockers
        after := some s!"После завершения: результат фазы «{label}» и следующий шаг." }
  | .waiting =>
    match settledPhase waitingOn known waitingPhase, gate, asksOperator waitingOn with
    | some settled, _, _ =>
      nextRound change run phase phase
        (some (s!"Фаза «{phaseLabel settled}» согласована; следующий раунд ждёт" ++ " запуска.")) blockers
    | none, some gate, some asked => approval change run upper phase gate asked blockers
    | none, _, _ => waiting change run phase waitingOn blockers
  | .blocked =>
    let reason := textOr (stopReason waitingOn) "причина в результате стадии"
    { phase
      headline := s!"Фаза «{label}» заблокирована"
      why := sentence upper reason ++ "."
      primary := { advance run with label := "Повторить попытку" }
      secondary := [withdraw run, status run]
      blockers := ⟨s!"Запуск заблокирован: {reason}", .operator,
        "Устраните причину и продолжите запуск (новая попытка стадии) или" ++ " снимите его."⟩ :: blockers
      after := some "Новая попытка той же стадии; committed-результаты не переписываются." }
  | .failed =>
    let reason := textOr (stopReason waitingOn) "стадия завершилась ошибкой"
    { phase
      headline := s!"Фаза «{label}» завершилась ошибкой"
      why := sentence upper reason ++ "."
      primary := { advance run with label := "Повторить попытку" }
      secondary := [withdraw run, status run]
      blockers := ⟨s!"Стадия завершилась ошибкой: {reason}", .operator,
        "Повторите попытку или снимите запуск."⟩ :: blockers
      after := some "Новая попытка той же стадии." }
  | .canceled =>
    { phase
      headline := "Запуск снят оператором"
      why := "История и результаты сохранены; запуск не продолжается."
      primary :=
        { label := "Новая задача"
          cli := some (match change.productId.filter (· ≠ "") with
            | some productId => s!"factory change create --product {productId} …"
            | none => "factory change create …")
          api := some "POST /changes" }
      secondary := [status run]
      blockers }
  | .superseded =>
    { phase
      headline := "Запуск заменён новым"
      why := "Этот запуск больше не актуален; смотрите текущий запуск задачи."
      primary := openChange change "Открыть задачу"
      secondary := [status run]
      blockers }
  | .succeeded =>
    { phase := some .done
      headline := "Задача завершена"
      why := if change.scenario = .specsOnly then "Сценарий specs-only: спецификации согласованы."
        else "Все стадии завершены."
      primary := openChange change "Открыть результат"
      blockers }

def spentLimit (phase : Phase) (limit : Decimal) (blockers : List GuidanceBlocker) : Guidance :=
  { phase
    headline := "Лимит расхода исчерпан"
    why := s!"Фаза «{phaseLabel phase}» остановлена: расход достиг лимита задачи."
    primary := withdraw run
    secondary := [status run]
    blockers := ⟨s!"Лимит расхода исчерпан: {run.budget.costUsed.text} из {limit.text} USD", .operator,
      "Снимите запуск или создайте задачу с большим лимитом."⟩ :: blockers
    after := some "После снятия: результаты сохранены, задачу можно завести заново." }

def exhaustedRounds : List GuidanceBlocker :=
  if run.budget.reworkExhausted then
    [⟨s!"Исчерпаны раунды доработки: {run.budget.usedReworkRounds} из" ++ s!" {run.budget.maxReworkRounds}", .operator,
      "Решите: принять результат как есть, снять запуск или пересмотреть" ++ " требования новой задачей."⟩]
  else []

def ofRun (upper : Char → String) (waitingOn : Option NextAction) (blockers : List GuidanceBlocker)
    (gate : Option GuidedGate) (known waitingPhase : Option Phase) : Guidance :=
  let phase := known.getD (phaseOfRun run)
  match run.budget.costBudget.filter fun limit => limit.le run.budget.costUsed with
  | some limit => spentLimit run phase limit blockers
  | none => ofStatus change run upper phase waitingOn gate known waitingPhase (exhaustedRounds run ++ blockers)

def productBlockers : Option GuidedProduct → List GuidanceBlocker
  | none =>
    [⟨"Задача не привязана к зарегистрированному продукту", .operator,
      "Зарегистрируйте продукт (factory product add) и создайте задачу от него."⟩]
  | some product =>
    if product.status = .ready then []
    else
      [⟨s!"Продукт {product.id} не готов (статус {product.status.value})", .operator,
        s!"Проверьте репозиторий: factory product validate --id {product.id}."⟩]

end Guidance

def changeGuidance (upper : Char → String) (change : GuidedChange) (product : Option GuidedProduct) (run : ChangeRun)
    (waitingOn : Option NextAction) (gate : Option GuidedGate) (phase waitingPhase : Option Phase) : Guidance :=
  Guidance.ofRun change run upper waitingOn (Guidance.productBlockers product) gate phase waitingPhase

end DarkFactory

import DarkFactory.Scm.Ports

namespace DarkFactory

/-- How the provider answers a request: with a status, or with an answer that is lost on its way, the request
    received or not. -/
inductive ProviderAnswer
  | status (code : Nat)
  | lost (received : Bool)
  deriving DecidableEq, Repr

inductive ProviderErrorKind | key | value | decode | headMismatch | api | transport
  deriving DecidableEq, Repr

structure ProviderError where
  kind : ProviderErrorKind
  message : String
  deriving DecidableEq, Repr

/-- `expect`: a status other than the expected one is an error. -/
def unexpectedStatus (method path : String) (code : Nat) : ProviderError :=
  ⟨.api, s!"GitHub {method} {path} failed with {code}"⟩

def transportError : ProviderError := ⟨.transport, ""⟩

/-- What the caller makes of an answer where one status means success. -/
def ProviderAnswer.raised (success : Nat) (method path : String) : ProviderAnswer → Option ProviderError
  | .lost _ => some transportError
  | .status code => if code = success then none else some (unexpectedStatus method path code)

def ProviderAnswer.takesEffect (success : Nat) : ProviderAnswer → Bool
  | .status code => code == success
  | .lost received => received

theorem ProviderAnswer.raised_none {success : Nat} {method path : String} {answer : ProviderAnswer} :
    answer.raised success method path = none ↔ answer = .status success := by
  cases answer with
  | lost received => simp [raised]
  | status code => simp [raised]

theorem ProviderAnswer.raised_of_refused {success : Nat} {method path : String} {answer : ProviderAnswer}
    (refused : answer.takesEffect success = false) : answer.raised success method path ≠ none := by
  rw [Ne, raised_none]
  rintro rfl
  simp [takesEffect] at refused

end DarkFactory

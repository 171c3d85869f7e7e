
namespace SequentialExecution.Common

inductive StatusCategory
  | none | system | onnxruntime
  deriving DecidableEq, Repr

inductive StatusCode
  | ok | fail | invalidArgument | noSuchfile | noModel | engineError | runtimeException
  | invalidProtobuf | modelLoaded | notImplemented | invalidGraph | epFail
  deriving DecidableEq, Repr

/-- A common::Status: OK, or a category, a code and a message. -/
structure Status where
  category : StatusCategory
  code : StatusCode
  message : String
  deriving DecidableEq, Repr

def Status.ok : Status := ⟨.none, .ok, ""⟩

def Status.isOK (s : Status) : Bool := s.code == .ok

/-- What a kernel's Compute does: return a status, or throw a std::exception. -/
inductive ComputeResult
  | status (s : Status)
  | exception (what : String)
  deriving DecidableEq, Repr

/-- How a call of Execute ends. Besides a returned status, an ORT_ENFORCE throws, and a null
dereference, an out-of-range read or a dangling frame is undefined behaviour. -/
inductive Outcome
  | ok
  | error (s : Status)
  | enforceFailed (condition : String)
  | undefined
  deriving DecidableEq, Repr

/-- The status the ORT_CATCH at lines 448-452 turns an exception into. -/
def computeStatus : ComputeResult → Status
  | .status s => s
  | .exception what => ⟨.onnxruntime, .runtimeException, what⟩

def terminateStatus : Status :=
  ⟨.onnxruntime, .fail, "Exiting due to terminate flag being set to true."⟩

def nullKernelStatus (name : String) : Status :=
  ⟨.onnxruntime, .fail, "Got nullptr from GetKernel for node: " ++ name⟩

/-- The status of lines 459-471: category and code of the kernel's, message naming the node. -/
def computeFailureStatus (opType name : String) (s : Status) : Status :=
  ⟨s.category, s.code, "Non-zero status code returned while running " ++ opType ++
    " node. Name:\x27" ++ name ++ "\x27 Status Message: " ++ s.message⟩

@[simp] theorem computeFailureStatus_category (opType name : String) (s : Status) :
    (computeFailureStatus opType name s).category = s.category := rfl

@[simp] theorem computeFailureStatus_code (opType name : String) (s : Status) :
    (computeFailureStatus opType name s).code = s.code := rfl

theorem computeStatus_isOK {r : ComputeResult} :
    (computeStatus r).isOK = true ↔ ∃ s, r = .status s ∧ s.isOK = true := by
  cases r <;> simp [computeStatus, Status.isOK]

theorem computeStatus_exception (what : String) :
    (computeStatus (.exception what)).code = .runtimeException := rfl

end SequentialExecution.Common

import Magicicada.Pb
import Magicicada.Uuid

/-!
The exceptions the program raises, catches or hands to a deferred, and `errors.py`, which makes
one from an `ERROR` message.
-/

namespace Magicicada.Errors

open Pb

/-- The subclasses of `StorageRequestError`, and that class itself. -/
inductive ErrorClass
  | storageRequestError
  | unsupportedVersionError | authenticationFailedError | internalError
  | authenticationRequiredError | noPermissionError | alreadyExistsError | doesNotExistError
  | notADirectoryError | notEmptyError | notAvailableError | uploadInProgressError
  | uploadCorruptError | uploadCanceledError | conflictError | tryAgainError | protocolError
  | cannotProduceDelta | invalidFilenameError
  /-- `QuotaExceededError` with its `free_bytes` and `share_id`, which is none for `ROOT`. -/
  | quotaExceededError (freeBytes : ℕ) (shareId : Option ℕ)
  deriving DecidableEq

/-- Exceptions. -/
inductive Exn
  /-- A `StorageRequestError` made from a message by a request. -/
  | storageRequestError (cls : ErrorClass) (errorMessage : Message)
  | storageProtocolError (text : String)
  | storageProtocolProtocolError (text : String)
  | storageProtocolErrorSizeTooBig (text : String)
  | requestCancelledError (text : String)
  /-- `defer.AlreadyCalledError`. -/
  | alreadyCalledError
  /-- `struct.error`. -/
  | structError
  | valueError (text : String)
  /-- A `ValueError` whose text shows a value. -/
  | valueErrorOf (text value : String)
  | typeError (text : String)
  | keyError
  | attributeError (name : String)
  | runtimeError (text : String)
  /-- The `RuntimeError` of a `Ping`, whose text shows the message. -/
  | unknownPingError (message : Message)
  /-- The `Exception` of `processMessage`, whose text shows the message. -/
  | peerCantHandle (message : Message)
  /-- The reason handed to `connectionLost`. -/
  | connectionLost (reason : ℕ)
  /-- Anything else, raised by code outside the program: a callback of the user, a file,
  the protobuf library. -/
  | foreign (n : ℕ)
  /-- The model ran out of fuel. -/
  | outOfFuel
  deriving DecidableEq

/-- `isinstance(e, StorageProtocolError)`. -/
def Exn.isStorageProtocolError : Exn → Bool
  | .storageRequestError _ _ | .storageProtocolError _ | .storageProtocolProtocolError _
  | .storageProtocolErrorSizeTooBig _ | .requestCancelledError _ => true
  | _ => false

/-- `uuid.UUID(s)`. -/
def uuid (s : String) : Except Exn ℕ :=
  match Uuid.parse s with
  | .ok n => .ok n
  | .error text => .error (.valueError text)

/-- `QuotaExceededError(request, message)`. -/
def quotaExceededError (m : Message) : Except Exn ErrorClass := do
  let info := rd m.freeSpaceInfo
  if rd info.shareId ≠ "" then
    let shareId ← uuid (rd info.shareId)
    pure (.quotaExceededError (rd info.freeBytes) (some shareId))
  else pure (.quotaExceededError (rd info.freeBytes) none)

/-- `error_to_exception(code)`, called with a message. -/
def errorToException (code : ErrorType) (m : Message) : Except Exn ErrorClass :=
  match code with
  | .unsupportedVersion => pure .unsupportedVersionError
  | .authenticationFailed => pure .authenticationFailedError
  | .internalError => pure .internalError
  | .authenticationRequired => pure .authenticationRequiredError
  | .noPermission => pure .noPermissionError
  | .alreadyExists => pure .alreadyExistsError
  | .doesNotExist => pure .doesNotExistError
  | .notADirectory => pure .notADirectoryError
  | .notEmpty => pure .notEmptyError
  | .notAvailable => pure .notAvailableError
  | .uploadInProgress => pure .uploadInProgressError
  | .uploadCorrupt => pure .uploadCorruptError
  | .uploadCanceled => pure .uploadCanceledError
  | .conflict => pure .conflictError
  | .tryAgain => pure .tryAgainError
  | .protocolError => pure .protocolError
  | .quotaExceeded => quotaExceededError m
  | .invalidFilename => pure .invalidFilenameError
  | .cannotProduceDelta => pure .cannotProduceDelta

end Magicicada.Errors
